/-!
# Environments

The variables of an environment, in order. Some are read under their exact name; settings are read
whatever the letter case of the variable, and of several variables that differ only in case the last
one counts. Names of settings are ASCII, and so is the folding of case.
-/

namespace RepoManifest

/-- Variables and their values. -/
abbrev Environment := List (String × String)

/-- A name in lower case. -/
def foldCase (name : String) : String := name.map Char.toLower

namespace Environment

/-- The value of a variable of exactly this name. -/
def get? (env : Environment) (name : String) : Option String := env.lookup name

/-- The value of a setting: of the last variable with this name in any letter case. -/
def setting? (env : Environment) (name : String) : Option String :=
  ((env.filter fun (n, _) ↦ foldCase n == foldCase name).getLast?).map (·.2)

end Environment
end RepoManifest
