import RepoManifest.Text.Cut

/-!
# File paths

A path is a root and the names of its steps. Reading a path drops empty steps and steps to the same
directory; steps upwards are kept.
-/

namespace RepoManifest

/-- A path: `root` is empty for a path that starts where one is, and slashes otherwise. -/
structure FilePath where
  root : String
  steps : List String
  deriving DecidableEq, Repr, Inhabited

namespace FilePath

/-- Read a path. Exactly two slashes in front are kept, more are one. -/
def ofText (text : String) : FilePath :=
  let slashes := (text.toList.takeWhile (· == '/')).length
  let root := if slashes = 0 then "" else if slashes = 2 then "//" else "/"
  ⟨root, ((Text.nonEmptyParts '/' text.toList).filter (· != ['.'])).map String.ofList⟩

/-- The text of a path; the path without steps is a point. -/
def text (p : FilePath) : String :=
  if p.root = "" ∧ p.steps = [] then "." else p.root ++ "/".intercalate p.steps

/-- The path without its last step. -/
def parent (p : FilePath) : FilePath := { p with steps := p.steps.dropLast }

/-- The path with one more step. -/
def join (p : FilePath) (name : String) : FilePath := { p with steps := p.steps ++ [name] }

end FilePath
end RepoManifest
