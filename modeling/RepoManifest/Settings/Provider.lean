import RepoManifest.Reading.Mapping
import RepoManifest.Settings.Environment

/-!
# Provider settings

The host and the organization that a manifest belongs to. A setting comes from the given mapping, or
else from the environment, or else it has its default. Names of settings may be given in any letter
case; the exact name counts before its variants.
-/

namespace RepoManifest

/-- Why the entries of a mapping cannot be given by name: a key is no word, or it is the name that
what is being built has itself. -/
inductive KeywordFault where
  | notText
  | receiver
  deriving DecidableEq, Repr

/-- The host and the organization. The organization may be a path through sub-organizations. -/
structure ProviderSettings where
  domain : String := "github.com"
  organization : Option String := none
  deriving DecidableEq, Repr, Inhabited

namespace KeywordFault

/-- The wording of a fault. -/
def message : KeywordFault → String
  | notText => "keywords must be strings"
  | receiver => "BaseSettings.__init__() got multiple values for argument '__pydantic_self__'"

end KeywordFault

namespace ProviderSettings

/-- The names of the settings. -/
def names : List String := ["domain", "organization"]

/-- What the variables of all settings start with. -/
def variableRoot : String := "GITPROVIDER_"

/-- The variable of a setting. -/
def variableName (name : String) : String := variableRoot ++ name.map Char.toUpper

/-- Keywords that say how settings are gathered. They are no settings. Null leaves the gathering as
it is; what their other values do to it is not described here. -/
def gatheringKeywords : List String :=
  ["_case_sensitive", "_nested_model_default_partial_update", "_env_prefix", "_env_prefix_target",
    "_env_file", "_env_file_encoding", "_env_ignore_empty", "_env_nested_delimiter",
    "_env_nested_max_split", "_env_parse_none_str", "_env_parse_enums", "_cli_prog_name",
    "_cli_parse_args", "_cli_settings_source", "_cli_parse_none_str", "_cli_hide_none_type",
    "_cli_avoid_json", "_cli_enforce_required", "_cli_use_class_docs_for_groups",
    "_cli_exit_on_error", "_cli_prefix", "_cli_flag_prefix_char", "_cli_implicit_flags",
    "_cli_ignore_unknown_args", "_cli_kebab_case", "_cli_shortcuts", "_secrets_dir",
    "_build_sources"]

/-- The entries of a mapping leave the gathering of settings as it is: those of its keywords that
are among the keys are null. -/
def GathersAsUsual (entries : List (Value × Value)) : Prop :=
  ∀ entry ∈ entries, ∀ keyword ∈ gatheringKeywords,
    entry.1.text? = some keyword → entry.2 = .null

/-- The name by which settings under construction are known. It is no keyword. -/
def receiver : String := "__pydantic_self__"

/-- The given value of a setting: under its exact name, or else under the first variant of it. -/
def given? (given : List (String × Value)) (name : String) : Option Value :=
  (given.lookup name).orElse fun _ ↦ (given.find? fun (n, _) ↦ foldCase n == name).map (·.2)

/-- The value of a setting before it is read: as given, or else from the environment. -/
def source? (given : List (String × Value)) (env : Environment) (name : String) : Option Value :=
  (given? given name).orElse fun _ ↦ (env.setting? (variableName name)).map .str

/-- The given names that are neither settings nor keywords. -/
def unknownNames (given : List (String × Value)) : List String :=
  (given.map (·.1)).filter fun n ↦ foldCase n ∉ names && n ∉ gatheringKeywords

/-- Read one setting. -/
def setting {α : Type} (given : List (String × Value)) (env : Environment) (name : String)
    (read : Value → Reading α) (default : α) : Reading α :=
  match source? given env name with
  | some v => Reading.under (.name name) (read v)
  | none => .ok default

/-- Read the settings from named values and an environment. -/
def ofNamed (given : List (String × Value)) (env : Environment) : Reading ProviderSettings :=
  Reading.withIssues
    (Reading.ap (Reading.ap (.ok ProviderSettings.mk)
      (setting given env "domain" Reading.text "github.com"))
      (setting given env "organization" (Reading.optional Reading.text) none))
    ((unknownNames given).map fun n ↦ ⟨[.name n], .extra⟩)

/-- The entries of a mapping by name, if all its keys are words and none is the receiver's name. -/
def named (entries : List (Value × Value)) : Except KeywordFault (List (String × Value)) :=
  match entries.mapM fun (k, v) ↦ k.text?.map fun name ↦ (name, v) with
  | none => .error .notText
  | some given =>
    if entries.any fun (k, _) ↦ k.text? == some receiver then .error .receiver else .ok given

end ProviderSettings
end RepoManifest
