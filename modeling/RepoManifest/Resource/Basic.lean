import RepoManifest.Value.Basic

/-!
# Resources of a repository manifest

The structures that a manifest declares: repositories with their creation options, deploy keys and
team grants. Optional fields are unset until `default` fills them; a field that holds anything is
left alone. Texts of enumerated fields are kept as they were written, and checked later.
-/

namespace RepoManifest

/-- A grant of a permission level to a team. -/
structure TeamAccess where
  name : String := ""
  permission : Option String := none
  deriving DecidableEq, Repr, Inhabited

/-- A public key with access to one repository. -/
structure DeployKey where
  name : String := ""
  key : String := ""
  readOnly : Option Bool := none
  credentialType : String := "deploykey"
  deriving DecidableEq, Repr, Inhabited

/-- The settings of a repository. -/
structure Repository where
  name : String := ""
  description : Option String := none
  defaultBranch : Option String := none
  visibility : Option String := none
  deriving DecidableEq, Repr, Inhabited

/-- Options that apply only when a repository is created. -/
structure CreateOptions where
  autoInit : Option Bool := none
  licenseTemplate : Option String := none
  deriving DecidableEq, Repr, Inhabited

/-- A repository with its creation options, deploy keys and team grants. -/
structure RepositoryEntry extends Repository where
  options : CreateOptions := {}
  deployKeys : List DeployKey := []
  teams : List TeamAccess := []
  deriving DecidableEq, Repr, Inhabited

/-- The visibility of a repository that asks for none. -/
def defaultVisibility : String := "private"

/-- The branch of a repository that names none. -/
def defaultBranchName : String := "master"

/-- The permission of a team that asks for none: the least one. -/
def defaultPermission : String := Permission.pull.text

/-- An unset field gets a value; a set field keeps its own. -/
def fill {α : Type} (field : Option α) (value : α) : Option α := some (field.getD value)

/-- A team without a permission gets the least one. -/
def TeamAccess.default (t : TeamAccess) : TeamAccess :=
  { t with permission := fill t.permission defaultPermission }

/-- A key can only read unless it says otherwise. -/
def DeployKey.default (k : DeployKey) : DeployKey :=
  { k with readOnly := fill k.readOnly true }

/-- A repository is private and has the usual branch unless it says otherwise. -/
def Repository.default (r : Repository) : Repository :=
  { r with
    visibility := fill r.visibility defaultVisibility
    defaultBranch := fill r.defaultBranch defaultBranchName }

/-- An entry's own settings, its keys and its teams are filled. -/
def RepositoryEntry.default (e : RepositoryEntry) : RepositoryEntry :=
  { toRepository := e.toRepository.default
    options := e.options
    deployKeys := e.deployKeys.map DeployKey.default
    teams := e.teams.map TeamAccess.default }

/-- A team's permission is set once. -/
@[simp] theorem TeamAccess.default_default (t : TeamAccess) : t.default.default = t.default := rfl

/-- A key's access is set once. -/
@[simp] theorem DeployKey.default_default (k : DeployKey) : k.default.default = k.default := rfl

/-- A repository's settings are filled once. -/
@[simp] theorem Repository.default_default (r : Repository) : r.default.default = r.default := rfl

/-- An entry is filled once. -/
@[simp] theorem RepositoryEntry.default_default (e : RepositoryEntry) :
    e.default.default = e.default := by
  simp [RepositoryEntry.default]

/-- The type of team grants. -/
def TeamAccess.objectType : ObjectType :=
  ⟨"TeamAccess",
    [⟨"name", true, none⟩, ⟨"permission", false, some permissionRegistry⟩]⟩

/-- The type of deploy keys. -/
def DeployKey.objectType : ObjectType :=
  ⟨"DeployKey",
    [⟨"name", true, none⟩, ⟨"key", true, none⟩, ⟨"read_only", false, none⟩,
      ⟨"credential_type", false, some credentialTypeRegistry⟩]⟩

/-- The fields of a repository's settings. -/
def Repository.fieldDecls : List FieldDecl :=
  [⟨"name", true, none⟩, ⟨"description", false, none⟩, ⟨"default_branch", false, none⟩,
    ⟨"visibility", false, some visibilityRegistry⟩]

/-- The type of repositories. -/
def Repository.objectType : ObjectType := ⟨"Repository", Repository.fieldDecls⟩

/-- The type of creation options. -/
def CreateOptions.objectType : ObjectType :=
  ⟨"RepositoryCreateOptions",
    [⟨"auto_init", false, none⟩, ⟨"license_template", false, some licenseRegistry⟩]⟩

/-- The type of entries: the fields of a repository, then those of an entry. -/
def RepositoryEntry.objectType : ObjectType :=
  ⟨"RepositoryEntry",
    Repository.fieldDecls ++
      [⟨"options", false, none⟩, ⟨"deploy_keys", false, none⟩, ⟨"teams", false, none⟩]⟩

/-- A text that may be unset, as a value. -/
def Value.ofText? : Option String → Value
  | some s => .str s
  | none => .null

/-- A flag that may be unset, as a value. -/
def Value.ofFlag? : Option Bool → Value
  | some b => .bool b
  | none => .null

/-- A team grant as an object. -/
def TeamAccess.toObject (t : TeamAccess) (assigned : List String := []) : Value :=
  .object objectType assigned [.str t.name, .ofText? t.permission]

/-- A deploy key as an object. -/
def DeployKey.toObject (k : DeployKey) (assigned : List String := []) : Value :=
  .object objectType assigned
    [.str k.name, .str k.key, .ofFlag? k.readOnly, .str k.credentialType]

/-- The values of a repository's settings. -/
def Repository.values (r : Repository) : List Value :=
  [.str r.name, .ofText? r.description, .ofText? r.defaultBranch, .ofText? r.visibility]

/-- A repository as an object. -/
def Repository.toObject (r : Repository) (assigned : List String := []) : Value :=
  .object objectType assigned r.values

/-- Creation options as an object. -/
def CreateOptions.toObject (o : CreateOptions) (assigned : List String := []) : Value :=
  .object objectType assigned [.ofFlag? o.autoInit, .ofText? o.licenseTemplate]

/-- An entry as an object. -/
def RepositoryEntry.toObject (e : RepositoryEntry) (assigned : List String := []) : Value :=
  .object objectType assigned
    (e.toRepository.values ++
      [e.options.toObject, .list (e.deployKeys.map (·.toObject)),
        .list (e.teams.map (·.toObject))])

end RepoManifest
