import RepoManifest.Reading.Mapping
import RepoManifest.Resource.Basic

/-!
# Reading resources

Each resource is read from a mapping whose keys are its fields; unknown keys are issues. A resource
that is already an object of its type is read field by field, so reading a written resource gives it
back.
-/

namespace RepoManifest

open Reading

/-- The names of a type's fields. -/
def ObjectType.names (type : ObjectType) : List String := type.fields.map (·.name)

/-- Read a team grant. -/
def TeamAccess.read (v : Value) : Reading TeamAccess :=
  match entries [objectType] v with
  | .error issues => .error issues
  | .ok given =>
    withIssues
      (ap (ap (.ok TeamAccess.mk)
        (field given "name" text ""))
        (field given "permission" (optional word) none))
      (keyIssues objectType.names given)

/-- Read a deploy key. Its kind of credential may be left out, but not left unset. -/
def DeployKey.read (v : Value) : Reading DeployKey :=
  match entries [objectType] v with
  | .error issues => .error issues
  | .ok given =>
    withIssues
      (ap (ap (ap (ap (.ok DeployKey.mk)
        (field given "name" text ""))
        (field given "key" text ""))
        (field given "read_only" (optional flag) none))
        (field given "credential_type" word "deploykey"))
      (keyIssues objectType.names given)

/-- Read the settings of a repository from the entries of a mapping. -/
def Repository.ofEntries (given : List (Value × Value)) : Reading Repository :=
  ap (ap (ap (ap (.ok Repository.mk)
    (field given "name" text ""))
    (field given "description" (optional text) none))
    (field given "default_branch" (optional text) none))
    (field given "visibility" (optional word) none)

/-- Read a repository. An entry is a repository with more fields. -/
def Repository.read (v : Value) : Reading Repository :=
  match entries [objectType] v with
  | .error issues => .error issues
  | .ok given => withIssues (ofEntries given) (keyIssues objectType.names given)

/-- Read creation options. -/
def CreateOptions.read (v : Value) : Reading CreateOptions :=
  match entries [objectType] v with
  | .error issues => .error issues
  | .ok given =>
    withIssues
      (ap (ap (.ok CreateOptions.mk)
        (field given "auto_init" (optional flag) none))
        (field given "license_template" (optional word) none))
      (keyIssues objectType.names given)

/-- Read an entry. Lists of keys and teams may be left unset, options may not. -/
def RepositoryEntry.read (v : Value) : Reading RepositoryEntry :=
  match entries [objectType] v with
  | .error issues => .error issues
  | .ok given =>
    withIssues
      (ap (ap (ap (ap (.ok RepositoryEntry.mk)
        (Repository.ofEntries given))
        (field given "options" CreateOptions.read {}))
        (field given "deploy_keys" (listOrUnset DeployKey.read) []))
        (field given "teams" (listOrUnset TeamAccess.read) []))
      (keyIssues objectType.names given)

end RepoManifest
