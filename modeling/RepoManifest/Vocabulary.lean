/-!
# Closed vocabularies

The enumerated words of a manifest: kinds of credential, visibilities, permissions, licences and
transports. A `Registry` is the list of words that a field may hold, in declared order.
-/

namespace RepoManifest

/-- The distinct elements of a list under `same`, each at its first occurrence. -/
def distinctBy {α : Type} (same : α → α → Bool) : List α → List α
  | [] => []
  | a :: rest => a :: (distinctBy same rest).filter (fun b ↦ !same a b)

/-- The legal words of one enumerated type, in declared order. -/
structure Registry where
  name : String
  values : List String
  deriving DecidableEq, Repr, Inhabited

/-- An enumerated type with the names and values of its members. A member whose value occurred
before is another name for the earlier member. -/
structure EnumType (α : Type) where
  name : String
  members : List (String × α)
  deriving Repr

namespace EnumType

/-- The registry of an enumerated type of words. -/
def registry (type : EnumType String) : Registry :=
  { name := type.name, values := distinctBy (· == ·) (type.members.map (·.2)) }

/-- The member of a given name. -/
def find? {α : Type} (type : EnumType α) (name : String) : Option α :=
  type.members.lookup name

end EnumType

/-- Kinds of repository credential. -/
def credentialTypes : EnumType String :=
  ⟨"RepositoryCredentialType", [("DEPLOY_KEY", "deploykey")]⟩

/-- Who can see a repository. -/
def visibilities : EnumType String :=
  ⟨"RepoVisibility", [("PUBLIC", "public"), ("INTERNAL", "internal"), ("PRIVATE", "private")]⟩

/-- Levels of access, from least to most privileged. -/
inductive Permission where
  | pull | triage | push | maintain | admin
  deriving DecidableEq, Repr, Inhabited

namespace Permission

/-- Every permission, in the order of privilege. -/
def all : List Permission := [pull, triage, push, maintain, admin]

/-- The word of a permission. -/
def text : Permission → String
  | pull => "pull"
  | triage => "triage"
  | push => "push"
  | maintain => "maintain"
  | admin => "admin"

/-- The declared name of a permission. -/
def memberName : Permission → String
  | pull => "PULL"
  | triage => "TRIAGE"
  | push => "PUSH"
  | maintain => "MAINTAIN"
  | admin => "ADMIN"

/-- The permission of a word. -/
def ofText? (word : String) : Option Permission := all.find? (·.text == word)

/-- Position in the order of privilege, from zero. -/
def rank : Permission → Nat
  | pull => 0
  | triage => 1
  | push => 2
  | maintain => 3
  | admin => 4

/-- Whether a permission grants at least what another grants. -/
def includes (p q : Permission) : Bool := q.rank ≤ p.rank

end Permission

/-- The enumerated type of permissions. -/
def permissions : EnumType String :=
  ⟨"RepositoryPermission", Permission.all.map fun p ↦ (p.memberName, p.text)⟩

/-- Licence templates for new repositories. -/
def licenses : EnumType String :=
  ⟨"LicenseTemplate", [("APACHE_2", "apache-2.0"), ("MIT", "mit"), ("GPL_3", "gpl-3.0")]⟩

/-- Transports of a clone URL. -/
inductive Transport where
  | https | git | ssh
  deriving DecidableEq, Repr, Inhabited

namespace Transport

/-- Every transport, in declared order. -/
def all : List Transport := [https, git, ssh]

/-- The word of a transport. -/
def text : Transport → String
  | https => "https"
  | git => "git"
  | ssh => "ssh"

/-- The declared name of a transport. -/
def memberName : Transport → String
  | https => "HTTPS"
  | git => "GIT"
  | ssh => "SSH"

/-- The transport of a word. -/
def ofText? (word : String) : Option Transport := all.find? (·.text == word)

end Transport

/-- The enumerated type of transports. -/
def transports : EnumType String :=
  ⟨"TransportType", Transport.all.map fun t ↦ (t.memberName, t.text)⟩

/-- The registry of credential kinds. -/
def credentialTypeRegistry : Registry := credentialTypes.registry

/-- The registry of visibilities. -/
def visibilityRegistry : Registry := visibilities.registry

/-- The registry of permissions. -/
def permissionRegistry : Registry := permissions.registry

/-- The registry of licence templates. -/
def licenseRegistry : Registry := licenses.registry

/-- The registries that fields are checked against, in the order in which they are listed. -/
def registries : List Registry :=
  [credentialTypeRegistry, visibilityRegistry, permissionRegistry, licenseRegistry]

end RepoManifest
