import RepoManifest.Reference.Basic
import RepoManifest.Resource.Reading
import RepoManifest.Settings.Provider

/-!
# Configurations

A configuration is the provider settings and the repositories declared under them. Each repository
has a reference under the provider's organization.
-/

namespace RepoManifest

/-- Provider settings and repositories. -/
structure Config where
  provider : ProviderSettings
  repositories : List RepositoryEntry := []
  deriving DecidableEq, Repr, Inhabited

/-- Why a repository has no reference. -/
inductive RefFault where
  | noOrganization
  | emptyOrganization (organization : String)
  | parts (issues : List Issue)
  deriving DecidableEq, Repr

namespace RefFault

/-- The wording of a fault. -/
def message (wording : Wording) : RefFault → String
  | noOrganization => "provider.organization is required to reference repositories"
  | emptyOrganization organization =>
    "invalid provider.organization " ++ Text.quote organization
  | parts issues => wording.parts issues

end RefFault

namespace ProviderSettings

/-- The reference of a repository under the provider's organization. The name may be a value of any
kind and has to be a text. -/
def ref (p : ProviderSettings) (name : Value) : Except RefFault RepositoryRef :=
  let organization := p.organization.getD ""
  if organization.isEmpty then .error .noOrganization
  else match (Text.nonEmptyParts '/' organization.toList).map String.ofList with
    | [] => .error (.emptyOrganization organization)
    | first :: subs => (RepositoryRef.make p.domain first subs name).mapError .parts

end ProviderSettings

namespace Config

/-- The references of all repositories, in order. -/
def refs (c : Config) : Except RefFault (List RepositoryRef) :=
  c.repositories.mapM fun e ↦ c.provider.ref (.str e.name)

/-- The names of the sections of a configuration. -/
def sections : List String := ["provider", "repositories"]

/-- Read a configuration from a provider that is already read and the entries of a mapping. -/
def read (provider : Reading ProviderSettings) (given : List (Value × Value)) : Reading Config :=
  Reading.withIssues
    (Reading.ap (Reading.ap (.ok Config.mk) (Reading.under (.name "provider") provider))
      (Reading.field given "repositories" (Reading.listOrUnset RepositoryEntry.read) []))
    (Reading.keyIssues sections given)

/-- Read provider settings that are given as a value. Keys that are no keywords are a misuse. -/
def readProvider (v : Value) (env : Environment) : Except Misuse (Reading ProviderSettings) :=
  match v with
  | .map entries =>
    match ProviderSettings.named entries with
    | .ok given => .ok (ProviderSettings.ofNamed given env)
    | .error _ => .error .wrongKind
  | _ => .ok (Reading.fault (.notObject "ProviderSettings"))

end Config
end RepoManifest
