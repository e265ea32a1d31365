import RepoManifest.Reading.Mapping
import RepoManifest.Text.Cut

/-!
# References

A reference names an organization, or a repository in one, on a host. Its path is the organization,
the sub-organizations and the repository name between slashes. The domain may start with a scheme;
a bare host is reached over https.
-/

namespace RepoManifest

/-- An organization on a host, perhaps nested in others. -/
structure OrganizationRef where
  domain : String
  organization : String
  subOrganizations : List String := []
  deriving DecidableEq, Repr, Inhabited

/-- A repository of an organization. -/
structure RepositoryRef extends OrganizationRef where
  name : String
  deriving DecidableEq, Repr, Inhabited

/-- The scheme and the host of a domain. Slashes at the end of the host are dropped. -/
def splitDomain (domain : String) : String × String :=
  let trimmed (host : List Char) : String := String.ofList (Text.dropEndWhile (· == '/') host)
  match Text.cutAt? "://".toList domain.toList with
  | some (scheme, host) => (String.ofList scheme, trimmed host)
  | none => ("https", trimmed domain.toList)

namespace OrganizationRef

/-- The organization and its sub-organizations between slashes. -/
def path (r : OrganizationRef) : String := "/".intercalate (r.organization :: r.subOrganizations)

/-- The address of an organization. -/
def url (r : OrganizationRef) : String :=
  let (scheme, host) := splitDomain r.domain
  scheme ++ "://" ++ host ++ "/" ++ r.path

end OrganizationRef

namespace RepositoryRef

/-- The path of the organization and the repository's name. -/
def path (r : RepositoryRef) : String := r.toOrganizationRef.path ++ "/" ++ r.name

/-- The address of a repository. -/
def url (r : RepositoryRef) : String :=
  let (scheme, host) := splitDomain r.domain
  scheme ++ "://" ++ host ++ "/" ++ r.path

/-- The address from which a repository is cloned. -/
def cloneUrl (r : RepositoryRef) (transport : Transport) : String :=
  let (scheme, host) := splitDomain r.domain
  match transport with
  | .https => scheme ++ "://" ++ host ++ "/" ++ r.path ++ ".git"
  | .git => "git@" ++ host ++ ":" ++ r.path ++ ".git"
  | .ssh => "ssh://git@" ++ host ++ "/" ++ r.path

/-- A clone address over https is the address with an ending. -/
theorem cloneUrl_https (r : RepositoryRef) : r.cloneUrl .https = r.url ++ ".git" := rfl

end RepositoryRef

/-- The transport of a word or member. -/
def Value.transport? (v : Value) : Option Transport := v.text?.bind Transport.ofText?

/-- The wording for a value that is no transport. -/
def Value.transportMessage (v : Value) : String :=
  v.literal ++ " is not a valid " ++ transports.name

open Reading

/-- Read the organization from the entries of a mapping. -/
def OrganizationRef.ofEntries (given : List (Value × Value)) : Reading OrganizationRef :=
  ap (ap (ap (.ok OrganizationRef.mk)
    (requiredField given "domain" nonEmptyText))
    (requiredField given "organization" nonEmptyText))
    (field given "sub_organizations" (tuple text) [])

/-- Read an organization. Other keys of the mapping are ignored. -/
def OrganizationRef.read (v : Value) : Reading OrganizationRef :=
  match v with
  | .map given => ofEntries given
  | _ => fault (.notObject "OrganizationRef")

/-- Read a repository. Other keys of the mapping are ignored. -/
def RepositoryRef.read (v : Value) : Reading RepositoryRef :=
  match v with
  | .map given =>
    ap (ap (.ok RepositoryRef.mk) (OrganizationRef.ofEntries given))
      (requiredField given "repository_name" nonEmptyText)
  | _ => fault (.notObject "RepositoryRef")

/-- The reference with the given parts. Domain, organization and name must not be empty; the name
may be a value of any kind and has to be a text. -/
def RepositoryRef.make (domain organization : String) (subOrganizations : List String)
    (name : Value) : Reading RepositoryRef :=
  ap (ap (.ok RepositoryRef.mk)
    (ap (ap (ap (.ok OrganizationRef.mk)
      (under (.name "domain") (nonEmptyText (.str domain))))
      (under (.name "organization") (nonEmptyText (.str organization))))
      (.ok subOrganizations)))
    (under (.name "repository_name") (nonEmptyText name))

/-- The issue of an assignment: references do not change. -/
def frozenIssue (field : String) : Issue := ⟨[.name field], .frozen⟩

/-- Parts that are not empty make a reference. -/
theorem RepositoryRef.make_of_ne {domain organization name : String} (subs : List String)
    (hd : domain ≠ "") (ho : organization ≠ "") (hn : name ≠ "") :
    make domain organization subs (.str name) = .ok ⟨⟨domain, organization, subs⟩, name⟩ := by
  simp [make, nonEmptyText, ap, under, hd, ho, hn]

end RepoManifest
