import RepoManifest.Reference.Basic
import RepoManifest.Url.Split

/-!
# Reading references from addresses

The address of a repository is a web address whose path has at least two segments: the organization
first, the repository's name last, sub-organizations between. One `.git` at the end of the name is
no part of it. Empty segments do not count.
-/

namespace RepoManifest

/-- Why an address is not that of a repository. -/
inductive AddressFault where
  | url (fault : UrlFault)
  | notWeb (address : String)
  | tooShort (address : String)
  | parts (issues : List Issue)
  deriving DecidableEq, Repr

/-- The ending of a clone address. -/
def cloneEnding : List Char := ".git".toList

/-- The domain of a web address: its authority, with the scheme unless that is https. -/
def Url.domain (u : Url) : String :=
  if u.scheme = "https" then u.authority else "http://" ++ u.authority

/-- The organization, the sub-organizations and the name in the segments of a path. -/
def nameSegments? : List (List Char) → Option (List Char × List (List Char) × List Char)
  | organization :: next :: rest =>
    let others := next :: rest
    some (organization, others.dropLast, others.getLast?.getD [])
  | _ => none

/-- Read a repository reference from an address. -/
def RepositoryRef.parse (address : String) : Except AddressFault RepositoryRef :=
  match Url.split address with
  | .error fault => .error (.url fault)
  | .ok u =>
    if (u.scheme ≠ "http" ∧ u.scheme ≠ "https") ∨ u.authority = "" then .error (.notWeb address)
    else match nameSegments? u.segments with
      | none => .error (.tooShort address)
      | some (organization, subs, name) =>
        (RepositoryRef.make u.domain (String.ofList organization) (subs.map String.ofList)
          (.str (String.ofList (Text.dropEnding cloneEnding name)))).mapError .parts

/-- The wording of a fault. -/
def AddressFault.message (wording : Wording) : AddressFault → String
  | url fault => fault.message
  | notWeb address => "Not an http(s) repository URL: " ++ Text.quote address
  | tooShort address =>
    "Repository URL needs an organization and a name: " ++ Text.quote address
  | parts issues => wording.parts issues

end RepoManifest
