import RepoManifest.Config.Basic
import RepoManifest.Files.Tree
import RepoManifest.Validation.FieldError

/-!
# Problems of a manifest

What can be wrong with a manifest, each problem in one line; and the failure of loading one, which
either stopped before the sections were looked at or lists every problem found.
-/

namespace RepoManifest

/-- A name that occurred before, with the positions of the first and of this occurrence. -/
structure Duplicate where
  name : String
  first : Int
  again : Int
  deriving DecidableEq, Repr

namespace Duplicate

/-- One line. -/
def line (d : Duplicate) : String :=
  "Duplicate repository name '" ++ d.name ++ "': found in both repositories[" ++
    toString d.first ++ "] and repositories[" ++ toString d.again ++ "]"

/-- Whether the line can be written: no position has too many digits. -/
def isWritable (d : Duplicate) : Bool :=
  (Value.int d.first).hasLiteral && (Value.int d.again).hasLiteral

/-- The line, if it can be written. -/
def message (d : Duplicate) : Except Misuse String :=
  if d.isWritable then .ok d.line else .error .tooManyDigits

/-- The later occurrences of names among numbered names. `seen` holds the first position of each
name that occurred before. Empty names do not count. -/
def findFrom (seen : List (String × Int)) : List (Int × String) → List Duplicate
  | [] => []
  | (i, name) :: rest =>
    if name.isEmpty then findFrom seen rest
    else match seen.lookup name with
      | some first => ⟨name, first, i⟩ :: findFrom seen rest
      | none => findFrom ((name, i) :: seen) rest

/-- The later occurrences of names, in order. -/
def find (names : List (Int × String)) : List Duplicate := findFrom [] names

/-- The messages of the later occurrences, in order; there are none if one cannot be written. -/
def messages (names : List (Int × String)) : Except Misuse (List String) :=
  (find names).mapM message

end Duplicate

/-- One thing that is wrong with a manifest. -/
inductive Problem where
  | unknownSection (key : Value)
  | provider (issue : Issue)
  | repositoriesNotList
  | entry (position : Nat) (issue : Issue)
  | duplicate (found : Duplicate)
  | violation (found : Violation)
  deriving Repr

namespace Problem

/-- The path of an entry. -/
def entryPath (position : Nat) : FieldPath := [.name "repositories", .index position]

/-- One line. -/
def line : Problem → String
  | unknownSection key => key.display ++ ": " ++ ReadFault.extra.message
  | provider issue => issue.line [.name "provider"]
  | repositoriesNotList => (⟨[.name "repositories"], .notList⟩ : Issue).line
  | entry position issue => issue.line (entryPath position)
  | duplicate found => found.line
  | violation found => found.line

end Problem

/-- Why the text of a manifest could not be read: the file is at fault, or its content, about which
there is a wording. -/
inductive SourceFault where
  | file (fault : FileFault)
  | content (wording : String)
  deriving DecidableEq, Repr

/-- The wording of a fault at a path. -/
def SourceFault.message (path : String) : SourceFault → String
  | file fault => fault.message path
  | content wording => wording

/-- Why a manifest makes no configuration. -/
inductive ConfigFailure where
  | unreadable (path : String) (fault : SourceFault)
  | notMapping (path : String)
  | providerNotMapping (path : String)
  | problems (found : List Problem)
  deriving Repr

namespace ConfigFailure

/-- The wording of a failure; problems stand on lines of their own. -/
def message : ConfigFailure → String
  | unreadable path fault => "Failed to read " ++ path ++ ": " ++ fault.message path
  | notMapping path => path ++ ": top level must be a mapping"
  | providerNotMapping path => path ++ ": 'provider' must be a mapping"
  | problems found => "\n".intercalate (found.map (·.line))

/-- The lines of all problems; a failure of another kind is one line. -/
def errors : ConfigFailure → List String
  | problems found => found.map (·.line)
  | other => [other.message]

end ConfigFailure

/-- Why the environment file gives no variables: what is at its path cannot be reached or read, or
it is not in UTF-8. -/
inductive EnvFileFault where
  | unreachable (fault : PathFault)
  | undecodable (error : Text.Utf8Error)
  deriving Repr

/-- The wording of a fault. -/
def EnvFileFault.message : EnvFileFault → String
  | unreachable fault => fault.message
  | undecodable error => error.message

/-- Why loading failed: the manifest is at fault, or it was not looked at because a key of it cannot
be written, the environment file is at fault or the provider has keys that are no keywords. -/
inductive LoadFailure where
  | config (failure : ConfigFailure)
  | unwritableKey
  | environmentFile (fault : EnvFileFault)
  | providerKeys (fault : KeywordFault)
  deriving Repr

/-- The wording of a failure. -/
def LoadFailure.message : LoadFailure → String
  | config failure => failure.message
  | unwritableKey => Value.digitLimitMessage
  | environmentFile fault => fault.message
  | providerKeys fault => fault.message

end RepoManifest
