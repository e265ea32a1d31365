import RepoManifest.Config.Problem
import RepoManifest.Resource.Finding
import RepoManifest.Settings.EnvFile

/-!
# Loading a configuration

A manifest document becomes a configuration: its sections are read, each entry is filled and
checked, and every problem is reported at once. Provider settings that the document leaves open come
from the environment, then from the environment file beside the document.
-/

namespace RepoManifest

/-- What loading gives: a configuration or a failure, and the records logged on the way. -/
structure LoadOutcome where
  result : Except LoadFailure Config
  log : List LogRecord

namespace Manifest

/-- What is found where the environment file would be: no file, the bytes of one, or a fault that
leaves open whether there is one. -/
abbrev EnvSource := Option (Except PathFault (List UInt8))

/-- The environment file beside a manifest. -/
def envSource (files : FileSource) (path : FilePath) : EnvSource :=
  let beside := path.parent.join ".env"
  match files beside with
  | .ok bytes => some (.ok bytes)
  | .error fault => if fault.isAbsence then none else some (.error ⟨beside.text, fault⟩)

/-- The variables of an environment file, and the records of its unreadable statements. -/
def envVariables (env : Environment) (source : EnvSource) :
    Except EnvFileFault (List (String × Option String) × List LogRecord) :=
  match source with
  | none => .ok ([], [])
  | some (.error fault) => .error (.unreachable fault)
  | some (.ok bytes) => do
    let text ← (Text.decodeUtf8Signed bytes).mapError .undecodable
    let records := (EnvFile.statements text).2.map EnvFile.faultRecord
    return (EnvFile.settings env text, records)

/-- The value of a provider setting: from the document unless it is null there, then from the
environment, then from the environment file. -/
def settingValue? (entries : List (Value × Value)) (env : Environment)
    (file : List (String × Option String)) (name : String) : Option Value :=
  let variableName := ProviderSettings.variableName name
  match Value.get? entries name with
  | some .null | none =>
    ((env.get? variableName).orElse fun _ ↦ EnvFile.get? file variableName).map .str
  | some v => some v

/-- The provider's entries with every setting resolved. Other keys pass through. -/
def resolvedProvider (entries : List (Value × Value)) (env : Environment)
    (file : List (String × Option String)) : List (Value × Value) :=
  let others := entries.filter fun (k, _) ↦
    !ProviderSettings.names.any fun name ↦ k.equal (.str name)
  others ++ ProviderSettings.names.filterMap fun name ↦
    (settingValue? entries env file name).map fun v ↦ (.str name, v)

/-- The sections of a document. No document is one without sections. -/
def sections? : Value → Option (List (Value × Value))
  | .null => some []
  | .map entries => some entries
  | _ => none

/-- The entries of the provider section. A section without content has none. -/
def providerEntries? (sections : List (Value × Value)) : Option (List (Value × Value)) :=
  match Value.get? sections "provider" with
  | none => some []
  | some (.map entries) => some entries
  | some v => if v.truthy then none else some []

/-- The keys of a document that name no section. -/
def unknownKeys (sections : List (Value × Value)) : List Value :=
  (sections.map (·.1)).filter fun k ↦ !Config.sections.any fun name ↦ k.equal (.str name)

/-- The items of the repositories section, and the problem of a section that is no list. -/
def repositoryItems (sections : List (Value × Value)) : List Value × List Problem :=
  match Value.get? sections "repositories" with
  | none | some .null => ([], [])
  | some (.list items) => (items, [])
  | some _ => ([], [.repositoriesNotList])

/-- Read numbered entries, the first one at position `i`; entries that can be read are filled. -/
def readEntries (i : Nat) : List Value → List (Nat × Reading RepositoryEntry)
  | [] => []
  | v :: rest => (i, (RepositoryEntry.read v).map (·.default)) :: readEntries (i + 1) rest

/-- The entries that could be read, with their positions. -/
def readable (entries : List (Nat × Reading RepositoryEntry)) : List (Nat × RepositoryEntry) :=
  entries.filterMap fun (i, r) ↦ r.toOption.map fun e ↦ (i, e)

/-- The problems of entries that could not be read. -/
def unreadable (entries : List (Nat × Reading RepositoryEntry)) : List Problem :=
  entries.flatMap fun (i, r) ↦ r.issues.map (.entry i)

/-- The names that occur again, by the positions of the entries. -/
def duplicates (entries : List (Nat × RepositoryEntry)) : List Problem :=
  (Duplicate.find (entries.map fun (i, e) ↦ ((i : Int), e.name))).map .duplicate

/-- The violations of filled entries. -/
def violations (entries : List (Nat × RepositoryEntry)) : List Problem :=
  entries.flatMap fun (i, e) ↦ (e.toObject.findings (Problem.entryPath i)).map fun f ↦
    .violation ⟨.str f.path.join, f.value, f.error⟩

/-- The logger of the loader. -/
def logger : String := "git_providers.config.loader"

/-- The record of an entry that is filled. -/
def fillRecord (i : Nat) (e : RepositoryEntry) : LogRecord :=
  let name := if e.name.isEmpty then "unnamed" else e.name
  ⟨.debug, logger, "Defaulting repositories[" ++ toString i ++ "] (" ++ name ++ ")"⟩

/-- The record of a configuration that was loaded. -/
def loadedRecord (path : String) (count : Nat) : LogRecord :=
  ⟨.info, logger, "Loaded config from " ++ path ++ " (" ++ toString count ++ " repositories)"⟩

/-- The entries of the repositories section, each one read and filled. -/
def entries (sections : List (Value × Value)) : List (Nat × Reading RepositoryEntry) :=
  readEntries 0 (repositoryItems sections).1

/-- Everything that is wrong with a document under provider settings that are already read. -/
def problems (sections : List (Value × Value)) (provider : Reading ProviderSettings) :
    List Problem :=
  (unknownKeys sections).map .unknownSection ++ provider.issues.map .provider ++
    (repositoryItems sections).2 ++ unreadable (entries sections) ++
    duplicates (readable (entries sections)) ++ violations (readable (entries sections))

/-- Read the repositories of a document under provider settings that are already read, and report
every problem. -/
def assemble (path : String) (sections : List (Value × Value))
    (provider : Reading ProviderSettings) : LoadOutcome :=
  let filled := readable (entries sections)
  let records := filled.map fun (i, e) ↦ fillRecord i e
  match problems sections provider, provider with
  | [], .ok p => ⟨.ok ⟨p, filled.map (·.2)⟩, records ++ [loadedRecord path filled.length]⟩
  | found, _ => ⟨.error (.config (.problems found)), records⟩

/-- A configuration from a document. `path` is where the document was read, for messages. -/
def load (path : String) (document : Value) (env : Environment) (file : EnvSource) : LoadOutcome :=
  match sections? document with
  | none => ⟨.error (.config (.notMapping path)), []⟩
  | some sections =>
    match providerEntries? sections with
    | none => ⟨.error (.config (.providerNotMapping path)), []⟩
    | some given =>
      if !(unknownKeys sections).all Value.hasDisplay then ⟨.error .unwritableKey, []⟩
      else match envVariables env file with
      | .error fault => ⟨.error (.environmentFile fault), []⟩
      | .ok (fileSettings, warnings) =>
        match ProviderSettings.named (resolvedProvider given env fileSettings) with
        | .error fault => ⟨.error (.providerKeys fault), warnings⟩
        | .ok named =>
          let outcome := assemble path sections (ProviderSettings.ofNamed named env)
          ⟨outcome.result, warnings ++ outcome.log⟩

/-- Every problem has its line. -/
theorem errors_problems (found : List Problem) :
    (ConfigFailure.problems found).errors = found.map (·.line) := rfl

end Manifest
end RepoManifest
