import RepoManifest.Config.Load
import RepoManifest.Yaml.Document

/-!
# Manifest files

A configuration from the file that a path leads to. A file that cannot be read and a file whose
content is no document are one failure with two causes.
-/

namespace RepoManifest

namespace Manifest

/-- The document in a file. A path with a null character leads nowhere. -/
def readDocument (wording : Wording) (files : FileSource) (path : FilePath) :
    Except SourceFault Value :=
  if path.text.toList.contains '\x00' then .error (.content "embedded null byte")
  else match files path with
    | .error fault => .error (.file fault)
    | .ok bytes =>
      match Yaml.parse? bytes with
      | some document => .ok document
      | none => .error (.content (wording.content path.text bytes))

/-- The configuration in a file. -/
def loadFile (wording : Wording) (files : FileSource) (path : FilePath) (env : Environment) :
    LoadOutcome :=
  match readDocument wording files path with
  | .ok document => load path.text document env (envSource files path)
  | .error fault => ⟨.error (.config (.unreadable path.text fault)), []⟩

/-- A file that cannot be read is named in the failure, whatever else there is. -/
theorem loadFile_of_readDocument_error {wording : Wording} {files : FileSource} {path : FilePath}
    {fault : SourceFault} (h : readDocument wording files path = .error fault)
    (env : Environment) :
    (loadFile wording files path env).result = .error (.config (.unreadable path.text fault)) := by
  rw [loadFile, h]

end Manifest
end RepoManifest
