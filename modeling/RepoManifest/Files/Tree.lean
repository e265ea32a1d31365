import RepoManifest.Files.Path
import RepoManifest.Text.Quoted

/-!
# File trees

The files below a working directory, by the steps that lead to them. Looking up a path follows its
steps from the working directory; outside of it nothing can be read.
-/

namespace RepoManifest

/-- Why a file cannot be read: a number of the system and what it says. -/
structure FileFault where
  number : Nat
  wording : String
  deriving DecidableEq, Repr

namespace FileFault

/-- Nothing is there. -/
def missing : FileFault := ⟨2, "No such file or directory"⟩

/-- A step leads on from a file. -/
def notDirectory : FileFault := ⟨20, "Not a directory"⟩

/-- What is there is a directory. -/
def isDirectory : FileFault := ⟨21, "Is a directory"⟩

/-- A path or one of its names is too long. -/
def nameTooLong : FileFault := ⟨36, "File name too long"⟩

/-- The numbers of the faults at a path that leads to no file: nothing or a directory is there, the
path leads on from a file, runs in circles, or is not open. -/
def absenceNumbers : List Nat := [2, 9, 20, 21, 40]

/-- Whether a fault means that there is no file. Others leave open whether there is one. -/
def isAbsence (f : FileFault) : Bool := f.number ∈ absenceNumbers

/-- The wording of a fault at a path. -/
def message (f : FileFault) (path : String) : String :=
  "[Errno " ++ toString f.number ++ "] " ++ f.wording ++ ": " ++ Text.quote path

end FileFault

/-- A fault and the path where it was found. -/
structure PathFault where
  path : String
  fault : FileFault
  deriving DecidableEq, Repr

/-- The wording of a fault where it was found. -/
def PathFault.message (f : PathFault) : String := f.fault.message f.path

/-- The files that can be read, by their paths. -/
abbrev FileSource := FilePath → Except FileFault (List UInt8)

/-- The files below the working directory: the steps to each, and its bytes. -/
structure FileTree where
  files : List (List String × List UInt8)
  deriving Inhabited

namespace FileTree

/-- A tree of files named by their paths. -/
def ofPaths (files : List (String × List UInt8)) : FileTree :=
  ⟨files.map fun (name, bytes) ↦ ((FilePath.ofText name).steps, bytes)⟩

/-- Where a walk stands: at a directory, at a file, or outside the tree. -/
inductive Place where
  | directory (steps : List String)
  | file (bytes : List UInt8)
  | outside
  deriving DecidableEq, Repr

/-- What is found at the end of steps from the working directory. -/
def find? (t : FileTree) (steps : List String) : Option Place :=
  match t.files.lookup steps with
  | some bytes => some (.file bytes)
  | none => if t.files.any fun (s, _) ↦ steps.isPrefixOf s then some (.directory steps) else none

/-- The most bytes in the name of a step. -/
def longestName : Nat := 255

/-- The most bytes in the text of a path. -/
def longestPath : Nat := 4095

/-- One step of a walk. -/
def step (t : FileTree) (place : Place) (name : String) : Except FileFault Place :=
  match place with
  | .file _ => .error .notDirectory
  | .outside => if name = ".." then .ok .outside else .error .missing
  | .directory steps =>
    if name = ".." then
      .ok (if steps.isEmpty then .outside else .directory steps.dropLast)
    else if longestName < name.utf8ByteSize then .error .nameTooLong
    else match t.find? (steps ++ [name]) with
      | some place => .ok place
      | none => .error .missing

/-- Follow a path. -/
def follow (t : FileTree) (path : FilePath) : Except FileFault Place :=
  path.steps.foldlM t.step (if path.root = "" then .directory [] else .outside)

/-- The bytes of the file at a path. -/
def read (t : FileTree) (path : FilePath) : Except FileFault (List UInt8) :=
  if longestPath < path.text.utf8ByteSize then .error .nameTooLong
  else match t.follow path with
    | .ok (.file bytes) => .ok bytes
    | .ok _ => .error .isDirectory
    | .error fault => .error fault

end FileTree
end RepoManifest
