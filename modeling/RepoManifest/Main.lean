import RepoManifest.CommandLine.Run

/-!
# The program

The outer layer: arguments, environment and files come in, two outputs and an exit code go out.
-/

open RepoManifest

/-- The fault that an error of the system stands for. Of the errors at a path, those that the system
numbers are told apart by their numbers. -/
def faultOf : IO.Error → FileFault
  | .noFileOrDirectory _ number wording | .noSuchThing (some _) number wording
  | .inappropriateType _ number wording | .invalidArgument _ number wording
  | .permissionDenied _ number wording | .resourceExhausted _ number wording =>
    ⟨number.toNat, wording⟩
  | .otherError number wording => ⟨number.toNat, wording⟩
  | _ => .missing

/-- The bytes of a file. -/
def readBytes (path : FilePath) : IO (Except FileFault (List UInt8)) := do
  try
    return .ok (← IO.FS.readBinFile path.text).toList
  catch e => return .error (faultOf e)

/-- The variables of the environment. -/
def readEnvironment : IO Environment := do
  let bytes ← IO.FS.readBinFile "/proc/self/environ"
  let text := (String.fromUTF8? bytes).getD ""
  return (text.splitOn "\x00").filterMap fun entry ↦
    match entry.splitOn "=" with
    | name :: value@(_ :: _) => some (name, "=".intercalate value)
    | _ => none

/-- The manifest that a request is about. -/
def manifestOf : Request → Option FilePath
  | .run ⟨_, _, .validate path⟩ | .run ⟨_, _, .cloneUrls path _⟩ => some path
  | _ => none

/-- Short texts for what is worded elsewhere. -/
def shortWording : Wording where
  content _ _ := "no document"
  parts issues := "\n".intercalate (issues.map fun issue ↦ issue.line)

/-- Run the program. -/
def main (arguments : List String) : IO UInt32 := do
  let request := Request.ofArguments arguments
  let mut known : List (FilePath × Except FileFault (List UInt8)) := []
  if let some path := manifestOf request then
    for p in [path, path.parent.join ".env"] do
      known := (p, ← readBytes p) :: known
  let files : FileSource := fun p ↦ (known.lookup p).getD (.error .missing)
  let env ← readEnvironment
  let terminal ← (← IO.getStdout).isTty
  let result := request.serve ⟨files, env, terminal, shortWording⟩
  IO.print result.stdout
  IO.eprint result.stderr
  return UInt32.ofNat result.exit
