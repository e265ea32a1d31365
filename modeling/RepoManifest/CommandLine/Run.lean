import RepoManifest.CommandLine.Invocation
import RepoManifest.Config.Source
import RepoManifest.Log.Setup
import RepoManifest.Terminal.Listing
import RepoManifest.Terminal.Report

/-!
# Running a command

What an invocation writes to the two outputs, and the exit code it ends with. Logged records come
before the report of a failure; a command that fails writes nothing to its main output.
-/

namespace RepoManifest

/-- Where a command runs: the files, the environment, whether its outputs are terminals, and the
texts that are worded elsewhere. -/
structure Surroundings where
  files : FileSource
  env : Environment
  terminal : Bool
  wording : Wording

/-- Why a command failed. -/
inductive CommandFailure where
  | load (failure : LoadFailure)
  | refs (fault : RefFault)
  deriving Repr

/-- The report of a failure. -/
def CommandFailure.report (wording : Wording) : CommandFailure → Report
  | load (.config failure) => .config failure.message failure.errors
  | load other => .other other.message
  | refs fault => .other (fault.message wording)

/-- What a command wrote, and its exit code. -/
structure CommandResult where
  exit : Nat
  stdout : String
  stderr : String
  deriving DecidableEq, Repr

/-- The version of the program. -/
def programVersion : String := "0.1.0"

namespace Invocation

/-- Whether output has colours: unless it was asked to have none, on the command line or by the
environment. -/
def colour (i : Invocation) (env : Environment) : Bool :=
  !(i.noColour || ((env.get? "NO_COLOR").getD "") != "")

/-- The lines of a valid configuration. -/
def validated (c : Config) (colour : Bool) : List String :=
  c.repositories.flatMap (fun e ↦ [e.listing.render colour, ""]) ++
    [Terminal.summary (.int c.repositories.length) colour]

/-- The lines with the clone addresses of all repositories. -/
def cloneUrls (refs : List RepositoryRef) (transport : Transport) : List String :=
  refs.map fun r ↦ r.name ++ "\t" ++ r.cloneUrl transport

/-- What loading a manifest logs, and what a command makes of the configuration. -/
def withConfig (s : Surroundings) (path : FilePath)
    (use : Config → Except CommandFailure (List String)) :
    List LogRecord × Except CommandFailure (List String) :=
  let outcome := Manifest.loadFile s.wording s.files path s.env
  (outcome.log, (outcome.result.mapError .load).bind use)

/-- What a command logs, and its lines. -/
def lines (i : Invocation) (s : Surroundings) :
    List LogRecord × Except CommandFailure (List String) :=
  let colour := i.colour s.env
  match i.command with
  | .validate path => withConfig s path fun c ↦ .ok (validated c colour)
  | .enums => ([], .ok [Terminal.vocabulary colour])
  | .cloneUrls path transport =>
    withConfig s path fun c ↦ (c.refs.mapError .refs).map (cloneUrls · transport)

/-- Run a command. -/
def run (i : Invocation) (s : Surroundings) : CommandResult :=
  let choice := LevelChoice.make i.verbose (LogSetup.levelName? s.env)
  let (records, result) := i.lines s
  let logged :=
    Terminal.echo s.terminal choice.warningText ++ (LogSetup.apply {} choice).write records
  match result with
  | .ok lines =>
    ⟨0, Terminal.echo s.terminal (String.join (lines.map (· ++ "\n"))), logged⟩
  | .error failure =>
    let report := failure.report s.wording
    ⟨1, "", logged ++ Terminal.echo s.terminal (report.render (i.colour s.env))⟩

/-- A command that writes to its main output has succeeded. -/
theorem exit_run_of_stdout (i : Invocation) (s : Surroundings) (h : (i.run s).stdout ≠ "") :
    (i.run s).exit = 0 := by
  revert h
  simp only [run]
  split <;> simp

end Invocation

namespace Request

/-- How to call the program. -/
def usageText : String :=
  "Usage: git-providers [--version] [-v]... (validate | enums | clone-urls) [options]\n"

/-- Serve a request. -/
def serve (r : Request) (s : Surroundings) : CommandResult :=
  match r with
  | usage => ⟨2, "", usageText⟩
  | help => ⟨0, usageText, ""⟩
  | version => ⟨0, "git-providers " ++ programVersion ++ "\n", ""⟩
  | run invocation => invocation.run s

end Request
end RepoManifest
