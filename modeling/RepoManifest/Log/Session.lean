import RepoManifest.Log.Setup
import RepoManifest.Terminal.Report

/-!
# A logger in use

The library's logger is set up any number of times, in between records are sent to it and to the
loggers below it. A session is the setup together with everything that was written so far.
-/

namespace RepoManifest

/-- What happens to the library's logger. -/
inductive LogStep where
  /-- The command line asks for output, by its flags and its environment. -/
  | configure (verbose : Int) (env : Environment)
  /-- A record is sent to a logger. -/
  | record (r : LogRecord)
  deriving DecidableEq, Repr

/-- The library's logger in use: its setup, and what was written to the error output so far. -/
structure LogSession where
  setup : LogSetup := {}
  written : String := ""
  deriving DecidableEq, Repr, Inhabited

namespace LogStep

/-- What the command line asks for in a step. -/
def choice? : LogStep → Option LevelChoice
  | configure verbose env => some (.make verbose (LogSetup.levelName? env))
  | record _ => none

/-- The level that a step asks for, if it asks for output. -/
def level? (step : LogStep) : Option LogLevel := step.choice?.bind (·.level)

end LogStep

namespace LogSession

/-- One step. `terminal` says whether the error output is a terminal, for the warning. -/
def step (terminal : Bool) (s : LogSession) : LogStep → LogSession
  | .configure verbose env =>
    let choice := LevelChoice.make verbose (LogSetup.levelName? env)
    ⟨s.setup.apply choice, s.written ++ Terminal.echo terminal choice.warningText⟩
  | .record r => { s with written := s.written ++ s.setup.write [r] }

/-- Steps from an untouched logger on, one after the other. -/
def run (terminal : Bool) (steps : List LogStep) : LogSession :=
  steps.foldl (step terminal) {}

/-- A run that goes on for one more step. -/
theorem run_concat (terminal : Bool) (steps : List LogStep) (last : LogStep) :
    run terminal (steps ++ [last]) = (run terminal steps).step terminal last := by
  rw [run, List.foldl_append]
  rfl

end LogSession
end RepoManifest
