import RepoManifest.Log.Record
import RepoManifest.Settings.Environment

/-!
# Log setup

Until the command line asks for output, the library's logger has no handler, and warnings and worse
are written bare. Once it does, a handler writes the records from a chosen level on, each with its
level and logger. Asking again puts a new handler in the place of the old one; asking for nothing
changes nothing.
-/

namespace RepoManifest

/-- The setup of the library's logger: the number of its level, which is zero while it has none of
its own, and the names of its handlers. Each handler writes a line for every record it gets. -/
structure LogSetup where
  levelNumber : Nat := 0
  handlers : List String := []
  deriving DecidableEq, Repr, Inhabited

/-- The name of the handler that the command line sets up. -/
def handlerName : String := "git-providers-cli"

/-- A name in upper case. Besides the letters of ASCII only the dotless i has a capital letter that
occurs in a level's name. -/
def levelCase (name : String) : String :=
  name.map fun c ↦ if c = 'ı' then 'I' else c.toUpper

/-- What the command line asks for: a level, if any, and whether the level's name was not known. -/
structure LevelChoice where
  level : Option LogLevel
  unknownName : Option String := none
  deriving DecidableEq, Repr

namespace LevelChoice

/-- The choice by the number of verbosity flags. -/
def ofVerbosity (verbose : Int) : Option LogLevel :=
  if 2 ≤ verbose then some .debug else if verbose = 1 then some .info else none

/-- The choice by the verbosity flags and a level's name. A name that is not empty decides; an
unknown one stands for the information level. -/
def make (verbose : Int) (name : Option String) : LevelChoice :=
  match name with
  | none => ⟨ofVerbosity verbose, none⟩
  | some name =>
    if name.isEmpty then ⟨ofVerbosity verbose, none⟩
    else match LogLevel.ofName? (levelCase name) with
      | some level => ⟨some level, none⟩
      | none => ⟨some .info, some name⟩

/-- The warning about an unknown name. -/
def warning (c : LevelChoice) : Option String :=
  c.unknownName.map fun name ↦
    "WARNING: invalid GITPROVIDER_LOG level '" ++ name ++ "', expected one of " ++
      ", ".intercalate (LogLevel.all.map LogLevel.name) ++ "; defaulting to INFO"

/-- The text of that warning, which is a line of its own. -/
def warningText (c : LevelChoice) : String := String.join (c.warning.toList.map (· ++ "\n"))

/-- A chosen level is not the number zero, which stands for no level. -/
theorem number_ne_zero_of_make {verbose : Int} {name : Option String} {l : LogLevel}
    (h : (make verbose name).level = some l) : l.number ≠ 0 := by
  have hflags : ofVerbosity verbose = some l → l.number ≠ 0 := by
    intro h
    unfold ofVerbosity at h
    split at h
    · obtain rfl := Option.some.inj h
      decide
    · split at h
      · obtain rfl := Option.some.inj h
        decide
      · cases h
  unfold make at h
  split at h
  · exact hflags h
  · split at h
    · exact hflags h
    · split at h
      · next hname =>
        obtain rfl := Option.some.inj h
        exact LogLevel.number_ne_zero_of_ofName? hname
      · obtain rfl := Option.some.inj h
        decide

end LevelChoice

namespace LogSetup

/-- The level's name that an environment gives. -/
def levelName? (env : Environment) : Option String := env.setting? "GITPROVIDER_LOG"

/-- The setup after a choice: every handler of an earlier choice is taken away, and a new one is
added at the end. -/
def apply (s : LogSetup) (c : LevelChoice) : LogSetup :=
  match c.level with
  | some level => ⟨level.number, s.handlers.filter (· != handlerName) ++ [handlerName]⟩
  | none => s

/-- The least number of the records that the library's loggers take. Without a level of their own
they take what any logger takes: warnings and worse. -/
def threshold (s : LogSetup) : Nat :=
  if s.levelNumber = 0 then LogLevel.warning.number else s.levelNumber

/-- What is written for a record that no handler gets: warnings and worse are written bare. -/
def bare (r : LogRecord) : List String :=
  if LogLevel.warning.number ≤ r.level.number then [r.text] else []

/-- The lines that are written for a record. Every handler writes one; loggers of others have no
handler. -/
def lines (s : LogSetup) (r : LogRecord) : List String :=
  if !r.isOwn then bare r
  else if r.level.number < s.threshold then []
  else if s.handlers.isEmpty then bare r
  else s.handlers.map fun _ ↦ r.line

/-- What is written for records. -/
def write (s : LogSetup) (records : List LogRecord) : String :=
  String.join ((records.flatMap s.lines).map (· ++ "\n"))

/-- Asking for nothing changes nothing. -/
theorem apply_of_level_eq_none (s : LogSetup) {c : LevelChoice} (h : c.level = none) :
    s.apply c = s := by
  rw [apply, h]

end LogSetup
end RepoManifest
