/-!
# Log records

A record has a level, the dotted name of the logger it was sent to, and a text. Levels are numbers;
five of them have a name.
-/

namespace RepoManifest

/-- The level of a log record: the higher its number, the more severe. -/
structure LogLevel where
  number : Nat
  deriving DecidableEq, Repr, Inhabited

namespace LogLevel

/-- Details for those who look for a fault. -/
def debug : LogLevel := ⟨10⟩

/-- What was done. -/
def info : LogLevel := ⟨20⟩

/-- Something to look at. -/
def warning : LogLevel := ⟨30⟩

/-- Something that failed. -/
def error : LogLevel := ⟨40⟩

/-- A failure of everything. -/
def critical : LogLevel := ⟨50⟩

/-- The levels with a name, from least to most severe. -/
def all : List LogLevel := [debug, info, warning, error, critical]

/-- The names of levels by their numbers. -/
def names : List (Nat × String) :=
  [(10, "DEBUG"), (20, "INFO"), (30, "WARNING"), (40, "ERROR"), (50, "CRITICAL")]

/-- The name of a level. One without a name is called by its number. -/
def name (l : LogLevel) : String := (names.lookup l.number).getD ("Level " ++ toString l.number)

/-- The level of a name. -/
def ofName? (name : String) : Option LogLevel := all.find? (·.name == name)

/-- A level that is found by a name has one, so its number is not zero. -/
theorem number_ne_zero_of_ofName? {name : String} {l : LogLevel} (h : ofName? name = some l) :
    l.number ≠ 0 := by
  have hpositive : ∀ l ∈ all, l.number ≠ 0 := by decide
  exact hpositive l (List.mem_of_find?_eq_some h)

end LogLevel

/-- One message to a logger. -/
structure LogRecord where
  level : LogLevel
  logger : String
  text : String
  deriving DecidableEq, Repr, Inhabited

/-- The line of a record: level, logger and text. -/
def LogRecord.line (r : LogRecord) : String := r.level.name ++ " " ++ r.logger ++ ": " ++ r.text

/-- The logger of the library. All its other loggers are below it. -/
def rootLogger : String := "git_providers"

/-- Whether a logger is the library's logger or below it. Of points that follow one another, counted
from the last, only every second one separates two names. -/
def LogRecord.isOwn (r : LogRecord) : Bool :=
  let below := r.logger.toList.drop rootLogger.length
  rootLogger.isPrefixOf r.logger &&
    (below.isEmpty || (below.takeWhile (· == '.')).length % 2 == 1)

end RepoManifest
