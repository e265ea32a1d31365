import Mathlib.Data.List.Induction
import RepoManifest.Log.Session

/-!
# Loggers over whole runs

However often output is asked for, the library's logger has one handler from the first time on, and
the level that was asked for last. So every record is written once, or not at all: with its level
and logger if it reaches that level, and before there is a handler bare, if it is a warning or
worse.
-/

namespace RepoManifest

namespace LogStep

/-- The levels that output was asked for with, in order. -/
def levels (steps : List LogStep) : List LogLevel := steps.filterMap level?

/-- One more step adds its level, if it asks for output. -/
theorem levels_concat (steps : List LogStep) (last : LogStep) :
    levels (steps ++ [last]) = levels steps ++ last.level?.toList := by
  rw [levels, List.filterMap_append, ← levels]
  cases hlevel : last.level? <;> simp [hlevel]

/-- Levels were asked for exactly if some step asked for one. -/
theorem levels_ne_nil_iff {steps : List LogStep} :
    levels steps ≠ [] ↔ ∃ step ∈ steps, ∃ level, step.level? = some level := by
  rw [ne_eq, levels, List.filterMap_eq_nil_iff]
  simp [Option.ne_none_iff_exists']

end LogStep

namespace LogSetup

variable {levels : List LogLevel} {s : LogSetup}

/-! ## Setups -/

/-- A setup after output was asked for with some levels: there is one handler if there is any level,
and the last level counts. Zero is none of the levels. -/
structure SetUpBy (levels : List LogLevel) (s : LogSetup) : Prop where
  handlers_eq : s.handlers = if levels = [] then [] else [handlerName]
  levelNumber_eq : s.levelNumber = (levels.getLast?.map LogLevel.number).getD 0
  number_ne_zero : ∀ l ∈ levels, l.number ≠ 0

/-- An untouched logger was set up by no level. -/
theorem setUpBy_nil : SetUpBy [] {} where
  handlers_eq := rfl
  levelNumber_eq := rfl
  number_ne_zero _ h := absurd h List.not_mem_nil

/-- Asking for output once more takes the old handler away, so there is again one. -/
theorem SetUpBy.apply (h : SetUpBy levels s) {c : LevelChoice} {l : LogLevel}
    (hlevel : c.level = some l) (hl : l.number ≠ 0) : SetUpBy (levels ++ [l]) (s.apply c) := by
  have hold : s.handlers.filter (· != handlerName) = [] := by
    rw [h.handlers_eq]
    split <;> rfl
  have happly : s.apply c = ⟨l.number, [handlerName]⟩ := by
    simp only [LogSetup.apply, hlevel, hold, List.nil_append]
  rw [happly]
  constructor
  · simp
  · rw [List.getLast?_concat]
    rfl
  · intro k hk
    rcases List.mem_append.mp hk with hk | hk
    · exact h.number_ne_zero k hk
    · rw [List.mem_singleton.mp hk]
      exact hl

/-- The handler is there exactly if output was asked for. -/
theorem SetUpBy.mem_handlers_iff (h : SetUpBy levels s) :
    handlerName ∈ s.handlers ↔ levels ≠ [] := by
  rw [h.handlers_eq]
  split <;> simp_all

/-- The handler is there at most once. -/
theorem SetUpBy.count_handlers (h : SetUpBy levels s) :
    s.handlers.count handlerName = if levels = [] then 0 else 1 := by
  rw [h.handlers_eq]
  split
  · rfl
  · exact List.count_singleton_self

/-- The lines of a record by the levels that were asked for: from the last one on a line of its own,
and without any the bare text of warnings and worse. -/
def linesBy (levels : List LogLevel) (r : LogRecord) : List String :=
  match levels.getLast? with
  | some l => if l.number ≤ r.level.number then [r.line] else []
  | none => bare r

/-- A record below the level of warnings is not written bare. -/
theorem bare_of_lt {r : LogRecord} (h : r.level.number < LogLevel.warning.number) : bare r = [] :=
  if_neg (Nat.not_le.mpr h)

/-- What is written for a record of the library depends on the last level alone. -/
theorem SetUpBy.lines_eq (h : SetUpBy levels s) {r : LogRecord} (hown : r.isOwn = true) :
    s.lines r = linesBy levels r := by
  rw [lines, hown, Bool.not_true, if_neg Bool.false_ne_true, threshold, h.levelNumber_eq,
    h.handlers_eq, linesBy]
  cases hlast : levels.getLast? with
  | none =>
    rw [List.getLast?_eq_none_iff] at hlast
    simp only [hlast, Option.map_none, Option.getD_none, if_true, List.isEmpty_nil]
    split
    · next hlow => exact (bare_of_lt hlow).symm
    · rfl
  | some l =>
    have hmem : l ∈ levels := List.mem_of_getLast? hlast
    have hne : levels ≠ [] := List.ne_nil_of_mem hmem
    simp only [Option.map_some, Option.getD_some, if_neg (h.number_ne_zero l hmem), if_neg hne,
      List.isEmpty_cons, Bool.false_eq_true, if_false, List.map_singleton]
    split
    · next hlow => rw [if_neg (Nat.not_le.mpr hlow)]
    · next hlow => rw [if_pos (Nat.not_lt.mp hlow)]

end LogSetup

namespace LogSession

open LogSetup

variable {terminal : Bool} {earlier : List LogStep} {s : LogSession}

/-! ## Steps -/

/-- A step leaves the logger set up by the levels asked for so far. -/
theorem setUpBy_step (h : SetUpBy (LogStep.levels earlier) s.setup) (next : LogStep) :
    SetUpBy (LogStep.levels (earlier ++ [next])) (s.step terminal next).setup := by
  rw [LogStep.levels_concat]
  cases next with
  | record r =>
    change SetUpBy (LogStep.levels earlier ++ []) s.setup
    rw [List.append_nil]
    exact h
  | configure verbose env =>
    change SetUpBy (_ ++ (LevelChoice.make verbose (levelName? env)).level.toList) (s.setup.apply _)
    cases hlevel : (LevelChoice.make verbose (levelName? env)).level with
    | none =>
      rw [apply_of_level_eq_none _ hlevel, Option.toList_none, List.append_nil]
      exact h
    | some l => exact h.apply hlevel (LevelChoice.number_ne_zero_of_make hlevel)

/-- What a step writes after earlier steps. -/
def report (terminal : Bool) (earlier : List LogStep) : LogStep → String
  | .configure verbose env =>
    Terminal.echo terminal (LevelChoice.make verbose (levelName? env)).warningText
  | .record r =>
    let lines := if r.isOwn then linesBy (LogStep.levels earlier) r else bare r
    String.join (lines.map (· ++ "\n"))

/-- A step writes its report behind what was written before. -/
theorem written_step (h : SetUpBy (LogStep.levels earlier) s.setup) (next : LogStep) :
    (s.step terminal next).written = s.written ++ report terminal earlier next := by
  cases next with
  | configure verbose env => rfl
  | record r =>
    have hlines : s.setup.lines r =
        if r.isOwn then linesBy (LogStep.levels earlier) r else bare r := by
      cases hown : r.isOwn with
      | true => exact h.lines_eq hown
      | false => rw [lines, hown, Bool.not_false, if_pos rfl, if_neg Bool.false_ne_true]
    simp only [LogSession.step, write, report, List.flatMap_singleton, hlines]

/-! ## Runs -/

/-- A run leaves the logger set up by the levels that were asked for. -/
theorem setUpBy_run (terminal : Bool) (steps : List LogStep) :
    SetUpBy (LogStep.levels steps) (run terminal steps).setup := by
  induction steps using List.reverseRecOn with
  | nil => exact setUpBy_nil
  | append_singleton steps last ih =>
    rw [run_concat]
    exact setUpBy_step ih last

/-- The reports of steps that follow earlier ones. -/
def reports (terminal : Bool) (earlier : List LogStep) : List LogStep → List String
  | [] => []
  | step :: rest => report terminal earlier step :: reports terminal (earlier ++ [step]) rest

/-- One more step is reported last. -/
theorem reports_concat (terminal : Bool) (earlier steps : List LogStep) (last : LogStep) :
    reports terminal earlier (steps ++ [last]) =
      reports terminal earlier steps ++ [report terminal (earlier ++ steps) last] := by
  induction steps generalizing earlier with
  | nil => rw [List.append_nil]; rfl
  | cons step rest ih =>
    rw [List.cons_append, reports, ih, reports, List.append_assoc]
    rfl

/-- A run writes the reports of its steps and nothing else. -/
theorem written_run (terminal : Bool) (steps : List LogStep) :
    (run terminal steps).written = String.join (reports terminal [] steps) := by
  induction steps using List.reverseRecOn with
  | nil => rfl
  | append_singleton steps last ih =>
    rw [run_concat, written_step (setUpBy_run terminal steps), ih, reports_concat,
      String.join_append, List.nil_append]
    simp

/-- What a run amounts to. The library's logger has the handler at most once, and has it exactly if
output was asked for; its level is the one asked for last. Asking for nothing changes nothing. A
record of the library is written once with its level and logger, or not at all, as the level says
while there is a handler; before that it is written bare if it is a warning or worse. What was
written is the report of every step, in order. -/
structure Accounts (terminal : Bool) (steps : List LogStep) (s : LogSession) : Prop where
  count_handlers_le : s.setup.handlers.count handlerName ≤ 1
  count_handlers_eq_one_iff : s.setup.handlers.count handlerName = 1 ↔
    ∃ step ∈ steps, ∃ level, step.level? = some level
  levelNumber_eq : s.setup.levelNumber =
    ((LogStep.levels steps).getLast?.map LogLevel.number).getD 0
  setup_step_eq : ∀ next : LogStep, next.level? = none → (s.step terminal next).setup = s.setup
  written_record : ∀ r : LogRecord, r.isOwn = true →
    (s.step terminal (.record r)).written = s.written ++
      if handlerName ∈ s.setup.handlers then
        if s.setup.levelNumber ≤ r.level.number then r.line ++ "\n" else ""
      else if LogLevel.warning.number ≤ r.level.number then r.text ++ "\n" else ""
  written_eq : s.written = String.join (reports terminal [] steps)

/-- Every run amounts to this. -/
theorem accounts_run (terminal : Bool) (steps : List LogStep) :
    Accounts terminal steps (run terminal steps) := by
  have h := setUpBy_run terminal steps
  constructor
  · rw [h.count_handlers]
    split <;> omega
  · rw [h.count_handlers, ← LogStep.levels_ne_nil_iff]
    split <;> simp_all
  · exact h.levelNumber_eq
  · intro next hnone
    cases next with
    | record r => rfl
    | configure verbose env => exact apply_of_level_eq_none _ hnone
  · intro r hown
    rw [written_step h, report, if_pos hown, linesBy]
    cases hlast : (LogStep.levels steps).getLast? with
    | none =>
      have hnone : LogStep.levels steps = [] := List.getLast?_eq_none_iff.mp hlast
      rw [if_neg fun hmem ↦ h.mem_handlers_iff.mp hmem hnone]
      dsimp only [bare]
      split <;> simp
    | some l =>
      have hne : LogStep.levels steps ≠ [] := List.ne_nil_of_mem (List.mem_of_getLast? hlast)
      have hlevel : (run terminal steps).setup.levelNumber = l.number := by
        rw [h.levelNumber_eq, hlast]
        rfl
      rw [if_pos (h.mem_handlers_iff.mpr hne), hlevel]
      dsimp only
      split <;> simp
  · exact written_run terminal steps

/-- Output that is asked for twice is written once, at the level asked for last. -/
example :
    (run true
      [.configure 1 [], .configure 2 [], .record ⟨.debug, "git_providers.x", "done"⟩]).written =
        "DEBUG git_providers.x: done\n" := by
  decide +kernel

end LogSession
end RepoManifest
