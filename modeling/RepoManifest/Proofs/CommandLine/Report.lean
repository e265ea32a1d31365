import RepoManifest.CommandLine.Run
import RepoManifest.Proofs.Terminal.Echo
import RepoManifest.Proofs.Text.Printable

/-!
# Reports on the error output

A failed command writes the lines of its report, each with a style of its own. Without colour the
style is empty, but an empty style still ends in a reset sequence: an output that is no terminal has
it taken off again, a terminal gets it behind every line. Styles add no line breaks, so there are
more lines than the report has only if what it shows holds line breaks itself.
-/

namespace RepoManifest

namespace Report

open Terminal Text

/-- What a report shows of its failure: the problems or the message of a configuration, the name and
the violations of an object, or the message of another failure. -/
def shown : Report → List String
  | config message errors => if 1 < errors.length then errors else [message]
  | invalid object => object.name :: object.errors
  | other message => [message]

/-- The lines of a report, without a style. -/
def plain (r : Report) : String := String.join (r.lines.map (· ++ "\n"))

/-- What becomes of a command with a report: it ends with one, and the report is on its error
output. -/
def handled (r : Report) (terminal colour : Bool) : CommandResult :=
  ⟨1, "", echo terminal (r.render colour)⟩

/-- A command without its lines has its report handled, behind what was logged. -/
theorem exists_handled_of_lines {i : Invocation} {s : Surroundings} {failure : CommandFailure}
    (h : (i.lines s).2 = .error failure) :
    ∃ logged, let r := (failure.report s.wording).handled s.terminal (i.colour s.env)
      i.run s = ⟨r.exit, r.stdout, logged ++ r.stderr⟩ := by
  simp only [Invocation.run, h]
  exact ⟨_, rfl⟩

variable {r : Report}

/-! ## Lines -/

/-- A report has a line. -/
theorem lines_ne_nil (r : Report) : r.lines ≠ [] := by
  cases r with
  | config message errors =>
    rw [lines]
    split <;> exact List.cons_ne_nil _ _
  | invalid | other => exact List.cons_ne_nil _ _

/-- The lines of a report show what it shows of its failure. -/
theorem showWords_lines (r : Report) : ShowWords r.lines r.shown := by
  have hitem : Printable "  - " := by decide
  cases r with
  | config message errors =>
    have hheading : ∀ t ∈ ["Configuration error:"], Printable t := by
      rw [List.forall_mem_singleton]
      decide
    rw [lines, shown]
    split
    · exact (ShowWords.of_printable hheading).append (.map_append hitem errors)
    · exact .map_append (by decide) [message]
  | invalid object =>
    have hheading : ShowWords ["Validation failed for " ++ object.name ++ ":"] [object.name] := by
      intro c hc
      simp only [List.mem_singleton, exists_eq_left]
      exact mem_between_iff (by decide) (by decide) hc
    exact hheading.append (.map_append hitem object.errors)
  | other message => exact .map_append (by decide) [message]

/-! ## Colour -/

/-- Styles come off a report again if it shows no escape character. -/
theorem stripStyles_render (h : ∀ t ∈ r.shown, '\x1b' ∉ t.toList) (colour : Bool) :
    stripStyles (r.render colour) = r.plain := by
  have hlines := (r.showWords_lines.not_mem_iff (by decide)).mpr h
  -- No sequence runs over a line break, so they come off line by line.
  have hrender := echo_join_lines false (r.lines.map (style colour).apply)
  rw [List.map_map] at hrender
  refine hrender.trans ?_
  rw [echoLines, List.map_map, plain]
  refine congrArg String.join (List.map_congr_left fun line hline ↦ ?_)
  have hecho : echo false ((style colour).apply line ++ "\n") =
      stripStyles ((style colour).apply line ++ "\n") := rfl
  rw [Function.comp_apply, hecho, stripStyles_line, stripStyles_apply _ (hlines line hline)]

/-- Lines hold a character exactly if one of them holds it, or it is what ends them. -/
theorem mem_join_lines_iff {lines : List String} {ending : String} {c : Char} :
    c ∈ (String.join (lines.map (· ++ ending))).toList ↔
      ∃ line ∈ lines, c ∈ line.toList ∨ c ∈ ending.toList := by
  simp only [String.toList_join, List.mem_flatMap, List.mem_map, exists_exists_and_eq_and,
    String.toList_append, List.mem_append]

/-- The plain lines of a report hold the escape character only if what it shows does. -/
theorem escape_not_mem_plain (h : ∀ t ∈ r.shown, '\x1b' ∉ t.toList) : '\x1b' ∉ r.plain.toList := by
  have hlines := (r.showWords_lines.not_mem_iff (by decide)).mpr h
  rw [plain, mem_join_lines_iff]
  rintro ⟨line, hline, hmem | hend⟩
  · exact hlines line hline hmem
  · exact absurd hend (by decide)

/-- Without colour each line still ends in a reset sequence. -/
theorem render_false (r : Report) :
    r.render false = String.join (r.lines.map (· ++ (reset ++ "\n"))) := by
  rw [render]
  refine congrArg String.join (List.map_congr_left fun line _ ↦ ?_)
  have happly : (style false).apply line = "" ++ "" ++ line ++ reset := rfl
  rw [happly, String.empty_append, String.empty_append, String.append_assoc]

/-- Without colour a terminal gets the escape character. -/
theorem escape_mem_render_false (r : Report) : '\x1b' ∈ (r.render false).toList := by
  obtain ⟨line, hline⟩ := List.exists_mem_of_ne_nil r.lines r.lines_ne_nil
  rw [render_false, mem_join_lines_iff]
  exact ⟨line, hline, .inr (by decide)⟩

/-- If a report shows no escape character of its failure, a command with it ends with one and
writes, with or without colour, its plain lines to an output that is no terminal. They are what is
left on a terminal with colour without the sequences. Without colour a terminal gets a reset
sequence behind each of them: there, and only there, the escape character is written. -/
theorem handled_without_colour (h : ∀ t ∈ r.shown, '\x1b' ∉ t.toList) :
    (∀ terminal colour, (r.handled terminal colour).exit = 1) ∧
    '\x1b' ∉ r.plain.toList ∧
    stripStyles (r.handled true true).stderr = r.plain ∧
    (∀ colour, (r.handled false colour).stderr = r.plain) ∧
    (r.handled true false).stderr = String.join (r.lines.map (· ++ (reset ++ "\n"))) ∧
    (∀ terminal, (r.handled terminal false).stderr = r.plain ↔ terminal = false) ∧
    (∀ terminal, '\x1b' ∈ (r.handled terminal false).stderr.toList ↔ terminal = true) := by
  have hplain := escape_not_mem_plain h
  have hother (colour : Bool) : (r.handled false colour).stderr = r.plain :=
    stripStyles_render h colour
  have hterminal : '\x1b' ∈ (r.handled true false).stderr.toList := r.escape_mem_render_false
  refine ⟨fun _ _ ↦ rfl, hplain, stripStyles_render h true, hother, r.render_false,
    fun terminal ↦ ?_, fun terminal ↦ ?_⟩
  · cases terminal with
    | false => exact iff_of_true (hother false) rfl
    | true => exact iff_of_false (fun heq ↦ hplain (heq ▸ hterminal)) Bool.false_ne_true.symm
  · cases terminal with
    | false => exact iff_of_false (hother false ▸ hplain) Bool.false_ne_true
    | true => exact iff_of_true hterminal rfl

/-- The line of a failure without colour ends in a reset sequence on a terminal, and on no other
output. -/
theorem handled_without_colour_badThing :
    ((other "bad thing").handled true false).stderr = "Error: bad thing\x1b[0m\n" ∧
    ((other "bad thing").handled false false).stderr = "Error: bad thing\n" := by
  have hshown : ∀ t ∈ (other "bad thing").shown, '\x1b' ∉ t.toList := by
    simp only [shown, List.forall_mem_singleton]
    decide
  obtain ⟨-, -, -, hother, hterminal, -, -⟩ := handled_without_colour hshown
  exact ⟨hterminal.trans (by decide +kernel), (hother false).trans (by decide +kernel)⟩

/-! ## Line breaks -/

/-- A report has a line break at the end of each line, and those that its lines hold. -/
theorem count_newline_handled (r : Report) (terminal colour : Bool) :
    (r.handled terminal colour).stderr.toList.count '\n' =
      r.lines.length + (r.lines.flatMap String.toList).count '\n' := by
  have hecho (text : String) : (echo terminal text).toList.count '\n' = text.toList.count '\n' := by
    cases terminal with
    | true => rfl
    | false =>
      have hstripped : echo false text = stripStyles text := rfl
      rw [hstripped, stripStyles, String.toList_ofList, count_newline_stripChars]
  have hend : "\n".toList.count '\n' = 1 := by decide
  rw [handled, hecho, render]
  induction r.lines with
  | nil => rfl
  | cons line rest ih =>
    rw [List.map_cons, String.join_cons, String.toList_append, List.count_append, ih,
      String.toList_append, List.count_append, count_newline_apply, hend, List.flatMap_cons,
      List.count_append, List.length_cons]
    omega

/-- A report has as many line breaks as lines exactly if what it shows of its failure has none. -/
theorem count_newline_handled_eq_length_iff (r : Report) (terminal colour : Bool) :
    (r.handled terminal colour).stderr.toList.count '\n' = r.lines.length ↔
      ∀ t ∈ r.shown, '\n' ∉ t.toList := by
  have hshown := r.showWords_lines.not_mem_iff (c := '\n') (by decide)
  rw [count_newline_handled, Nat.add_eq_left, List.count_eq_zero, ← hshown, List.mem_flatMap]
  push Not
  rfl

end Report
end RepoManifest
