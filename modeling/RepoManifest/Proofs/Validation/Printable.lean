import RepoManifest.Proofs.Value.Literal
import RepoManifest.Validation.FieldError
import RepoManifest.Validation.FieldPath

/-!
# What paths and violations show

A written path shows the names on it as they are, and positions as numbers. A violation is written
with its path and its error, and shows the value that was found in source form. So what is said
about a violation is printable if the names on its path and the words that its error lists are.
-/

namespace RepoManifest

open Text

/-! ## Paths -/

namespace FieldPath

/-- Whether the names on a path are printable. -/
def PrintableNames (path : FieldPath) : Prop := ∀ name, .name name ∈ path → Printable name

/-- No name stands on the empty path. -/
theorem printableNames_nil : PrintableNames [] := fun _ h ↦ absurd h List.not_mem_nil

/-- A path with one more name has printable names if that name is printable. -/
theorem PrintableNames.name {path : FieldPath} {name : String} (h : path.PrintableNames)
    (hname : Printable name) : PrintableNames (path ++ [.name name]) := by
  intro other hother
  rcases List.mem_append.mp hother with hother | hother
  · exact h other hother
  · cases List.mem_singleton.mp hother
    exact hname

/-- A position is no name. -/
theorem PrintableNames.index {path : FieldPath} (h : path.PrintableNames) (n : Int) :
    PrintableNames (path ++ [.index n]) := by
  intro other hother
  rcases List.mem_append.mp hother with hother | hother
  · exact h other hother
  · cases List.mem_singleton.mp hother

/-- A character that is not printable stands in a written step exactly if it stands in front or in
the name. -/
theorem mem_step_iff {c : Char} (hc : isPrintable c = false) {written : String} {s : Segment} :
    c ∈ (step written s).toList ↔
      c ∈ written.toList ∨ ∃ name, s = .name name ∧ c ∈ name.toList := by
  cases s with
  | index n =>
    have hindex : Printable ("[" ++ toString n ++ "]") :=
      printable_append.mpr ⟨printable_append.mpr ⟨by decide, printable_toString_int n⟩, by decide⟩
    rw [step, String.toList_append, List.mem_append, or_iff_left (hindex.not_mem hc)]
    simp
  | name name =>
    have hdot : Printable "." := by decide
    rw [step]
    split
    · next hempty =>
      obtain rfl : written = "" := by simpa using hempty
      simp
    · simp only [String.toList_append, List.mem_append, hdot.not_mem hc, false_or,
        Segment.name.injEq, exists_eq_left']

/-- A path shows a character in one of the names on it. -/
def Shows (path : FieldPath) (c : Char) : Prop := ∃ name, .name name ∈ path ∧ c ∈ name.toList

/-- A path behind another one shows what both show. -/
theorem shows_append_iff {path rest : FieldPath} {c : Char} :
    Shows (path ++ rest) c ↔ path.Shows c ∨ rest.Shows c := by
  simp only [Shows, List.mem_append, or_and_right, exists_or]

/-- A path with printable names shows no other characters. -/
theorem PrintableNames.not_shows {path : FieldPath} (h : path.PrintableNames) {c : Char}
    (hc : isPrintable c = false) : ¬ path.Shows c := by
  rintro ⟨name, hname, hchar⟩
  exact (h name hname).not_mem hc hchar

/-- A character that is not printable stands in a written path exactly if the path shows it. -/
theorem mem_join_iff {c : Char} (hc : isPrintable c = false) {path : FieldPath} :
    c ∈ (join path).toList ↔ path.Shows c := by
  induction path using List.reverseRecOn with
  | nil => simp [Shows]
  | append_singleton path s ih =>
    rw [join_concat, mem_step_iff hc, ih, shows_append_iff]
    simp only [Shows, List.mem_singleton, eq_comm]

/-- A path with printable names is written in printable characters. -/
theorem PrintableNames.join {path : FieldPath} (h : path.PrintableNames) : Printable path.join := by
  intro c hmem
  by_contra hc
  have hfalse : isPrintable c = false := by simpa using hc
  exact h.not_shows hfalse ((mem_join_iff hfalse).mp hmem)

end FieldPath

/-! ## Violations -/

/-- An error that lists printable words is worded in printable characters. -/
theorem FieldError.printable_notAllowed {allowed : List String}
    (h : ∀ word ∈ allowed, Printable word) : Printable (notAllowed allowed).message := by
  cases allowed with
  | nil => decide
  | cons word rest =>
    simp only [message, printable_append]
    exact ⟨⟨⟨by decide, by decide⟩, printable_intercalate (by decide) h⟩, by decide⟩

/-- What is said about a violation is printable if the path, the value and the error are. -/
theorem Violation.printable_line {path : FieldPath} {value : Value} {error : FieldError}
    (hpath : path.PrintableNames) (hvalue : value.PrintableNames)
    (herror : Printable error.message) :
    Printable (line ⟨.str path.join, value, error⟩) := by
  have hline : Printable (path.join ++ ": " ++ error.message) := by
    simp only [printable_append]
    exact ⟨⟨hpath.join, by decide⟩, herror⟩
  simp only [line, Value.display_str]
  split
  · exact hline
  · rw [printable_append, printable_append, printable_append]
    exact ⟨⟨⟨hline, by decide⟩, Value.printable_literal hvalue⟩, by decide⟩

end RepoManifest
