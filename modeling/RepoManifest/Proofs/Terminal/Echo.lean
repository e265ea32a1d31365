import RepoManifest.Proofs.Terminal.Style
import RepoManifest.Terminal.Report

/-!
# Lines on an output

No escape sequence goes on past the end of a line: a line break is neither a parameter nor a letter.
So taking the sequences out of several lines at once is taking them out of each.
-/

namespace RepoManifest.Terminal

/-! ## Escape sequences end within their line -/

/-- What follows an escape sequence that was opened in a line is the rest of that line, and what
stands behind it. -/
theorem afterSequence?_append_newline (line behind : List Char) :
    (afterSequence? (line ++ '\n' :: behind)).map (·.1) =
      (afterSequence? line).map (·.1 ++ '\n' :: behind) := by
  induction line with
  | nil => rfl
  | cons c rest ih =>
    rw [List.cons_append, afterSequence?, afterSequence?]
    split
    · rw [Option.map_map, Option.map_map]
      exact ih
    · split <;> rfl

/-- Sequences are taken out of a line and of the lines behind it by themselves. -/
theorem stripChars_append_newline (line behind : List Char) :
    stripChars (line ++ '\n' :: behind) = stripChars line ++ '\n' :: stripChars behind := by
  fun_induction stripChars line with
  | case1 => simp [stripChars]
  | case2 rest after h hafter _ ih =>
    rw [List.cons_append, List.cons_append, stripChars_opened, afterSequence?_append_newline,
      hafter]
    exact ih
  | case3 rest hafter ih =>
    rw [List.cons_append, List.cons_append, stripChars_opened, afterSequence?_append_newline,
      hafter]
    simp only [Option.map_none, ih, List.cons_append]
  | case4 c rest hc ih =>
    rw [List.cons_append, stripChars, ih, List.cons_append]
    -- The pieces that open a sequence stand in one line: a line break is no bracket.
    intro tail hescape hbracket
    cases rest with
    | nil => exact absurd (List.cons.inj hbracket).1 (by decide)
    | cons d rest =>
      obtain rfl : d = '[' := (List.cons.inj hbracket).1
      exact hc rest hescape rfl

/-- Sequences are taken out of a line of text and of the text behind it by themselves. -/
theorem stripStyles_line_append (line behind : String) :
    stripStyles (line ++ "\n" ++ behind) = stripStyles line ++ "\n" ++ stripStyles behind := by
  have hchars : (line ++ "\n" ++ behind).toList = line.toList ++ '\n' :: behind.toList := by
    simp only [String.toList_append, List.append_assoc]
    rfl
  refine String.toList_injective ?_
  simp only [stripStyles, hchars, stripChars_append_newline, String.toList_append,
    String.toList_ofList, List.append_assoc]
  rfl

/-- Nothing is left of nothing. -/
theorem stripStyles_empty : stripStyles "" = "" := by simp [stripStyles, stripChars]

/-- Sequences are taken out of a line in front of its end. -/
theorem stripStyles_line (line : String) :
    stripStyles (line ++ "\n") = stripStyles line ++ "\n" := by
  simpa only [stripStyles_empty, String.append_empty] using stripStyles_line_append line ""

/-! ## Output line by line -/

/-- Texts on an output, each given to it by itself, with a line end. -/
def echoLines (terminal : Bool) (texts : List String) : String :=
  String.join (texts.map fun text ↦ echo terminal (text ++ "\n"))

/-- A line and what follows it are written as they are by themselves. -/
theorem echo_line_append (terminal : Bool) (line behind : String) :
    echo terminal (line ++ "\n" ++ behind) =
      echo terminal (line ++ "\n") ++ echo terminal behind := by
  cases terminal with
  | true => rfl
  | false =>
    simp only [echo, Bool.false_eq_true, if_false, stripStyles_line, stripStyles_line_append]

/-- Lines that are written at once are written as they are one by one. -/
theorem echo_join_lines (terminal : Bool) (texts : List String) :
    echo terminal (String.join (texts.map (· ++ "\n"))) = echoLines terminal texts := by
  induction texts with
  | nil => cases terminal with
    | true => rfl
    | false => exact stripStyles_empty
  | cons text rest ih =>
    rw [List.map_cons, String.join_cons, echo_line_append, ih, echoLines, echoLines, List.map_cons,
      String.join_cons]

end RepoManifest.Terminal
