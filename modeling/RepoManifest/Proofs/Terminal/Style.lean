import RepoManifest.Terminal.Style

/-!
# Styles come off again

The sequences of a style are removed from styled text, and nothing else is: text without the escape
character comes back as it was before it was styled. No line break is ever removed.
-/

namespace RepoManifest.Terminal

/-! ## Text between sequences -/

/-- Text without the escape character is kept in front of whatever follows. -/
theorem stripChars_append_of_not_mem {text : List Char} (h : '\x1b' ∉ text) (rest : List Char) :
    stripChars (text ++ rest) = text ++ stripChars rest := by
  induction text with
  | nil => rfl
  | cons c text ih =>
    rw [List.mem_cons, not_or] at h
    rw [List.cons_append, stripChars, ih h.2, List.cons_append]
    exact fun _ hescape ↦ absurd hescape.symm h.1

/-- What follows a sequence that was opened before its code is what follows its letter. -/
theorem afterSequence?_code {code : List Char} (h : ∀ c ∈ code, isParameter c = true)
    (rest : List Char) : (afterSequence? (code ++ 'm' :: rest)).map (·.1) = some rest := by
  induction code with
  | nil => rfl
  | cons c code ih =>
    obtain ⟨hc, hcode⟩ := List.forall_mem_cons.mp h
    rw [List.cons_append, afterSequence?, if_pos hc, Option.map_map]
    exact ih hcode

/-- What is left of an opened sequence. -/
theorem stripChars_opened (rest : List Char) :
    stripChars ('\x1b' :: '[' :: rest) =
      match (afterSequence? rest).map (·.1) with
      | some after => stripChars after
      | none => '\x1b' :: '[' :: stripChars rest := by
  rw [stripChars]
  cases afterSequence? rest <;> rfl

/-- The sequence of a code is removed. -/
theorem stripChars_escape_append {code : String} (h : ∀ c ∈ code.toList, isParameter c = true)
    (rest : List Char) : stripChars ((escape code).toList ++ rest) = stripChars rest := by
  have hchars : (escape code).toList ++ rest = '\x1b' :: '[' :: (code.toList ++ 'm' :: rest) := by
    simp only [escape, String.toList_append, List.append_assoc]
    rfl
  rw [hchars, stripChars_opened, afterSequence?_code h]

/-! ## Styled text -/

/-- Styled text is the text between sequences. -/
theorem toList_apply (style : Style) (text : String) :
    (style.apply text).toList =
      (match style.colour with
        | some c => (escape c.code).toList
        | none => []) ++
      ((if style.bold then (escape "1").toList else []) ++ (text.toList ++ reset.toList)) := by
  rw [Style.apply, String.toList_append, String.toList_append, String.toList_append,
    List.append_assoc, List.append_assoc]
  congr 1
  · cases style.colour <;> rfl
  · congr 1
    cases style.bold <;> rfl

/-- Styled text without the escape character is left in front of whatever follows, and its style is
removed. -/
theorem stripChars_apply_append (style : Style) {text : String} (h : '\x1b' ∉ text.toList)
    (rest : List Char) :
    stripChars ((style.apply text).toList ++ rest) = text.toList ++ stripChars rest := by
  have hcode (c : Colour) : ∀ d ∈ c.code.toList, isParameter d = true := by
    cases c <;> exact List.all_eq_true.mp (by decide)
  have hbold : ∀ d ∈ "1".toList, isParameter d = true := List.all_eq_true.mp (by decide)
  have hreset : ∀ d ∈ "0".toList, isParameter d = true := List.all_eq_true.mp (by decide)
  have htext : stripChars (text.toList ++ (reset.toList ++ rest)) =
      text.toList ++ stripChars rest := by
    rw [stripChars_append_of_not_mem h, reset, stripChars_escape_append hreset]
  have hweight : stripChars ((if style.bold then (escape "1").toList else []) ++
      (text.toList ++ (reset.toList ++ rest))) = text.toList ++ stripChars rest := by
    split
    · rw [stripChars_escape_append hbold, htext]
    · exact htext
  rw [toList_apply]
  simp only [List.append_assoc]
  split
  · next c _ => rw [stripChars_escape_append (hcode c), hweight]
  · exact hweight

/-- Styled text without the escape character comes back as it was. -/
theorem stripStyles_apply (style : Style) {text : String} (h : '\x1b' ∉ text.toList) :
    stripStyles (style.apply text) = text := by
  have hchars := stripChars_apply_append style h []
  rw [List.append_nil] at hchars
  rw [stripStyles, hchars, stripChars, List.append_nil, String.ofList_toList]

/-! ## Line breaks -/

/-- A sequence holds no line break. -/
theorem count_newline_afterSequence? {text : List Char} {after : List Char}
    (h : (afterSequence? text).map (·.1) = some after) : after.count '\n' = text.count '\n' := by
  induction text with
  | nil => cases h
  | cons c rest ih =>
    rw [afterSequence?] at h
    split at h
    · next hc =>
      have hne : c ≠ '\n' := fun he ↦ absurd (he ▸ hc) (by decide)
      rw [Option.map_map] at h
      rw [List.count_cons_of_ne hne]
      exact ih h
    · split at h
      · next hc =>
        have hne : c ≠ '\n' := fun he ↦ absurd (he ▸ hc) (by decide)
        rw [List.count_cons_of_ne hne]
        exact congrArg (List.count '\n') (Option.some.inj h).symm
      · cases h

/-- Removing sequences removes no line break. -/
theorem count_newline_stripChars (text : List Char) :
    (stripChars text).count '\n' = text.count '\n' := by
  fun_induction stripChars text with
  | case1 => rfl
  | case2 rest after h hafter _ ih =>
    have hcount : after.count '\n' = rest.count '\n' :=
      count_newline_afterSequence? (by rw [hafter, Option.map_some])
    rw [ih, hcount]
    rfl
  | case3 rest _ ih => exact ih
  | case4 c rest _ ih => rw [List.count_cons, List.count_cons, ih]

/-- The sequence of a code without line breaks holds none. -/
theorem count_newline_escape {code : String} (h : '\n' ∉ code.toList) :
    (escape code).toList.count '\n' = 0 := by
  have hopening : '\n' ∉ "\x1b[".toList := by decide
  have hletter : '\n' ∉ "m".toList := by decide
  rw [List.count_eq_zero, escape, String.toList_append, String.toList_append, List.mem_append,
    List.mem_append, not_or, not_or]
  exact ⟨⟨hopening, h⟩, hletter⟩

/-- Styles add no line break. -/
theorem count_newline_apply (style : Style) (text : String) :
    (style.apply text).toList.count '\n' = text.toList.count '\n' := by
  have hcolour : List.count '\n' (match style.colour with
      | some c => (escape c.code).toList
      | none => []) = 0 := by
    split
    · next c _ => exact count_newline_escape (by cases c <;> decide)
    · rfl
  have hbold : List.count '\n' (if style.bold then (escape "1").toList else []) = 0 := by
    split
    · exact count_newline_escape (by decide)
    · rfl
  have hreset : List.count '\n' reset.toList = 0 := count_newline_escape (by decide)
  rw [toList_apply, List.count_append, List.count_append, List.count_append, hcolour, hbold, hreset,
    Nat.zero_add, Nat.zero_add, Nat.add_zero]

end RepoManifest.Terminal
