import Mathlib.Data.List.DropRight
import RepoManifest.Text.Cut

/-!
# Cutting texts that were put together

Taking apart what was joined with a separator gives the parts back, if none of them holds it;
otherwise each separator that they hold makes one part more. A part holds characters of the text
only. A text is cut where a separator occurs for the first time, and what was added at its end is
removed again.
-/

namespace RepoManifest.Text

/-! ## Joined texts -/

/-- A joined text holds what the separator and the pieces hold. -/
theorem mem_intercalate {separator : List Char} {pieces : List (List Char)} {c : Char}
    (h : c ∈ separator.intercalate pieces) : c ∈ separator ∨ ∃ p ∈ pieces, c ∈ p := by
  induction pieces with
  | nil => simp at h
  | cons p rest ih =>
    cases rest with
    | nil =>
      rw [List.intercalate_singleton] at h
      exact .inr ⟨p, List.mem_singleton_self p, h⟩
    | cons q rest =>
      rw [List.intercalate_cons_cons, List.mem_append, List.mem_append] at h
      rcases h with (h | h) | h
      · exact .inr ⟨p, List.mem_cons_self .., h⟩
      · exact .inl h
      · obtain hsep | ⟨piece, hmem, hc⟩ := ih h
        · exact .inl hsep
        · exact .inr ⟨piece, List.mem_cons_of_mem _ hmem, hc⟩

/-! ## Parts -/

/-- The parts of a text are its pieces between the separators. -/
theorem parts_eq_splitOn (separator : Char) (text : List Char) :
    parts separator text = text.splitOn separator := by
  induction text with
  | nil => rw [List.splitOn_nil, parts]
  | cons c rest ih =>
    have hcons : (c :: rest).splitOn separator =
        if c = separator then [] :: rest.splitOn separator
        else (rest.splitOn separator).modifyHead (c :: ·) := by
      simp only [List.splitOn, List.splitOnP_cons_eq_if_modifyHead, beq_iff_eq]
    rw [parts, hcons, ih]
    split
    · next hnil => exact absurd (ih.trans hnil) (parts_ne_nil separator rest)
    · next hparts => rw [hparts, List.modifyHead_cons]

/-- Parts that do not hold the separator are found again in the joined text. -/
theorem parts_intercalate {separator : Char} {pieces : List (List Char)}
    (h : ∀ p ∈ pieces, separator ∉ p) (hne : pieces ≠ []) :
    parts separator ([separator].intercalate pieces) = pieces := by
  rw [parts_eq_splitOn]
  exact List.splitOn_intercalate separator h hne

/-- Pieces are found again in the joined text exactly if none of them holds the separator. -/
theorem parts_intercalate_eq_iff {separator : Char} {pieces : List (List Char)}
    (hne : pieces ≠ []) :
    parts separator ([separator].intercalate pieces) = pieces ↔ ∀ p ∈ pieces, separator ∉ p := by
  constructor
  · intro h p hp
    rw [← h] at hp
    exact not_mem_of_mem_parts hp
  · intro h
    exact parts_intercalate h hne

/-- A text has one part more than it has separators. -/
theorem length_parts (separator : Char) (text : List Char) :
    (parts separator text).length = text.count separator + 1 := by
  induction text with
  | nil => rfl
  | cons c rest ih =>
    rw [parts]
    split
    · next hnil => exact absurd hnil (parts_ne_nil separator rest)
    · next hparts =>
      rw [hparts] at ih
      split
      · next hc => rw [hc, List.count_cons_self, ← ih, List.length_cons]
      · next hc => rw [List.count_cons_of_ne hc, ← ih, List.length_cons, List.length_cons]

/-- A joined text has the separators of its pieces, and one between each two of them. -/
theorem count_intercalate {separator : Char} {pieces : List (List Char)} (hne : pieces ≠ []) :
    ([separator].intercalate pieces).count separator + 1 =
      pieces.length + pieces.flatten.count separator := by
  induction pieces with
  | nil => exact absurd rfl hne
  | cons piece rest ih =>
    cases rest with
    | nil =>
      rw [List.intercalate_singleton, List.flatten_singleton, List.length_singleton, Nat.add_comm]
    | cons next rest =>
      have hrest := ih (List.cons_ne_nil _ _)
      rw [List.intercalate_cons_cons, List.count_append, List.count_append,
        List.count_singleton_self, List.flatten_cons, List.count_append, List.length_cons]
      omega

/-- A separator in front adds no part that counts. -/
theorem nonEmptyParts_cons_self (separator : Char) (text : List Char) :
    nonEmptyParts separator (separator :: text) = nonEmptyParts separator text := by
  have hparts : parts separator (separator :: text) = [] :: parts separator text := by
    rw [parts]
    split
    · next hnil => exact absurd hnil (parts_ne_nil separator text)
    · next hparts => rw [if_pos rfl, hparts]
  rw [nonEmptyParts, hparts, nonEmptyParts]
  rfl

/-- Parts that are not empty and do not hold the separator all count in the joined text. -/
theorem nonEmptyParts_intercalate {separator : Char} {pieces : List (List Char)}
    (h : ∀ p ∈ pieces, separator ∉ p ∧ p ≠ []) (hne : pieces ≠ []) :
    nonEmptyParts separator ([separator].intercalate pieces) = pieces := by
  rw [nonEmptyParts, parts_intercalate (fun p hp ↦ (h p hp).1) hne]
  refine List.filter_eq_self.mpr fun p hp ↦ ?_
  rw [Bool.not_eq_true', List.isEmpty_eq_false_iff]
  exact (h p hp).2

/-- A text behind a separator adds its own parts. -/
theorem nonEmptyParts_append_cons (separator : Char) (before after : List Char) :
    nonEmptyParts separator (before ++ separator :: after) =
      nonEmptyParts separator before ++ nonEmptyParts separator after := by
  have hparts : parts separator (before ++ separator :: after) =
      parts separator before ++ parts separator after := by
    simp only [parts_eq_splitOn]
    exact List.splitOnP_append_cons before after (beq_self_eq_true separator)
  rw [nonEmptyParts, hparts, List.filter_append, ← nonEmptyParts, ← nonEmptyParts]

/-- A text without the separator is its only part, if it is not empty. -/
theorem nonEmptyParts_of_not_mem {separator : Char} {text : List Char} (h : separator ∉ text)
    (hne : text ≠ []) : nonEmptyParts separator text = [text] := by
  have hpieces : ∀ p ∈ [text], separator ∉ p ∧ p ≠ [] := by
    intro p hp
    rw [List.mem_singleton.mp hp]
    exact ⟨h, hne⟩
  have hparts := nonEmptyParts_intercalate hpieces (List.cons_ne_nil _ _)
  rwa [List.intercalate_singleton] at hparts

/-- The characters of a part are characters of the text. -/
theorem mem_of_mem_parts {separator c : Char} {text part : List Char}
    (h : part ∈ parts separator text) (hc : c ∈ part) : c ∈ text := by
  induction text generalizing part with
  | nil =>
    rw [parts, List.mem_singleton] at h
    rwa [h] at hc
  | cons d rest ih =>
    simp only [parts] at h
    split at h
    · next hnil => exact absurd hnil (parts_ne_nil separator rest)
    · next first others heq =>
      rw [heq] at ih
      split at h
      · rcases List.mem_cons.mp h with rfl | h
        · cases hc
        · exact List.mem_cons_of_mem _ (ih h hc)
      · rcases List.mem_cons.mp h with rfl | h
        · rcases List.mem_cons.mp hc with rfl | hc
          · exact List.mem_cons_self ..
          · exact List.mem_cons_of_mem _ (ih (List.mem_cons_self ..) hc)
        · exact List.mem_cons_of_mem _ (ih (List.mem_cons_of_mem _ h) hc)

/-- A part that counts has characters, and the separator is none of them. -/
theorem of_mem_nonEmptyParts {separator : Char} {text part : List Char}
    (h : part ∈ nonEmptyParts separator text) :
    part ≠ [] ∧ separator ∉ part ∧ ∀ c ∈ part, c ∈ text := by
  obtain ⟨hpart, hne⟩ := List.mem_filter.mp h
  rw [Bool.not_eq_true', List.isEmpty_eq_false_iff] at hne
  exact ⟨hne, not_mem_of_mem_parts hpart, fun c hc ↦ mem_of_mem_parts hpart hc⟩

/-! ## Cuts -/

/-- A text that starts with the separator is cut there. -/
theorem cutAt?_self_append {separator : List Char} (hne : separator ≠ []) (after : List Char) :
    cutAt? separator (separator ++ after) = some ([], after) := by
  obtain ⟨c, rest, rfl⟩ := List.exists_cons_of_ne_nil hne
  have hstart : (c :: rest).isPrefixOf (c :: (rest ++ after)) = true :=
    List.isPrefixOf_iff_prefix.mpr (List.prefix_append (c :: rest) after)
  rw [List.cons_append, cutAt?, if_pos hstart, ← List.cons_append, List.drop_left]

/-- A text is cut at the separator behind what does not hold its first character. -/
theorem cutAt?_append {c : Char} {separator before : List Char} (h : c ∉ before)
    (after : List Char) :
    cutAt? (c :: separator) (before ++ (c :: separator) ++ after) = some (before, after) := by
  induction before with
  | nil => exact cutAt?_self_append (List.cons_ne_nil _ _) after
  | cons d rest ih =>
    rw [List.mem_cons, not_or] at h
    have hstart (text : List Char) : ¬ (c :: separator).isPrefixOf (d :: text) = true := by
      rw [List.isPrefixOf_iff_prefix, List.cons_prefix_cons]
      exact fun hboth ↦ h.1 hboth.1
    rw [List.cons_append, List.cons_append, cutAt?, if_neg (hstart _), ih h.2, Option.map_some]

/-- A text without the separator is not cut. -/
theorem cutAt?_eq_none {separator text : List Char}
    (h : ∀ before after, text ≠ before ++ separator ++ after) : cutAt? separator text = none := by
  by_contra hcut
  obtain ⟨⟨before, after⟩, hcut⟩ := Option.ne_none_iff_exists'.mp hcut
  exact h before after (eq_of_cutAt? hcut)

/-! ## Ends -/

/-- Characters of a kind behind a text that does not end with one are dropped. -/
theorem dropEndWhile_append {p : Char → Bool} {text tail : List Char}
    (htail : ∀ c ∈ tail, p c = true) (hlast : ∀ c, text.getLast? = some c → p c = false) :
    dropEndWhile p (text ++ tail) = text := by
  have htext : text.rdropWhile p = text := by
    refine List.rdropWhile_eq_self_iff.mpr fun hne ↦ ?_
    rw [hlast _ (List.getLast?_eq_some_getLast hne)]
    exact Bool.false_ne_true
  induction tail using List.reverseRecOn with
  | nil =>
    rw [List.append_nil]
    exact htext
  | append_singleton tail c ih =>
    rw [← List.append_assoc, dropEndWhile, ← List.rdropWhile,
      List.rdropWhile_concat_pos _ _ _
        (htail c (List.mem_append_right _ (List.mem_singleton_self c)))]
    exact ih fun d hd ↦ htail d (List.mem_append_left _ hd)

/-- An ending that was added is dropped again. -/
theorem dropEnding_append (ending text : List Char) :
    dropEnding ending (text ++ ending) = text := by
  have hsuffix : ending.isSuffixOf (text ++ ending) = true :=
    List.isSuffixOf_iff_suffix.mpr (List.suffix_append _ _)
  rw [dropEnding, if_pos hsuffix, List.length_append, Nat.add_sub_cancel, List.take_left]

/-- What is left of a text holds no new characters. -/
theorem mem_of_mem_dropEnding {ending text : List Char} {c : Char}
    (h : c ∈ dropEnding ending text) :
    c ∈ text := by
  rw [dropEnding] at h
  split at h
  · exact List.mem_of_mem_take h
  · exact h

/-- A text is left alone exactly if it does not have the ending. -/
theorem dropEnding_eq_self_iff {ending text : List Char} (hne : ending ≠ []) :
    dropEnding ending text = text ↔ ¬ ending <:+ text := by
  rw [← List.isSuffixOf_iff_suffix, dropEnding]
  split
  · next hsuffix =>
    have hlength := (List.isSuffixOf_iff_suffix.mp hsuffix).length_le
    have hpos := List.length_pos_of_ne_nil hne
    refine iff_of_false (fun heq ↦ ?_) fun hnot ↦ hnot hsuffix
    have hshort := congrArg List.length heq
    rw [List.length_take] at hshort
    omega
  · next hsuffix => exact iff_of_true rfl hsuffix

end RepoManifest.Text
