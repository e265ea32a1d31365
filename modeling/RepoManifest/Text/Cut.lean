/-!
# Cutting text

Cutting a text at a separator, taking it apart at every separator, and removing what stands at its
ends. All on lists of characters.
-/

namespace RepoManifest.Text

/-- The text before and after the first occurrence of a separator. -/
def cutAt? (separator : List Char) : List Char → Option (List Char × List Char)
  | [] => if separator.isEmpty then some ([], []) else none
  | c :: rest =>
    if separator.isPrefixOf (c :: rest) then
      some ([], (c :: rest).drop separator.length)
    else (cutAt? separator rest).map fun (before, after) ↦ (c :: before, after)

/-- The parts of a text between the occurrences of a character. -/
def parts (separator : Char) : List Char → List (List Char)
  | [] => [[]]
  | c :: rest =>
    match parts separator rest with
    | [] => [[c]]
    | first :: others => if c = separator then [] :: first :: others else (c :: first) :: others

/-- The parts of a text that are not empty. -/
def nonEmptyParts (separator : Char) (text : List Char) : List (List Char) :=
  (parts separator text).filter fun part ↦ !part.isEmpty

/-- A text without the characters of a kind at its end. -/
def dropEndWhile (p : Char → Bool) (text : List Char) : List Char :=
  (text.reverse.dropWhile p).reverse

/-- A text without an ending, if it has that ending. -/
def dropEnding (ending text : List Char) : List Char :=
  if ending.isSuffixOf text then text.take (text.length - ending.length) else text

/-- A text always has at least one part. -/
theorem parts_ne_nil (separator : Char) (text : List Char) : parts separator text ≠ [] := by
  induction text with
  | nil => simp [parts]
  | cons c rest ih =>
    simp only [parts]
    split
    · simp
    · split <;> simp

/-- No part holds the separator. -/
theorem not_mem_of_mem_parts {separator : Char} {text part : List Char}
    (h : part ∈ parts separator text) : separator ∉ part := by
  induction text generalizing part with
  | nil => simp [parts] at h; simp [h]
  | cons c rest ih =>
    simp only [parts] at h
    split at h
    · next hnil => exact absurd hnil (parts_ne_nil separator rest)
    · next first others he =>
      rw [he] at ih
      split at h
      · rcases List.mem_cons.1 h with rfl | h
        · simp
        · exact ih h
      · next hc =>
        rcases List.mem_cons.1 h with rfl | h
        · simp only [List.mem_cons, not_or]
          exact ⟨fun e ↦ hc e.symm, ih (List.mem_cons_self ..)⟩
        · exact ih (List.mem_cons_of_mem _ h)

/-- A cut text is the parts with the separator between them. -/
theorem eq_of_cutAt? {separator text before after : List Char}
    (h : cutAt? separator text = some (before, after)) :
    text = before ++ separator ++ after := by
  induction text generalizing before with
  | nil =>
    simp only [cutAt?] at h
    split at h
    · next he => simp_all
    · simp at h
  | cons c rest ih =>
    simp only [cutAt?] at h
    split at h
    · next hp =>
      simp only [Option.some.injEq, Prod.mk.injEq] at h
      obtain ⟨rfl, rfl⟩ := h
      obtain ⟨t, ht⟩ := List.isPrefixOf_iff_prefix.1 hp
      simp [← ht]
    · obtain ⟨⟨b, a⟩, he, heq⟩ := Option.map_eq_some_iff.1 h
      simp only [Prod.mk.injEq] at heq
      obtain ⟨rfl, rfl⟩ := heq
      simp [ih he]

end RepoManifest.Text
