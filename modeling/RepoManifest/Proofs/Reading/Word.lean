import RepoManifest.Proofs.Value.Numeral
import RepoManifest.Reading.Scalar

/-!
# Words of vocabularies

A field with a vocabulary is read from the values that spell a text and from the numbers, which are
taken by their own text. No number has the text of a declared word: some character of each word
occurs in no number, and the words for truth values and for numbers that are not finite are not
declared.
-/

namespace RepoManifest

open Text

namespace Value

/-- A value spells a text: as the text itself, as a member that stands for it, or as its bytes in
UTF-8. -/
inductive Spells : Value → String → Prop
  | str (text : String) : Spells (.str text) text
  | member (type name text : String) : Spells (.member type name (.str text)) text
  | bytes {bytes : List UInt8} {text : String} (h : decodeUtf8 bytes = .ok text) :
    Spells (.bytes bytes) text

/-- A value is a number that can be written: a truth value, a floating-point number, an integer that
has not too many digits, or a member that is such a number. -/
inductive IsNumber : Value → Prop
  | bool (b : Bool) : IsNumber (.bool b)
  | int {n : Int} (h : n.natAbs < tenTo digitLimit) : IsNumber (.int n)
  | double (d : Double) : IsNumber (.double d)
  | memberInt (type name : String) {n : Int} (h : n.natAbs < tenTo digitLimit) :
    IsNumber (.member type name (.int n))
  | memberDouble (type name : String) (d : Double) : IsNumber (.member type name (.double d))

/-! ## Texts of numbers -/

/-- The words for numbers that are not written in digits. -/
def numberWords : List String := ["True", "False", "nan", "inf", "-inf"]

/-- A number is written as one of a few words or in characters of numbers. -/
theorem IsNumber.display_cases {v : Value} (h : v.IsNumber) :
    v.display ∈ numberWords ∨ ∀ c ∈ v.display.toList, c ∈ numerals := by
  have hdouble (d : Double) : d.text ∈ numberWords ∨ ∀ c ∈ d.text.toList, c ∈ numerals := by
    have hwords : ["nan", "inf", "-inf"] ⊆ numberWords := by decide
    exact d.text_cases.imp_left fun hword ↦ hwords hword
  cases h with
  | bool b => cases b <;> exact .inl (by decide)
  | int | memberInt => exact .inr fun _ ↦ mem_numerals_of_mem_toString
  | double d | memberDouble _ _ d => exact hdouble d

/-- The text of a number is no declared word. -/
theorem IsNumber.display_not_mem {v : Value} (h : v.IsNumber) {r : Registry}
    (hr : r ∈ registries) : v.display ∉ r.values := by
  have hwords : ∀ r ∈ registries, ∀ word ∈ r.values,
      word ∉ numberWords ∧ ¬ word.toList ⊆ numerals := by decide
  intro hmem
  obtain ⟨hword, hother⟩ := hwords r hr _ hmem
  obtain hwritten | hnumerals := h.display_cases
  · exact hword hwritten
  · exact hother hnumerals

/-- The text of a number is quoted as it is. -/
theorem IsNumber.quote_display {v : Value} (h : v.IsNumber) :
    quote v.display = "'" ++ v.display ++ "'" := by
  obtain hwritten | hnumerals := h.display_cases
  · have hwords : ∀ word ∈ numberWords,
        Printable word ∧ '\'' ∉ word.toList ∧ '\\' ∉ word.toList := by decide
    obtain ⟨hprintable, hquote, hbackslash⟩ := hwords _ hwritten
    exact quote_eq_self hprintable hquote hbackslash
  · have hquote : '\'' ∉ numerals := by decide
    have hbackslash : '\\' ∉ numerals := by decide
    exact quote_eq_self (fun c hc ↦ isPrintable_of_mem_numerals (hnumerals c hc))
      (fun hc ↦ hquote (hnumerals _ hc)) fun hc ↦ hbackslash (hnumerals _ hc)

end Value

/-! ## Reading words -/

namespace Reading

/-- A text is read exactly from the values that spell it. -/
theorem text_eq_ok_iff {v : Value} {s : String} : text v = .ok s ↔ v.Spells s := by
  constructor
  · intro h
    unfold text at h
    split at h
    · obtain rfl := Except.ok.inj h
      exact .str _
    · obtain rfl := Except.ok.inj h
      exact .member _ _ _
    · split at h
      · next hdecode =>
        obtain rfl := Except.ok.inj h
        exact .bytes hdecode
      · cases h
    · cases h
  · rintro (_ | _ | hdecode)
    · rfl
    · rfl
    · rw [text, hdecode]

/-- What is no text is at fault by itself. -/
theorem exists_fault_of_text {v : Value} (h : ∀ s, text v ≠ .ok s) :
    ∃ f ∈ [ReadFault.notText, .notUtf8], text v = fault f := by
  unfold text
  split
  · exact absurd (text_eq_ok_iff.mpr (.str _)) (h _)
  · exact absurd (text_eq_ok_iff.mpr (.member _ _ _)) (h _)
  · split
    · next hdecode => exact absurd (text_eq_ok_iff.mpr (.bytes hdecode)) (h _)
    · exact ⟨.notUtf8, by decide, rfl⟩
  · exact ⟨.notText, by decide, rfl⟩

/-- An integer that can be written is read as its text. -/
theorem wordInteger_of_lt {n : Int} (h : n.natAbs < tenTo Value.digitLimit) :
    wordInteger n = .ok (toString n) := by rw [wordInteger, if_pos h]

/-- An integer that cannot be written is not read. -/
theorem wordInteger_of_not_lt {n : Int} (h : ¬ n.natAbs < tenTo Value.digitLimit) :
    wordInteger n = fault .tooManyDigits := by rw [wordInteger, if_neg h]

/-- A number is read as its text. -/
theorem word_of_isNumber {v : Value} (h : v.IsNumber) : word v = .ok v.display := by
  cases h with
  | bool | double | memberDouble => rfl
  | int h | memberInt _ _ h => exact wordInteger_of_lt h

/-- What is no number is read as a text, but for integers of too many digits. -/
theorem word_of_not_isNumber {v : Value} (h : ¬ v.IsNumber) :
    word v = text v ∨ word v = fault .tooManyDigits ∧ ∀ s, ¬ v.Spells s := by
  unfold word
  split
  · exact absurd (.bool _) h
  · have hdigits := wordInteger_of_not_lt fun hdigits ↦ h (.int hdigits)
    exact .inr ⟨hdigits, fun _ hspells ↦ by cases hspells⟩
  · have hdigits := wordInteger_of_not_lt fun hdigits ↦ h (.memberInt _ _ hdigits)
    exact .inr ⟨hdigits, fun _ hspells ↦ by cases hspells⟩
  · exact absurd (.double _) h
  · exact absurd (.memberDouble _ _ _) h
  · exact .inl rfl

/-- A word is read exactly from the values that spell it and from the numbers that have it for their
text. -/
theorem word_eq_ok_iff {v : Value} {s : String} :
    word v = .ok s ↔ v.Spells s ∨ v.IsNumber ∧ s = v.display := by
  by_cases hnumber : v.IsNumber
  · have hspells : ¬ v.Spells s := by
      rintro (_ | _ | _) <;> cases hnumber
    rw [word_of_isNumber hnumber, Except.ok.injEq]
    simp [hspells, hnumber, eq_comm]
  · obtain htext | ⟨hdigits, hspells⟩ := word_of_not_isNumber hnumber
    · rw [htext, text_eq_ok_iff]
      simp [hnumber]
    · rw [hdigits]
      simp [hspells, hnumber, fault]

/-- What is no text and no number is not read as a word: there is one fault, at the value itself. -/
theorem exists_fault_of_word {v : Value} (h : ∀ s, word v ≠ .ok s) :
    ∃ f ∈ [ReadFault.notText, .notUtf8, .tooManyDigits], word v = fault f := by
  have hnumber : ¬ v.IsNumber := fun hnumber ↦ h _ (word_of_isNumber hnumber)
  obtain htext | ⟨hdigits, -⟩ := word_of_not_isNumber hnumber
  · obtain ⟨f, hf, hfault⟩ := exists_fault_of_text fun s ↦ htext ▸ h s
    have hsub : [ReadFault.notText, .notUtf8] ⊆ [.notText, .notUtf8, .tooManyDigits] := by decide
    exact ⟨f, hsub hf, htext.trans hfault⟩
  · exact ⟨.tooManyDigits, by decide, hdigits⟩

end Reading
end RepoManifest
