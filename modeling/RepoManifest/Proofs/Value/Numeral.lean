import RepoManifest.Number.Shortest
import RepoManifest.Proofs.Text.Printable

/-!
# Characters of numbers

Integers and finite floating-point numbers are written in decimal digits, signs, a point and the
letter of an exponent. All of these are printable, and no text of other characters is the text of a
number.
-/

namespace RepoManifest

namespace Text

/-- The characters that decimal numbers are written in. -/
def numerals : List Char := ['0', '1', '2', '3', '4', '5', '6', '7', '8', '9', '+', '-', '.', 'e']

/-- Characters of numbers are printable. -/
theorem isPrintable_of_mem_numerals {c : Char} (h : c ∈ numerals) : isPrintable c = true :=
  List.all_eq_true.mp (show numerals.all isPrintable = true by decide) c h

/-- Decimal digits are characters of numbers. -/
theorem mem_numerals_of_mem_toDigits {n : Nat} {c : Char} (h : c ∈ Nat.toDigits 10 n) :
    c ∈ numerals := by
  have hdigit : ∀ d < 10, Nat.digitChar d ∈ numerals := by decide
  obtain ⟨d, hd, rfl⟩ := exists_digitChar_of_mem_toDigits (by decide) h
  exact hdigit d hd

/-- Integers are written in characters of numbers. -/
theorem mem_numerals_of_mem_toString {n : Int} {c : Char} (h : c ∈ (toString n).toList) :
    c ∈ numerals := by
  have hnat {n : Nat} (h : c ∈ (toString n).toList) : c ∈ numerals := by
    rw [Nat.toString_eq_ofList_toDigits, String.toList_ofList] at h
    exact mem_numerals_of_mem_toDigits h
  cases n with
  | ofNat n => exact hnat h
  | negSucc n =>
    change c ∈ ("-" ++ toString (n + 1)).toList at h
    rw [String.toList_append, List.mem_append] at h
    rcases h with h | h
    · obtain rfl : c = '-' := List.mem_singleton.mp h
      decide
    · exact hnat h

/-- Numbers with the same digits are the same number. -/
theorem toDigits_inj {m n : Nat} (h : Nat.toDigits 10 m = Nat.toDigits 10 n) : m = n := by
  have hvalue := congrArg (fun digits ↦ Nat.ofDigitChars 10 digits 0) h
  simpa only [Nat.ofDigitChars_ten_toDigits] using hvalue

/-- Integers that are written alike are the same integer. -/
theorem toList_toString_inj {m n : Int} (h : (toString m).toList = (toString n).toList) :
    m = n := by
  have hnat (n : Nat) : (toString (n : Int)).toList = Nat.toDigits 10 n := by
    change (toString n).toList = _
    rw [Nat.toString_eq_ofList_toDigits, String.toList_ofList]
  have hnegative (n : Nat) :
      (toString (Int.negSucc n)).toList = '-' :: Nat.toDigits 10 (n + 1) := by
    change ("-" ++ toString (n + 1)).toList = _
    simp only [String.toList_append, Nat.toString_eq_ofList_toDigits, String.toList_ofList]
    rfl
  -- A sign is no digit.
  have hsign (m n : Nat) : Nat.toDigits 10 m ≠ '-' :: Nat.toDigits 10 n := by
    intro h
    have hmem : '-' ∈ Nat.toDigits 10 m := h ▸ List.mem_cons_self
    exact absurd (Nat.isDigit_of_mem_toDigits (by decide) (by decide) hmem) (by decide)
  cases m with
  | ofNat m =>
    cases n with
    | ofNat n =>
      have h : Nat.toDigits 10 m = Nat.toDigits 10 n := (hnat m).symm.trans (h.trans (hnat n))
      rw [toDigits_inj h]
    | negSucc n => exact absurd ((hnat m).symm.trans (h.trans (hnegative n))) (hsign m (n + 1))
  | negSucc m =>
    cases n with
    | ofNat n => exact absurd ((hnat n).symm.trans (h.symm.trans (hnegative m))) (hsign n (m + 1))
    | negSucc n =>
      have h := (hnegative m).symm.trans (h.trans (hnegative n))
      rw [Nat.succ.inj (toDigits_inj (List.tail_eq_of_cons_eq h))]

end Text

open Text

/-! ## Floating-point numbers -/

namespace DecimalLayout

/-- An exponent is written in characters of numbers. -/
theorem mem_numerals_of_mem_exponentText {layout : DecimalLayout} {e : Int} {c : Char}
    (h : c ∈ layout.exponentText e) : c ∈ numerals := by
  simp only [exponentText, List.mem_cons, List.mem_append] at h
  rcases h with rfl | rfl | h | h
  · decide
  · split <;> decide
  · rw [List.eq_of_mem_replicate h]
    decide
  · exact mem_numerals_of_mem_toDigits h

/-- A decimal is written in characters of numbers if its digits are such characters. -/
theorem mem_numerals_of_mem_render {layout : DecimalLayout} {d : Decimal}
    (hdigits : ∀ c ∈ d.digits, c ∈ numerals) : ∀ c ∈ layout.render d, c ∈ numerals := by
  have hzero : '0' ∈ numerals := by decide
  have hpoint : '.' ∈ numerals := by decide
  have hzeros (n : Nat) : ∀ c ∈ List.replicate n '0', c ∈ numerals :=
    fun c hc ↦ List.eq_of_mem_replicate hc ▸ hzero
  have hexponent : ∀ c ∈ layout.exponentText (d.point - 1), c ∈ numerals :=
    fun _ ↦ mem_numerals_of_mem_exponentText
  have hpadded (n : Nat) : ∀ c ∈ d.digits ++ List.replicate n '0', c ∈ numerals :=
    List.forall_mem_append.mpr ⟨hdigits, hzeros n⟩
  unfold render
  split
  · split
    · simp only [List.forall_mem_cons, List.forall_mem_append]
      exact ⟨hzero, hpoint, hzeros _, hdigits⟩
    · simp only [List.forall_mem_cons, List.forall_mem_append]
      refine ⟨fun c hc ↦ hpadded _ c (List.mem_of_mem_take hc), hpoint, ?_⟩
      split
      · simpa using hzero
      · exact fun c hc ↦ hpadded _ c (List.mem_of_mem_drop hc)
  · split
    · exact hexponent
    · next first heq =>
      rw [heq] at hdigits
      exact List.forall_mem_cons.mpr ⟨hdigits _ (List.mem_cons_self ..), hexponent⟩
    · next first rest _ heq =>
      rw [heq, List.forall_mem_cons] at hdigits
      simp only [List.forall_mem_cons, List.forall_mem_append]
      exact ⟨hdigits.1, hpoint, hdigits.2, hexponent⟩

end DecimalLayout

/-- The digits of a natural number without trailing zeros are characters of numbers. -/
theorem Decimal.mem_numerals_of_mem_ofNat {n : Nat} {e : Int} :
    ∀ c ∈ (ofNat n e).digits, c ∈ numerals := by
  intro c hc
  rw [ofNat, List.mem_reverse] at hc
  have hdigit := (List.dropWhile_sublist _).subset hc
  exact mem_numerals_of_mem_toDigits (List.mem_reverse.mp hdigit)

namespace Double

/-- The digits of the shortest decimal are characters of numbers. -/
theorem mem_numerals_of_mem_shortest {m : Nat} {e : Int} :
    ∀ c ∈ (shortest m e).digits, c ∈ numerals := by
  have hgetD (found : Option Decimal) (h : ∀ d ∈ found, ∃ n grid, d = Decimal.ofNat n grid) :
      ∀ c ∈ (found.getD ⟨[], 0⟩).digits, c ∈ numerals := by
    cases found with
    | none => exact fun _ hc ↦ absurd hc List.not_mem_nil
    | some d =>
      obtain ⟨n, grid, rfl⟩ := h d rfl
      exact Decimal.mem_numerals_of_mem_ofNat
  -- At whatever precision the search ends, it gives a number without its trailing zeros.
  refine hgetD _ fun d hd ↦ ?_
  obtain ⟨i, _, hneighbour⟩ := List.exists_of_findSome?_eq_some hd
  obtain ⟨n, _, rfl⟩ := Option.map_eq_some_iff.mp hneighbour
  exact ⟨n, _, rfl⟩

/-- A floating-point number is written as one of three words or in characters of numbers. -/
theorem text_cases (d : Double) :
    d.text ∈ ["nan", "inf", "-inf"] ∨ ∀ c ∈ d.text.toList, c ∈ numerals := by
  cases d with
  | nan => exact .inl (by decide)
  | infinite negative => cases negative <;> exact .inl (by decide)
  | finite negative m e =>
    have hzero : ['0', '.', '0'] ⊆ numerals := by decide
    have hdigits : ∀ c ∈ if m = 0 then ['0', '.', '0']
        else DecimalLayout.standard.render (shortest m e), c ∈ numerals := by
      split
      · exact hzero
      · exact DecimalLayout.mem_numerals_of_mem_render mem_numerals_of_mem_shortest
    right
    rw [text, String.toList_ofList]
    split
    · exact List.forall_mem_cons.mpr ⟨by decide, hdigits⟩
    · exact hdigits

/-- Floating-point numbers are printable. -/
theorem printable_text (d : Double) : Printable d.text := by
  obtain hword | hnumerals := d.text_cases
  · have hall : ∀ word ∈ ["nan", "inf", "-inf"], Printable word := by decide
    exact hall _ hword
  · exact fun c hc ↦ isPrintable_of_mem_numerals (hnumerals c hc)

end Double
end RepoManifest
