import RepoManifest.Proofs.Text.Cut
import RepoManifest.Text.Quoted

/-!
# Printable text

Text without line breaks, control characters and the like. Numbers are printable, and quoting makes
any text and any bytes printable. What other texts hold that is not printable comes from words that
stand in them as they are: these are the words that the texts show.
-/

namespace RepoManifest.Text

/-- Whether all characters of a text are printable. -/
def Printable (text : String) : Prop := ∀ c ∈ text.toList, isPrintable c = true

instance (text : String) : Decidable (Printable text) :=
  decidable_of_iff (text.toList.all isPrintable = true) List.all_eq_true

/-! ## Joined text -/

/-- Characters make a printable text exactly if each of them is printable. -/
theorem printable_ofList {chars : List Char} :
    Printable (String.ofList chars) ↔ ∀ c ∈ chars, isPrintable c = true := by
  rw [Printable, String.toList_ofList]

/-- Two texts are printable together exactly if both are. -/
@[simp] theorem printable_append {s t : String} :
    Printable (s ++ t) ↔ Printable s ∧ Printable t := by
  simp only [Printable, String.toList_append, List.forall_mem_append]

/-- Printable texts are printable with a printable separator between them. -/
theorem printable_intercalate {separator : String} {texts : List String}
    (hseparator : Printable separator) (h : ∀ t ∈ texts, Printable t) :
    Printable (separator.intercalate texts) := by
  intro c hc
  rw [String.toList_intercalate] at hc
  rcases mem_intercalate hc with hc | ⟨piece, hpiece, hc⟩
  · exact hseparator c hc
  · obtain ⟨t, ht, rfl⟩ := List.mem_map.mp hpiece
    exact h t ht c hc

/-- A printable text holds no character that is not printable. -/
theorem Printable.not_mem {text : String} {c : Char} (h : Printable text)
    (hc : isPrintable c = false) : c ∉ text.toList := by
  intro hmem
  rw [h c hmem] at hc
  cases hc

/-! ## What texts show -/

/-- Between printable texts, a text is the only one to hold characters that are not printable. -/
theorem mem_between_iff {front text behind : String} (hfront : Printable front)
    (hbehind : Printable behind) {c : Char} (hc : isPrintable c = false) :
    c ∈ (front ++ text ++ behind).toList ↔ c ∈ text.toList := by
  rw [String.toList_append, List.mem_append, or_iff_left (hbehind.not_mem hc),
    String.toList_append, List.mem_append, or_iff_right (hfront.not_mem hc)]

/-- Texts show, of the characters that are not printable, those of some words and no others. -/
def ShowWords (texts words : List String) : Prop :=
  ∀ c, isPrintable c = false → ((∃ t ∈ texts, c ∈ t.toList) ↔ ∃ w ∈ words, c ∈ w.toList)

namespace ShowWords

variable {texts more words others : List String}

/-- A character that is not printable is in no text exactly if it is in none of the words. -/
theorem not_mem_iff (h : ShowWords texts words) {c : Char} (hc : isPrintable c = false) :
    (∀ t ∈ texts, c ∉ t.toList) ↔ ∀ w ∈ words, c ∉ w.toList := by
  have hnone := not_congr (h c hc)
  push Not at hnone
  exact hnone

/-- Texts and more texts show the words of both. -/
theorem append (h : ShowWords texts words) (hmore : ShowWords more others) :
    ShowWords (texts ++ more) (words ++ others) := by
  intro c hc
  simp only [List.mem_append, or_and_right, exists_or, h c hc, hmore c hc]

/-- Printable texts show no words. -/
theorem of_printable (h : ∀ t ∈ texts, Printable t) : ShowWords texts [] := by
  intro c hc
  refine iff_of_false ?_ (by simp)
  rintro ⟨t, ht, hchar⟩
  exact (h t ht).not_mem hc hchar

/-- Texts behind a printable one show themselves. -/
theorem map_append {front : String} (h : Printable front) (texts : List String) :
    ShowWords (texts.map (front ++ ·)) texts := by
  intro c hc
  simp only [List.mem_map, exists_exists_and_eq_and, String.toList_append, List.mem_append,
    h.not_mem hc, false_or]

/-- Texts that come from several things show the words of each of them. -/
theorem flatMap {α : Type} {things : List α} {texts words : α → List String}
    (h : ∀ a ∈ things, ShowWords (texts a) (words a)) :
    ShowWords (things.flatMap texts) (things.flatMap words) := by
  induction things with
  | nil => exact of_printable fun _ ht ↦ absurd ht List.not_mem_nil
  | cons a rest ih =>
    obtain ⟨ha, hrest⟩ := List.forall_mem_cons.mp h
    rw [List.flatMap_cons, List.flatMap_cons]
    exact ha.append (ih hrest)

end ShowWords

/-! ## Occurrences -/

/-- How often a character occurs in texts. -/
def occurrences (c : Char) (texts : List String) : Nat := (texts.flatMap String.toList).count c

section

variable {c : Char} {texts : List String}

/-- Nothing occurs in no text. -/
@[simp] theorem occurrences_nil : occurrences c [] = 0 := rfl

/-- What occurs in a text and in others. -/
@[simp] theorem occurrences_cons (text : String) :
    occurrences c (text :: texts) = text.toList.count c + occurrences c texts := by
  rw [occurrences, List.flatMap_cons, List.count_append, occurrences]

/-- What occurs in a single text. -/
theorem occurrences_singleton {text : String} : occurrences c [text] = text.toList.count c := by
  rw [occurrences_cons, occurrences_nil, Nat.add_zero]

/-- What occurs in texts and in more texts. -/
@[simp] theorem occurrences_append (more : List String) :
    occurrences c (texts ++ more) = occurrences c texts + occurrences c more := by
  rw [occurrences, List.flatMap_append, List.count_append, occurrences, occurrences]

/-- A character does not occur exactly if none of the texts holds it. -/
theorem occurrences_eq_zero_iff : occurrences c texts = 0 ↔ ∀ t ∈ texts, c ∉ t.toList := by
  rw [occurrences, List.count_eq_zero, List.mem_flatMap]
  push Not
  rfl

/-- Words that come from several things have the same occurrences if those of each thing do. -/
theorem occurrences_flatMap {α : Type} {things : List α} {words others : α → List String}
    (h : ∀ a ∈ things, occurrences c (words a) = occurrences c (others a)) :
    occurrences c (things.flatMap words) = occurrences c (things.flatMap others) := by
  induction things with
  | nil => rfl
  | cons a rest ih =>
    obtain ⟨ha, hrest⟩ := List.forall_mem_cons.mp h
    rw [List.flatMap_cons, List.flatMap_cons, occurrences_append, occurrences_append, ha, ih hrest]

/-- If each text has the occurrences of some words, the texts have those of all the words. -/
theorem occurrences_map {α : Type} {things : List α} {text : α → String} {words : α → List String}
    (h : ∀ a ∈ things, (text a).toList.count c = occurrences c (words a)) :
    occurrences c (things.map text) = occurrences c (things.flatMap words) := by
  rw [List.map_eq_flatMap]
  exact occurrences_flatMap fun a ha ↦ occurrences_singleton.trans (h a ha)

/-- A printable text has no occurrence of a character that is not printable. -/
theorem Printable.count_eq_zero {text : String} (h : Printable text) (hc : isPrintable c = false) :
    text.toList.count c = 0 :=
  List.count_eq_zero.mpr (h.not_mem hc)

/-- Between printable texts, a text has all the occurrences of a character that is not printable. -/
theorem count_between {front text behind : String} (hfront : Printable front)
    (hbehind : Printable behind) (hc : isPrintable c = false) :
    (front ++ text ++ behind).toList.count c = text.toList.count c := by
  rw [String.toList_append, List.count_append, String.toList_append, List.count_append,
    hfront.count_eq_zero hc, hbehind.count_eq_zero hc, Nat.zero_add, Nat.add_zero]

end

/-! ## Numbers -/

/-- The digits of a number are digits of its base. -/
theorem exists_digitChar_of_mem_toDigits {base n : Nat} (hbase : 1 < base) {c : Char}
    (h : c ∈ Nat.toDigits base n) : ∃ d < base, c = Nat.digitChar d := by
  induction n using Nat.strongRecOn with
  | ind n ih =>
    rw [Nat.toDigits_eq_if hbase] at h
    split at h
    · next hn => exact ⟨n, hn, List.mem_singleton.mp h⟩
    · next hn =>
      rcases List.mem_append.mp h with h | h
      · exact ih (n / base) (Nat.div_lt_self (by omega) hbase) h
      · exact ⟨n % base, Nat.mod_lt _ (by omega), List.mem_singleton.mp h⟩

/-- Digits are printable up to base sixteen. -/
theorem isPrintable_of_mem_toDigits {base n : Nat} (hbase : 1 < base) (hle : base ≤ 16) {c : Char}
    (h : c ∈ Nat.toDigits base n) : isPrintable c = true := by
  have hdigit : ∀ d < 16, isPrintable (Nat.digitChar d) = true := by decide
  obtain ⟨d, hd, rfl⟩ := exists_digitChar_of_mem_toDigits hbase h
  exact hdigit d (Nat.lt_of_lt_of_le hd hle)

/-- Digits are printable behind leading zeros. -/
theorem isPrintable_of_mem_padded {base n zeros : Nat} (hbase : 1 < base) (hle : base ≤ 16)
    {c : Char} (h : c ∈ List.replicate zeros '0' ++ Nat.toDigits base n) :
    isPrintable c = true := by
  rcases List.mem_append.mp h with h | h
  · rw [List.eq_of_mem_replicate h]
    decide
  · exact isPrintable_of_mem_toDigits hbase hle h

/-- Natural numbers are printable. -/
theorem printable_toString_nat (n : Nat) : Printable (toString n) := by
  rw [Nat.toString_eq_ofList_toDigits, printable_ofList]
  exact fun _ ↦ isPrintable_of_mem_toDigits (by decide) (by decide)

/-- Integers are printable. -/
theorem printable_toString_int (n : Int) : Printable (toString n) := by
  cases n with
  | ofNat n => exact printable_toString_nat n
  | negSucc n => exact printable_append.mpr ⟨by decide, printable_toString_nat (n + 1)⟩

/-! ## Quoted text -/

/-- Quotes are printable. -/
theorem isPrintable_quoteFor (text : List Char) : isPrintable (quoteFor text) = true := by
  unfold quoteFor
  split <;> decide

/-- A hexadecimal escape is printable. -/
theorem isPrintable_of_mem_hexEscape {letter d : Char} (hletter : isPrintable letter = true)
    {width n : Nat} (h : d ∈ '\\' :: letter :: hexDigits width n) : isPrintable d = true := by
  simp only [List.mem_cons] at h
  rcases h with rfl | rfl | h
  · decide
  · exact hletter
  · exact isPrintable_of_mem_padded (by decide) (by decide) h

/-- What stands for a character inside quotes is printable. -/
theorem isPrintable_of_mem_escapeChar {quote c d : Char} (hquote : isPrintable quote = true)
    (h : d ∈ escapeChar quote c) : isPrintable d = true := by
  have hpair {letter : Char} (hletter : isPrintable letter = true) (h : d ∈ ['\\', letter]) :
      isPrintable d = true := by
    simp only [List.mem_cons, List.not_mem_nil, or_false] at h
    rcases h with rfl | rfl
    · decide
    · exact hletter
  unfold escapeChar at h
  split_ifs at h with hspecial hnewline hreturn htab hprintable hbyte hword
  · refine hpair ?_ h
    rcases hspecial with rfl | rfl
    · exact hquote
    · decide
  · exact hpair (by decide) h
  · exact hpair (by decide) h
  · exact hpair (by decide) h
  · rwa [List.mem_singleton.mp h]
  · exact isPrintable_of_mem_hexEscape (by decide) h
  · exact isPrintable_of_mem_hexEscape (by decide) h
  · exact isPrintable_of_mem_hexEscape (by decide) h

/-- Printable characters are printable between printable quotes. -/
theorem isPrintable_of_mem_quoted {quote d : Char} {escape : Char → List Char} {text : List Char}
    (hquote : isPrintable quote = true) (h : ∀ c, ∀ e ∈ escape c, isPrintable e = true)
    (hd : d ∈ quote :: (text.flatMap escape ++ [quote])) : isPrintable d = true := by
  simp only [List.mem_cons, List.mem_append, List.not_mem_nil, or_false, List.mem_flatMap] at hd
  rcases hd with rfl | ⟨c, _, hd⟩ | rfl
  · exact hquote
  · exact h c d hd
  · exact hquote

/-- Quoted text is printable. -/
theorem printable_quote (text : String) : Printable (quote text) := by
  have hquote := isPrintable_quoteFor text.toList
  rw [quote, printable_ofList]
  exact fun _ ↦ isPrintable_of_mem_quoted hquote fun _ _ ↦ isPrintable_of_mem_escapeChar hquote

/-- A printable character other than the quote and the backslash stands for itself inside quotes. -/
theorem escapeChar_eq_self {quote c : Char} (hprintable : isPrintable c = true) (hquote : c ≠ quote)
    (hbackslash : c ≠ '\\') : escapeChar quote c = [c] := by
  have hnewline : c ≠ '\n' := by rintro rfl; exact absurd hprintable (by decide)
  have hreturn : c ≠ '\r' := by rintro rfl; exact absurd hprintable (by decide)
  have htab : c ≠ '\t' := by rintro rfl; exact absurd hprintable (by decide)
  rw [escapeChar, if_neg (not_or.mpr ⟨hquote, hbackslash⟩), if_neg hnewline, if_neg hreturn,
    if_neg htab, if_pos hprintable]

/-- A printable text without single quotes and backslashes stands between single quotes as it is. -/
theorem quote_eq_self {text : String} (hprintable : Printable text) (hquote : '\'' ∉ text.toList)
    (hbackslash : '\\' ∉ text.toList) : quote text = "'" ++ text ++ "'" := by
  have hfor : quoteFor text.toList = '\'' := by
    rw [quoteFor, if_neg]
    simp [hquote]
  have hescape : text.toList.flatMap (escapeChar '\'') = text.toList := by
    have hchars : ∀ c ∈ text.toList, escapeChar '\'' c = [c] := fun c hc ↦
      escapeChar_eq_self (hprintable c hc) (fun h ↦ hquote (h ▸ hc)) fun h ↦ hbackslash (h ▸ hc)
    rw [List.flatMap_congr hchars, List.flatMap_singleton']
  refine String.toList_injective ?_
  rw [quote, hfor, hescape]
  simp only [String.toList_ofList, String.toList_append]
  rfl

/-- Quoted bytes are printable. -/
theorem printable_quoteBytes (bytes : List UInt8) : Printable (quoteBytes bytes) := by
  have hquote := isPrintable_quoteFor (bytes.map fun b ↦ Char.ofNat b.toNat)
  rw [quoteBytes, printable_ofList, List.forall_mem_cons]
  refine ⟨by decide, fun _ ↦ isPrintable_of_mem_quoted hquote fun c e he ↦ ?_⟩
  split at he
  · exact isPrintable_of_mem_escapeChar hquote he
  · exact isPrintable_of_mem_hexEscape (by decide) he

end RepoManifest.Text
