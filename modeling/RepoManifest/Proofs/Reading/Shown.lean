import RepoManifest.Proofs.Reading.Outcome
import RepoManifest.Proofs.Validation.Printable

/-!
# What issues show

An issue is written with the names on its path and the wording of its fault. The wording of a fault
and the names of declared fields are printable, so what else an issue shows comes from a key that
names no field: its word, as it is.
-/

namespace RepoManifest

open Text

/-! ## Issues -/

namespace Issue

/-- An issue shows a character: on its path or in the wording of its fault. -/
def Shows (i : Issue) (c : Char) : Prop := i.path.Shows c ∨ c ∈ i.fault.message.toList

/-- The line of an issue holds what the issue shows and the printable characters around it. -/
theorem mem_line_iff {i : Issue} {root : FieldPath} (hroot : root.PrintableNames) {c : Char}
    (hc : isPrintable c = false) : c ∈ (i.line root).toList ↔ i.Shows c := by
  have hcolon : Printable ": " := by decide
  simp only [line, String.toList_append, List.mem_append, FieldPath.mem_join_iff hc,
    FieldPath.shows_append_iff, hroot.not_shows hc, hcolon.not_mem hc, false_or, or_false, Shows]

/-- An issue seen from a printable step further out shows what it showed. -/
theorem shows_under_iff {i : Issue} {s : Segment} (hs : FieldPath.PrintableNames [s]) {c : Char}
    (hc : isPrintable c = false) : (i.under s).Shows c ↔ i.Shows c := by
  have hpath : (i.under s).path = [s] ++ i.path := rfl
  rw [Shows, hpath, FieldPath.shows_append_iff, or_iff_right (hs.not_shows hc)]
  rfl

/-- Issues show, of the characters that are not printable, those of some words and no others. -/
def ShowWords (issues : List Issue) (words : List String) : Prop :=
  ∀ c, isPrintable c = false → ((∃ i ∈ issues, i.Shows c) ↔ ∃ w ∈ words, c ∈ w.toList)

namespace ShowWords

variable {issues more : List Issue} {words others : List String}

/-- No issues show no words. -/
theorem nil : ShowWords [] [] := by simp [ShowWords]

/-- Issues and more issues show the words of both. -/
theorem append (h : ShowWords issues words) (hmore : ShowWords more others) :
    ShowWords (issues ++ more) (words ++ others) := by
  intro c hc
  simp only [List.mem_append, or_and_right, exists_or, h c hc, hmore c hc]

/-- Issues seen from a printable step further out show the same words. -/
theorem under (h : ShowWords issues words) {s : Segment} (hs : FieldPath.PrintableNames [s]) :
    ShowWords (issues.map (Issue.under s)) words := by
  intro c hc
  rw [← h c hc]
  simp only [List.mem_map, exists_exists_and_eq_and, shows_under_iff hs hc]

end ShowWords
end Issue

/-- Faults are worded in printable characters, if the name of the type that is asked for is
printable. -/
theorem ReadFault.printable_message {f : ReadFault}
    (h : ∀ type, f = .notObject type → Printable type) : Printable f.message := by
  cases f with
  | notObject type => exact printable_append.mpr ⟨by decide, h type rfl⟩
  | _ => decide +kernel

namespace Reading

open Issue (ShowWords)
open Value (PlainEntry)

variable {α β : Type} {words others : List String}

/-! ## Readings -/

/-- A value shows nothing. -/
theorem showWords_ok (a : α) : ShowWords (issues (.ok a)) [] := .nil

/-- A fault of its own shows no words. -/
theorem showWords_fault {f : ReadFault} (hf : ∀ type, f = .notObject type → Printable type) :
    ShowWords (issues (fault f : Reading α)) [] := by
  intro c hc
  have hpath : ¬ FieldPath.Shows [] c := by simp [FieldPath.Shows]
  simp [issues, fault, Issue.Shows, hpath, (ReadFault.printable_message hf).not_mem hc]

/-- A part shows the words of what is read there. -/
theorem showWords_under {r : Reading α} (h : ShowWords r.issues words) {s : Segment}
    (hs : FieldPath.PrintableNames [s]) : ShowWords (under s r).issues words := by
  rw [issues_under]
  exact h.under hs

/-- Two parts show the words of both. -/
theorem showWords_ap {f : Reading (α → β)} {a : Reading α} (hf : ShowWords f.issues words)
    (ha : ShowWords a.issues others) : ShowWords (ap f a).issues (words ++ others) := by
  rw [issues_ap]
  exact hf.append ha

/-- Another value of a reading shows the same words. -/
theorem showWords_map {r : Reading α} (h : ShowWords r.issues words) (f : α → β) :
    ShowWords (issues (r.map f)) words := by
  rw [issues_map]
  exact h

/-! ## Texts and flags -/

/-- A reader that shows no words of any value. -/
def Silent (read : Value → Reading α) : Prop := ∀ v, ShowWords (read v).issues []

/-- Reading a text shows no words. -/
theorem silent_text : Silent text := by
  intro v
  unfold text
  split
  · exact showWords_ok _
  · exact showWords_ok _
  · split
    · exact showWords_ok _
    · exact showWords_fault (by simp)
  · exact showWords_fault (by simp)

/-- Reading a word shows no words. -/
theorem silent_word : Silent word := by
  have hinteger (n : Int) : ShowWords (wordInteger n).issues [] := by
    unfold wordInteger
    split
    · exact showWords_ok _
    · exact showWords_fault (by simp)
  intro v
  unfold word
  split
  · exact showWords_ok _
  · exact hinteger _
  · exact hinteger _
  · exact showWords_ok _
  · exact showWords_ok _
  · exact silent_text _

/-- Reading a flag from a word shows no words. -/
theorem showWords_flagWord (s : String) : ShowWords (flagWord s).issues [] := by
  simp only [flagWord]
  split
  · exact showWords_ok _
  · split
    · exact showWords_ok _
    · exact showWords_fault (by simp)

/-- Reading a flag from an integer shows no words. -/
theorem showWords_flagNumber (n : Int) : ShowWords (flagNumber n).issues [] := by
  unfold flagNumber
  split
  · exact showWords_ok _
  · split
    · exact showWords_ok _
    · exact showWords_fault (by simp)

/-- Reading a flag shows no words. -/
theorem silent_flag : Silent flag := by
  have hinteger (n : Int) : ShowWords (flagInteger n).issues [] := by
    unfold flagInteger
    split
    · exact showWords_flagNumber _
    · exact showWords_fault (by simp)
  have hdouble (d : Double) : ShowWords (flagDouble d).issues [] := by
    unfold flagDouble
    split
    · split
      · exact showWords_flagNumber _
      · exact showWords_fault (by simp)
    · exact showWords_fault (by simp)
  intro v
  unfold flag
  split
  · exact showWords_ok _
  · exact hinteger _
  · exact hinteger _
  · exact hdouble _
  · exact hdouble _
  · exact showWords_flagWord _
  · exact showWords_flagWord _
  · split
    · exact showWords_flagWord _
    · exact showWords_fault (by simp)
  · exact showWords_fault (by simp)

/-- Reading what may be left unset shows no words if reading it does not. -/
theorem silent_optional {read : Value → Reading α} (h : Silent read) : Silent (optional read) := by
  intro v
  unfold optional
  split
  · exact showWords_ok none
  · exact showWords_map (h v) some

/-! ## Fields and lists -/

/-- A field shows the words of its value. -/
theorem showWords_field {read : Value → Reading α} {given : List (Value × Value)} {name : String}
    {words : Value → List String} (hname : Printable name)
    (h : ∀ v, Value.get? given name = some v → ShowWords (read v).issues (words v)) (default : α) :
    ShowWords (field given name read default).issues
      ((Value.get? given name).toList.flatMap words) := by
  unfold field
  cases hv : Value.get? given name with
  | none => exact showWords_ok default
  | some v => simpa using showWords_under (h v hv) (FieldPath.printableNames_nil.name hname)

/-- A field with a silent reader shows no words. -/
theorem showWords_field_of_silent {read : Value → Reading α} (h : Silent read)
    (given : List (Value × Value)) {name : String} (hname : Printable name) (default : α) :
    ShowWords (field given name read default).issues [] := by
  have hnone : (Value.get? given name).toList.flatMap (fun _ ↦ ([] : List String)) = [] := by
    simp
  rw [← hnone]
  exact showWords_field hname (fun v _ ↦ h v) default

/-- The items of a value; only sequences and sets have any. -/
def itemsOf (v : Value) : List Value := (sequence? v).getD []

/-- Items show the words of each of them. -/
theorem showWords_itemsFrom {read : Value → Reading α} {words : Value → List String}
    {items : List Value} (h : ∀ v ∈ items, ShowWords (read v).issues (words v)) (i : Nat) :
    ShowWords (itemsFrom read i items).issues (items.flatMap words) := by
  induction items generalizing i with
  | nil => exact showWords_ok []
  | cons v rest ih =>
    obtain ⟨hv, hrest⟩ := List.forall_mem_cons.mp h
    rw [itemsFrom, List.flatMap_cons]
    exact showWords_ap (showWords_ap (showWords_ok _)
      (showWords_under hv (FieldPath.printableNames_nil.index i))) (ih hrest (i + 1))

/-- A list shows the words of its items. -/
theorem showWords_listOrUnset {read : Value → Reading α} {words : Value → List String} {v : Value}
    (h : ∀ item ∈ itemsOf v, ShowWords (read item).issues (words item)) :
    ShowWords (listOrUnset read v).issues ((itemsOf v).flatMap words) := by
  unfold listOrUnset
  split
  · exact showWords_ok []
  · unfold list
    unfold itemsOf at h ⊢
    split
    · next items hitems =>
      rw [hitems] at h ⊢
      exact showWords_itemsFrom h 0
    · next hnone =>
      rw [hnone]
      exact showWords_fault (by simp)

/-! ## Keys -/

/-- The words among the keys of a mapping that name no declared field. -/
def strayWords (declared : List String) (given : List (Value × Value)) : List String :=
  (Value.words given).filter (· ∉ declared)

/-- The source form of a plain key is printable. -/
theorem printable_keyLiteral {key : Value} (h : key.isPlain = true) :
    Printable (keyLiteral key) := by
  unfold keyLiteral
  split
  · exact Value.printable_literal (Value.printableNames_of_isPlain h)
  · simp only [printable_append]
    refine ⟨⟨by decide, ?_⟩, by decide⟩
    split
    · decide
    · cases h
    · decide

/-- A key that is no word shows no word. -/
theorem printableNames_keySegment {key : Value} (h : key.isPlain = true)
    (htext : key.text? = none) :
    FieldPath.PrintableNames [keySegment key] := by
  intro name hname
  have hsegment := (List.mem_singleton.mp hname).symm
  unfold keySegment at hsegment
  split at hsegment
  · cases hsegment
  · split at hsegment
    · cases hsegment
    · rw [← Segment.name.inj hsegment]
      exact printable_keyLiteral h
  · cases h
  · rw [htext, Option.getD_none] at hsegment
    rw [← Segment.name.inj hsegment]
    exact printable_keyLiteral h

/-- A key that is a word is found by it. -/
theorem keySegment_of_text? {key : Value} {word : String} (h : key.text? = some word) :
    keySegment key = .name word := by
  unfold keySegment
  split
  · cases h
  · cases h
  · cases h
  · rw [h]
    rfl

/-- A key shows its word if it names no declared field. -/
theorem showWords_keyIssue? {key : Value} (h : key.isPlain = true) (declared : List String) :
    ShowWords (keyIssue? declared key).toList (key.text?.toList.filter (· ∉ declared)) := by
  intro c hc
  have hextra : c ∉ ReadFault.extra.message.toList :=
    (ReadFault.printable_message (by simp)).not_mem hc
  have hkey : c ∉ ReadFault.keyNotText.message.toList :=
    (ReadFault.printable_message (by simp)).not_mem hc
  unfold keyIssue?
  cases htext : key.text? with
  | none =>
    have hsegment := printableNames_keySegment h htext
    simp [Issue.Shows, hsegment.not_shows hc, hkey]
  | some word =>
    by_cases hword : word ∈ declared
    · simp [hword]
    · simp [hword, Issue.Shows, hextra, keySegment_of_text? htext, FieldPath.Shows]

/-- Keys show the words that name no declared field. -/
theorem showWords_keyIssues {given : List (Value × Value)}
    (h : ∀ entry ∈ given, PlainEntry entry) (declared : List String) :
    ShowWords (keyIssues declared given) (strayWords declared given) := by
  induction given with
  | nil => exact .nil
  | cons entry rest ih =>
    obtain ⟨hentry, hrest⟩ := List.forall_mem_cons.mp h
    have hissues : keyIssues declared (entry :: rest) =
        (keyIssue? declared entry.1).toList ++ keyIssues declared rest := by
      unfold keyIssues
      cases hkey : keyIssue? declared entry.1 <;> simp [hkey]
    rw [hissues, strayWords, Value.words_cons, List.filter_append]
    exact (showWords_keyIssue? hentry.1 declared).append (ih hrest)

/-- A structure shows the words of its fields, and those of its keys that name no field. -/
theorem showWords_structureOf_map {types : List ObjectType} {declared : List String}
    {body : List (Value × Value) → Reading α} {given : List (Value × Value)}
    (hbody : ShowWords (body given).issues words) (h : ∀ entry ∈ given, PlainEntry entry) :
    ShowWords (structureOf types declared body (.map given)).issues
      (words ++ strayWords declared given) := by
  have hread : structureOf types declared body (.map given) =
      withIssues (body given) (keyIssues declared given) := rfl
  rw [hread, issues_withIssues]
  exact hbody.append (showWords_keyIssues h declared)

/-- Plain data that is no mapping shows no words where a structure is read. -/
theorem showWords_structureOf_of_not_map {type : ObjectType} {declared : List String}
    {body : List (Value × Value) → Reading α} {v : Value} (hv : v.isPlain = true)
    (hmap : ∀ given, v ≠ .map given) (htype : Printable type.name) :
    ShowWords (structureOf [type] declared body v).issues [] := by
  have hfault : structureOf [type] declared body v = fault (.notObject type.name) := by
    cases v with
    | map given => exact absurd rfl (hmap given)
    | object => cases hv
    | _ => rfl
  rw [hfault]
  refine showWords_fault fun name hname ↦ ?_
  rw [← ReadFault.notObject.inj hname]
  exact htype

end Reading
end RepoManifest
