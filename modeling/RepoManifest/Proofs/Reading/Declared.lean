import RepoManifest.Proofs.Reading.Outcome

/-!
# What the entries of a mapping declare

An entry that is missing or null declares that a field is unset; any other value declares what it
stands for. A field that was read holds what its entry declares, and so does a field that was filled
afterwards: filling only replaces what was left unset.
-/

namespace RepoManifest

/-- A value that is a form of falsehood: false itself, a number that equals zero, or one of the
words for a false flag in any letter case of ASCII. -/
inductive Value.SaysFalse : Value → Prop where
  | number {v : Value} (h : v.integer? = some 0) : SaysFalse v
  | word {v : Value} {s : String} (hv : v.text? = some s)
      (hs : s.map Char.toLower ∈ Reading.falseWords) : SaysFalse v
  | bytes {b : List UInt8} {s : String} (hb : Text.decodeUtf8 b = .ok s)
      (hs : s.map Char.toLower ∈ Reading.falseWords) : SaysFalse (.bytes b)

namespace Reading

variable {α β : Type}

/-- What an entry of a mapping declares: `unset` if it is missing or null, and otherwise a result
that its value stands for. -/
def Declared (given : List (Value × Value)) (name : String) (stands : Value → α → Prop) (unset : α)
    (a : α) : Prop :=
  match Value.get? given name with
  | none | some .null => a = unset
  | some v => stands v a

/-- A value stands for what is read from it. -/
def Reads (read : Value → Reading α) (v : Value) (a : α) : Prop := read v = .ok a

/-- A value stands for something set: for what is read from it. -/
def SetTo (read : Value → Reading α) (v : Value) (a : Option α) : Prop :=
  ∃ x, read v = .ok x ∧ a = some x

/-- A sequence stands for a list, item by item. -/
def Each (stands : Value → α → Prop) (v : Value) (found : List α) : Prop :=
  ∃ items, sequence? v = some items ∧ List.Forall₂ stands items found

/-- Whether every key of a mapping names a declared field. -/
def OnlyNames (declared : List String) (given : List (Value × Value)) : Prop :=
  ∀ entry ∈ given, ∃ name ∈ declared, entry.1.text? = some name

/-- A mapping has no key issues exactly if every key names a declared field. -/
theorem keyIssues_eq_nil_iff {declared : List String} {given : List (Value × Value)} :
    keyIssues declared given = [] ↔ OnlyNames declared given := by
  rw [keyIssues, List.filterMap_eq_nil_iff]
  refine forall₂_congr fun entry _ ↦ ?_
  cases hkey : entry.1.text? with
  | none => simp [keyIssue?, hkey]
  | some name => by_cases hd : name ∈ declared <;> simp [keyIssue?, hkey, hd]

/-! ## Fields as read -/

/-- A field that was read holds what its entry declares, if null can only be read as the default. -/
theorem declared_of_field {given : List (Value × Value)} {name : String} {read : Value → Reading α}
    {stands : Value → α → Prop} {default a : α} (h : field given name read default = .ok a)
    (hnull : ∀ x, read .null = .ok x → x = default)
    (hread : ∀ v x, v ≠ .null → read v = .ok x → stands v x) :
    Declared given name stands default a := by
  unfold field at h
  unfold Declared
  split at h
  · next v hv =>
    rw [under_eq_ok_iff] at h
    rw [hv]
    by_cases hn : v = .null
    · subst hn
      exact hnull a h
    · split
      · next heq => cases heq
      · next heq => exact absurd (Option.some.inj heq) hn
      · next w _ heq =>
        obtain rfl := Option.some.inj heq
        exact hread v a hn h
  · next hv =>
    rw [hv]
    simpa using h.symm

/-- A field that must be set if there is an entry holds what is read from it. -/
theorem declared_reads {given : List (Value × Value)} {name : String} {read : Value → Reading α}
    {default a : α} (h : field given name read default = .ok a)
    (hnull : ∀ x, read .null ≠ .ok x) : Declared given name (Reads read) default a :=
  declared_of_field h (fun x hx ↦ absurd hx (hnull x)) fun _ _ _ hx ↦ hx

/-- What may be left unset is read as unset from null, and as something set from anything else. -/
theorem setTo_of_optional {read : Value → Reading α} {v : Value} {x : Option α} (hv : v ≠ .null)
    (h : optional read v = .ok x) : SetTo read v x := by
  unfold optional at h
  split at h
  · exact absurd rfl hv
  · cases hr : read v with
    | error found => simp [hr, Except.map] at h
    | ok a => exact ⟨a, hr, by simpa [hr, Except.map] using h.symm⟩

/-- A field that may be left unset holds what its entry declares. -/
theorem declared_setTo {given : List (Value × Value)} {name : String} {read : Value → Reading α}
    {a : Option α} (h : field given name (optional read) none = .ok a) :
    Declared given name (SetTo read) none a := by
  refine declared_of_field h (fun x hx ↦ ?_) fun v x hv hx ↦ setTo_of_optional hv hx
  simpa [optional] using hx.symm

/-- A list field holds what its entry declares, item by item. -/
theorem declared_each {given : List (Value × Value)} {name : String} {read : Value → Reading α}
    {found : List α} (h : field given name (listOrUnset read) [] = .ok found) :
    Declared given name (Each (Reads read)) [] found := by
  refine declared_of_field h (fun x hx ↦ ?_) fun v x hv hx ↦ ?_
  · simpa [listOrUnset] using hx.symm
  · unfold listOrUnset at hx
    split at hx
    · exact absurd rfl hv
    · unfold list at hx
      split at hx
      · next items hs => exact ⟨items, hs, itemsFrom_eq_ok_iff.mp hx⟩
      · simp [fault] at hx

/-- No text is read from null. -/
theorem text_null (s : String) : text .null ≠ .ok s := by simp [text, fault]

/-- No word is read from null. -/
theorem word_null (s : String) : word .null ≠ .ok s := by simp [word, text, fault]

/-! ## Fields as filled -/

/-- What holds of every value but null carries a declaration over to another one. -/
theorem Declared.imp {given : List (Value × Value)} {name : String} {stands : Value → α → Prop}
    {stands' : Value → β → Prop} {unset a : α} {unset' b : β}
    (h : Declared given name stands unset a) (hunset : a = unset → b = unset')
    (hstands : ∀ v, Value.get? given name = some v → stands v a → stands' v b) :
    Declared given name stands' unset' b := by
  unfold Declared at h ⊢
  split at h
  · exact hunset h
  · exact hunset h
  · next v _ hv => exact hstands v hv h

/-- A filled field that differs from its default was set by its entry. -/
theorem exists_entry_of_declared {given : List (Value × Value)} {name : String}
    {stands : Value → α → Prop} {unset a : α} (h : Declared given name stands unset a)
    (hne : a ≠ unset) : ∃ v, Value.get? given name = some v ∧ stands v a := by
  unfold Declared at h
  split at h
  · exact absurd h hne
  · exact absurd h hne
  · next v _ hv => exact ⟨v, hv, h⟩

/-- A list of filled items is declared item by item. -/
theorem declared_map {given : List (Value × Value)} {name : String}
    {read : Value → Reading α} {stands : Value → α → Prop} {fill : α → α} {found : List α}
    (h : Declared given name (Each (Reads read)) [] found)
    (hfill : ∀ v a, read v = .ok a → stands v (fill a)) :
    Declared given name (Each stands) [] (found.map fill) := by
  refine h.imp (fun hn ↦ by rw [hn]; rfl) fun v _ hv ↦ ?_
  obtain ⟨items, hs, hitems⟩ := hv
  exact ⟨items, hs, List.forall₂_map_right_iff.mpr (hitems.imp fun v a ha ↦ hfill v a ha)⟩

/-! ## Flags -/

/-- The words for a true flag are not words for a false one. -/
theorem not_mem_trueWords {s : String} (h : s ∈ falseWords) : s ∉ trueWords := by
  simp only [falseWords, List.mem_cons, List.not_mem_nil, or_false] at h
  rcases h with rfl | rfl | rfl | rfl | rfl | rfl <;> decide

/-- A word is read as a false flag exactly if it is one of the words for it. -/
theorem flagWord_eq_false_iff {s : String} :
    flagWord s = .ok false ↔ s.map Char.toLower ∈ falseWords := by
  simp only [flagWord]
  constructor
  · intro h
    split at h
    · simp at h
    · split at h
      · next hf => exact hf
      · simp [fault] at h
  · intro h
    rw [if_neg (not_mem_trueWords h), if_pos h]

/-- An integer is read as a false flag exactly if it is zero. -/
theorem flagNumber_eq_false_iff {n : Int} : flagNumber n = .ok false ↔ n = 0 := by
  unfold flagNumber
  by_cases hz : n = 0
  · simp [hz]
  · by_cases ho : n = 1 <;> simp [hz, ho, fault]

/-- An integer of any size is read as a false flag exactly if it is zero. -/
theorem flagInteger_eq_false_iff {n : Int} : flagInteger n = .ok false ↔ n = 0 := by
  unfold flagInteger
  split
  · exact flagNumber_eq_false_iff
  · next hword =>
    have hzero : n ≠ 0 := fun hzero ↦ hword (hzero ▸ rfl)
    simp [fault, hzero]

/-- A floating-point number is read as a false flag exactly if it is zero. -/
theorem flagDouble_eq_false_iff {d : Double} : flagDouble d = .ok false ↔ d.integer? = some 0 := by
  unfold flagDouble
  split
  · next n hn =>
    rw [hn, Option.some.injEq]
    split
    · exact flagNumber_eq_false_iff
    · next hword =>
      have hzero : n ≠ 0 := fun hzero ↦ hword (hzero ▸ rfl)
      simp [fault, hzero]
  · next hnone => simp [fault, hnone]

/-- A flag that is read as false was given in a form of falsehood. -/
theorem saysFalse_of_flag {v : Value} (h : flag v = .ok false) : v.SaysFalse := by
  unfold flag at h
  split at h
  · next b =>
    obtain rfl : b = false := by simpa using h
    exact .number rfl
  · exact .number (congrArg some (flagInteger_eq_false_iff.mp h))
  · exact .number (congrArg some (flagInteger_eq_false_iff.mp h))
  · exact .number (flagDouble_eq_false_iff.mp h)
  · exact .number (flagDouble_eq_false_iff.mp h)
  · next s => exact .word rfl (flagWord_eq_false_iff.mp h)
  · next s => exact .word rfl (flagWord_eq_false_iff.mp h)
  · next b =>
    split at h
    · next s hs => exact .bytes hs (flagWord_eq_false_iff.mp h)
    · simp [fault] at h
  · simp [fault] at h

/-- Every form of falsehood is read as a false flag. -/
theorem flag_of_saysFalse {v : Value} (h : v.SaysFalse) : flag v = .ok false := by
  cases h with
  | number hv =>
    unfold Value.integer? at hv
    split at hv
    · next b => cases b with
      | true => cases hv
      | false => rfl
    · exact flagInteger_eq_false_iff.mpr (Option.some.inj hv)
    · exact flagInteger_eq_false_iff.mpr (Option.some.inj hv)
    · exact flagDouble_eq_false_iff.mpr hv
    · exact flagDouble_eq_false_iff.mpr hv
    · cases hv
  | word hv hs =>
    unfold Value.text? at hv
    split at hv
    · obtain rfl := Option.some.inj hv
      exact flagWord_eq_false_iff.mpr hs
    · obtain rfl := Option.some.inj hv
      exact flagWord_eq_false_iff.mpr hs
    · cases hv
  | bytes hb hs =>
    simp only [flag, hb]
    exact flagWord_eq_false_iff.mpr hs

/-- The forms of falsehood are exactly the values that are read as a false flag. -/
theorem flag_eq_false_iff {v : Value} : flag v = .ok false ↔ v.SaysFalse :=
  ⟨saysFalse_of_flag, flag_of_saysFalse⟩

end Reading
end RepoManifest
