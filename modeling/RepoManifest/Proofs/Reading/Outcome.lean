import Mathlib.Data.List.Forall2
import RepoManifest.Reading.Mapping

/-!
# Outcomes of readings

A reading gives a value or says why it does not: none fails without an issue, whatever it is given.
So the issues of a reading alone decide whether there is a value.
-/

namespace RepoManifest
namespace Reading

variable {α β : Type}

/-- A reading that fails has at least one issue. -/
def IsExplained (r : Reading α) : Prop := r ≠ .error []

/-- An explained reading gives a value exactly if it has no issues. -/
theorem exists_ok_iff {r : Reading α} (h : r.IsExplained) : (∃ a, r = .ok a) ↔ r.issues = [] := by
  cases r with
  | ok a => simp [issues]
  | error found =>
    have hne : found ≠ [] := fun hnil ↦ h (by rw [hnil])
    simp [issues, hne]

/-- A value is explained. -/
theorem isExplained_ok (a : α) : IsExplained (.ok a) := by simp [IsExplained]

/-- A single fault is explained. -/
theorem isExplained_fault (f : ReadFault) : IsExplained (fault f : Reading α) := by
  simp [IsExplained, fault]

/-- Moving a part in drops no issue. -/
theorem isExplained_under {s : Segment} {r : Reading α} (h : r.IsExplained) :
    (under s r).IsExplained := by
  cases r with
  | ok a => exact isExplained_ok a
  | error found =>
    intro he
    simp only [under, Except.error.injEq, List.map_eq_nil_iff] at he
    exact h (by rw [he])

/-- Changing the value drops no issue. -/
theorem isExplained_map {r : Reading α} (f : α → β) (h : r.IsExplained) :
    IsExplained (r.map f) := by
  cases r with
  | ok a => exact isExplained_ok (f a)
  | error found =>
    intro he
    simp only [Except.map, Except.error.injEq] at he
    exact h (by rw [he])

/-- Reading two parts drops no issue. -/
theorem isExplained_ap {f : Reading (α → β)} {a : Reading α} (hf : f.IsExplained)
    (ha : a.IsExplained) : (ap f a).IsExplained := by
  cases f with
  | ok g =>
    cases a with
    | ok x => exact isExplained_ok (g x)
    | error found => simpa [ap, IsExplained] using ha
  | error found =>
    cases a with
    | ok x => simpa [ap, IsExplained] using hf
    | error more =>
      intro he
      simp only [ap, Except.error.injEq, List.append_eq_nil_iff] at he
      exact hf (by rw [he.1])

/-- Issues found elsewhere come on top. -/
theorem isExplained_withIssues {r : Reading α} (more : List Issue) (h : r.IsExplained) :
    (withIssues r more).IsExplained := by
  cases r with
  | ok a => cases more <;> simp [withIssues, IsExplained]
  | error found =>
    intro he
    simp only [withIssues, Except.error.injEq, List.append_eq_nil_iff] at he
    exact h (by rw [he.1])

/-- Adding issues leaves a value exactly if there are none. -/
theorem withIssues_eq_ok_iff {r : Reading α} {more : List Issue} {a : α} :
    withIssues r more = .ok a ↔ r = .ok a ∧ more = [] := by
  cases r <;> cases more <;> simp [withIssues]

/-- Issues found elsewhere come after those of the reading. -/
theorem issues_withIssues (r : Reading α) (more : List Issue) :
    (withIssues r more).issues = r.issues ++ more := by
  cases r <;> cases more <;> simp [withIssues, issues]

/-- Moving a part in moves its issues in. -/
theorem issues_under (s : Segment) (r : Reading α) :
    (under s r).issues = r.issues.map (Issue.under s) := by
  cases r <;> simp [under, issues]

/-- Changing the value changes no issue. -/
theorem issues_map (f : α → β) (r : Reading α) : issues (r.map f) = r.issues := by
  cases r <;> rfl

/-- A field is explained if its value is, whatever the value. -/
theorem isExplained_field {read : Value → Reading α} (h : ∀ v, (read v).IsExplained)
    (given : List (Value × Value)) (name : String) (default : α) :
    (field given name read default).IsExplained := by
  unfold field
  split
  · exact isExplained_under (h _)
  · exact isExplained_ok default

/-- The entries of a mapping are explained. -/
theorem isExplained_entries (types : List ObjectType) (v : Value) :
    (entries types v).IsExplained := by
  unfold entries
  split
  · exact isExplained_ok _
  · split
    · exact isExplained_ok _
    · exact isExplained_fault _
  · exact isExplained_fault _

/-- The issues of a value that has no entries are issues of what is read from them. -/
theorem isExplained_of_entries_eq_error {types : List ObjectType} {v : Value}
    {found : List Issue} (h : entries types v = .error found) :
    IsExplained (.error found : Reading α) := by
  have hv := isExplained_entries types v
  rw [h] at hv
  simpa [IsExplained] using hv

/-- A structure that is read from the entries of a mapping, with the issues of the keys that name no
field. -/
def structureOf (types : List ObjectType) (declared : List String)
    (body : List (Value × Value) → Reading α) (v : Value) : Reading α :=
  match entries types v with
  | .error issues => .error issues
  | .ok given => withIssues (body given) (keyIssues declared given)

/-! ## Scalars -/

/-- Reading a text is explained. -/
theorem isExplained_text (v : Value) : (text v).IsExplained := by
  unfold text
  split
  · exact isExplained_ok _
  · exact isExplained_ok _
  · split
    · exact isExplained_ok _
    · exact isExplained_fault _
  · exact isExplained_fault _

/-- A text that must not be empty is read exactly if it is not. -/
theorem nonEmptyText_str_eq_ok_iff {s text : String} :
    nonEmptyText (.str s) = .ok text ↔ s ≠ "" ∧ text = s := by
  simp only [nonEmptyText, text_str]
  by_cases h : s = ""
  · have hempty : s.isEmpty = true := by simpa using h
    rw [if_pos hempty]
    exact iff_of_false (fun hread ↦ nomatch hread) fun hboth ↦ hboth.1 h
  · have hsome : ¬ s.isEmpty = true := by simpa using h
    rw [if_neg hsome, Except.ok.injEq]
    exact ⟨fun heq ↦ ⟨h, heq.symm⟩, fun hboth ↦ hboth.2.symm⟩

/-- Reading a word from an integer is explained. -/
theorem isExplained_wordInteger (n : Int) : (wordInteger n).IsExplained := by
  unfold wordInteger
  split
  · exact isExplained_ok _
  · exact isExplained_fault _

/-- Reading a word is explained. -/
theorem isExplained_word (v : Value) : (word v).IsExplained := by
  unfold word
  split
  · exact isExplained_ok _
  · exact isExplained_wordInteger _
  · exact isExplained_wordInteger _
  · exact isExplained_ok _
  · exact isExplained_ok _
  · exact isExplained_text _

/-- Reading a flag from a word is explained. -/
theorem isExplained_flagWord (s : String) : (flagWord s).IsExplained := by
  simp only [flagWord]
  split
  · exact isExplained_ok _
  · split
    · exact isExplained_ok _
    · exact isExplained_fault _

/-- Reading a flag from a number that is looked at is explained. -/
theorem isExplained_flagNumber (n : Int) : (flagNumber n).IsExplained := by
  unfold flagNumber
  split
  · exact isExplained_ok _
  · split
    · exact isExplained_ok _
    · exact isExplained_fault _

/-- Reading a flag from an integer is explained. -/
theorem isExplained_flagInteger (n : Int) : (flagInteger n).IsExplained := by
  unfold flagInteger
  split
  · exact isExplained_flagNumber _
  · exact isExplained_fault _

/-- Reading a flag from a floating-point number is explained. -/
theorem isExplained_flagDouble (d : Double) : (flagDouble d).IsExplained := by
  unfold flagDouble
  split
  · split
    · exact isExplained_flagNumber _
    · exact isExplained_fault _
  · exact isExplained_fault _

/-- Reading a flag is explained. -/
theorem isExplained_flag (v : Value) : (flag v).IsExplained := by
  unfold flag
  split
  · exact isExplained_ok _
  · exact isExplained_flagInteger _
  · exact isExplained_flagInteger _
  · exact isExplained_flagDouble _
  · exact isExplained_flagDouble _
  · exact isExplained_flagWord _
  · exact isExplained_flagWord _
  · split
    · exact isExplained_flagWord _
    · exact isExplained_fault _
  · exact isExplained_fault _

/-- What may be left unset is explained if it is when set. -/
theorem isExplained_optional {read : Value → Reading α} (h : ∀ v, (read v).IsExplained)
    (v : Value) : (optional read v).IsExplained := by
  unfold optional
  split
  · exact isExplained_ok none
  · exact isExplained_map some (h v)

/-! ## Lists -/

/-- Items are explained if each of them is. -/
theorem isExplained_itemsFrom {read : Value → Reading α} (h : ∀ v, (read v).IsExplained)
    (i : Nat) (items : List Value) : (itemsFrom read i items).IsExplained := by
  induction items generalizing i with
  | nil => exact isExplained_ok []
  | cons v rest ih =>
    exact isExplained_ap (isExplained_ap (isExplained_ok _) (isExplained_under (h v))) (ih (i + 1))

/-- A list is explained if its items are. -/
theorem isExplained_listOrUnset {read : Value → Reading α} (h : ∀ v, (read v).IsExplained)
    (v : Value) : (listOrUnset read v).IsExplained := by
  unfold listOrUnset
  split
  · exact isExplained_ok []
  · unfold list
    split
    · exact isExplained_itemsFrom h 0 _
    · exact isExplained_fault _

/-- Items that can all be read are read one by one, in order. -/
theorem itemsFrom_eq_ok_iff {read : Value → Reading α} {i : Nat} {items : List Value}
    {found : List α} :
    itemsFrom read i items = .ok found ↔ List.Forall₂ (fun v a ↦ read v = .ok a) items found := by
  induction items generalizing i found with
  | nil => cases found <;> simp [itemsFrom]
  | cons v rest ih =>
    simp only [itemsFrom, ap_eq_ok_iff, under_eq_ok_iff]
    constructor
    · rintro ⟨_, others, ⟨_, a, ⟨rfl⟩, ha, rfl⟩, hrest, rfl⟩
      exact .cons ha (ih.mp hrest)
    · intro h
      cases h with
      | cons ha hrest => exact ⟨_, _, ⟨_, _, rfl, ha, rfl⟩, ih.mpr hrest, rfl⟩

end Reading
end RepoManifest
