import Mathlib.Data.List.Forall2
import RepoManifest.Config.Load
import RepoManifest.Proofs.Resource.Validity

/-!
# Numbered entries

Each item of the repositories section is read under its position. If every item can be read, the
filled entries follow the items one by one. No name is reported exactly if the names that are not
empty are distinct, and no violation exactly if no entry has findings.
-/

namespace RepoManifest

/-! ## Names -/

namespace Duplicate

/-- The names that count: those that are not empty, in order. -/
def counted (names : List (Int × String)) : List String :=
  (names.map (·.2)).filter (· ≠ "")

/-- An empty name does not count. -/
theorem counted_cons_empty (i : Int) (rest : List (Int × String)) :
    counted ((i, "") :: rest) = counted rest := rfl

/-- Any other name counts. -/
theorem counted_cons {name : String} (h : name ≠ "") (i : Int) (rest : List (Int × String)) :
    counted ((i, name) :: rest) = name :: counted rest := by
  simp [counted, h]

/-- Nothing is reported exactly if the names that count are distinct and were not seen before. -/
theorem findFrom_eq_nil_iff {seen : List (String × Int)} {names : List (Int × String)} :
    findFrom seen names = [] ↔
      (counted names).Nodup ∧ ∀ name ∈ counted names, seen.lookup name = none := by
  induction names generalizing seen with
  | nil => simp [findFrom, counted]
  | cons entry rest ih =>
    obtain ⟨i, name⟩ := entry
    by_cases hempty : name = ""
    · subst hempty
      rw [counted_cons_empty, ← ih]
      simp [findFrom]
    · rw [counted_cons hempty, List.nodup_cons, List.forall_mem_cons]
      have hb : name.isEmpty = false := by simpa using hempty
      cases hseen : seen.lookup name with
      | some first => simp [findFrom, hb, hseen]
      | none =>
        -- A name is unseen after this one exactly if it is another name and was unseen before.
        have hlater (other : String) :
            List.lookup other ((name, i) :: seen) = none ↔
              other ≠ name ∧ seen.lookup other = none := by
          rw [List.lookup_cons]
          by_cases ho : other = name
          · have hbeq : (other == name) = true := by simpa using ho
            rw [hbeq]
            constructor
            · intro h
              cases h
            · intro h
              exact absurd ho h.1
          · have hbeq : (other == name) = false := by simpa using ho
            rw [hbeq]
            exact ⟨fun h ↦ ⟨ho, h⟩, fun h ↦ h.2⟩
        simp only [findFrom, hb, hseen, Bool.false_eq_true, if_false, ih, hlater, true_and]
        constructor
        · rintro ⟨hnodup, hrest⟩
          exact ⟨⟨fun hm ↦ (hrest name hm).1 rfl, hnodup⟩, fun other ho ↦ (hrest other ho).2⟩
        · rintro ⟨⟨hnot, hnodup⟩, hrest⟩
          exact ⟨hnodup, fun other ho ↦ ⟨fun he ↦ hnot (he ▸ ho), hrest other ho⟩⟩

/-- No name is reported exactly if the names that count are distinct. -/
theorem find_eq_nil_iff {names : List (Int × String)} :
    find names = [] ↔ (counted names).Nodup := by
  simp [find, findFrom_eq_nil_iff]

end Duplicate

namespace Manifest

/-! ## Entries -/

/-- Each item is read under its position. -/
theorem readEntries_eq (n : Nat) (items : List Value) :
    readEntries n items =
      (items.zipIdx n).map fun (v, i) ↦ (i, (RepositoryEntry.read v).map (·.default)) := by
  induction items generalizing n with
  | nil => rfl
  | cons v rest ih => rw [readEntries, ih, List.zipIdx_cons, List.map_cons]

/-- The problems of items that cannot be read are their issues. -/
theorem unreadable_readEntries (n : Nat) (items : List Value) :
    unreadable (readEntries n items) =
      (items.zipIdx n).flatMap fun (v, i) ↦ (RepositoryEntry.read v).issues.map (.entry i) := by
  rw [readEntries_eq, unreadable, List.flatMap_map]
  congr 1
  funext entry
  obtain ⟨v, i⟩ := entry
  cases h : RepositoryEntry.read v <;> simp [h, Except.map, Reading.issues]

/-- The entries are the filled ones among the items that can be read. -/
theorem readable_readEntries (n : Nat) (items : List Value) :
    readable (readEntries n items) =
      (items.zipIdx n).filterMap fun (v, i) ↦
        (RepositoryEntry.read v).toOption.map fun e ↦ (i, e.default) := by
  rw [readEntries_eq, readable, List.filterMap_map]
  congr 1
  funext entry
  obtain ⟨v, i⟩ := entry
  cases h : RepositoryEntry.read v <;> simp [h, Except.map, Except.toOption]

/-- Nothing is unreadable exactly if no item has issues. -/
theorem unreadable_readEntries_eq_nil_iff {n : Nat} {items : List Value} :
    unreadable (readEntries n items) = [] ↔
      ∀ v ∈ items, (RepositoryEntry.read v).issues = [] := by
  rw [unreadable_readEntries]
  induction items generalizing n with
  | nil => simp
  | cons v rest ih =>
    rw [List.zipIdx_cons, List.flatMap_cons, List.append_eq_nil_iff, List.map_eq_nil_iff, ih,
      List.forall_mem_cons]

/-- Every entry that could be read is filled. -/
theorem default_of_mem_readable {n : Nat} {items : List Value} {entry : Nat × RepositoryEntry}
    (h : entry ∈ readable (readEntries n items)) : entry.2.default = entry.2 := by
  rw [readable_readEntries] at h
  obtain ⟨⟨v, i⟩, _, hread⟩ := List.mem_filterMap.mp h
  obtain ⟨r, _, rfl⟩ := Option.map_eq_some_iff.mp hread
  exact r.default_default

/-- If nothing is unreadable, the filled entries follow the items one by one. -/
theorem forall₂_readable {n : Nat} {items : List Value}
    (h : ∀ v ∈ items, ∃ r, RepositoryEntry.read v = .ok r) :
    List.Forall₂ (fun v e ↦ ∃ r, RepositoryEntry.read v = .ok r ∧ e = r.default) items
      ((readable (readEntries n items)).map (·.2)) := by
  rw [readable_readEntries]
  induction items generalizing n with
  | nil => exact .nil
  | cons v rest ih =>
    obtain ⟨r, hr⟩ := h v (List.mem_cons_self ..)
    have hrest := ih (n := n + 1) fun w hw ↦ h w (List.mem_cons_of_mem _ hw)
    simp only [List.zipIdx_cons, List.filterMap_cons, hr, Except.toOption, Option.map_some,
      List.map_cons]
    exact .cons ⟨r, hr, rfl⟩ hrest

/-- There are no violations exactly if no entry has findings. -/
theorem violations_eq_nil_iff {found : List (Nat × RepositoryEntry)} :
    violations found = [] ↔ ∀ entry ∈ found, entry.2.toObject.findings [] = [] := by
  rw [violations, List.flatMap_eq_nil_iff]
  refine forall₂_congr fun entry _ ↦ ?_
  rw [List.map_eq_nil_iff, Value.findings_eq_map_under, List.map_eq_nil_iff]

/-- Filled entries without violations are valid. -/
theorem valid_of_violations_eq_nil {n : Nat} {items : List Value}
    (h : violations (readable (readEntries n items)) = []) :
    ∀ entry ∈ readable (readEntries n items), entry.2.Valid := by
  intro entry hmem
  rw [RepositoryEntry.valid_iff]
  exact ⟨violations_eq_nil_iff.mp h entry hmem, default_of_mem_readable hmem⟩

/-- If no entry is unnamed, no name is reported exactly if the names are distinct. -/
theorem duplicates_eq_nil_iff {found : List (Nat × RepositoryEntry)}
    (h : ∀ entry ∈ found, entry.2.name ≠ "") :
    duplicates found = [] ↔ (found.map fun entry ↦ entry.2.name).Nodup := by
  have hcounted : Duplicate.counted (found.map fun entry ↦ ((entry.1 : Int), entry.2.name)) =
      found.map fun entry ↦ entry.2.name := by
    rw [Duplicate.counted, List.map_map, List.filter_eq_self.mpr]
    · rfl
    · intro name hname
      obtain ⟨entry, hmem, rfl⟩ := List.mem_map.mp hname
      simpa using h entry hmem
  rw [duplicates, List.map_eq_nil_iff, Duplicate.find_eq_nil_iff, ← hcounted]

end Manifest
end RepoManifest
