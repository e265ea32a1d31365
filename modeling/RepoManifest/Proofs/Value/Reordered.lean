import Mathlib.Data.List.Find
import Mathlib.Data.List.Forall2
import Mathlib.Data.List.Pairwise
import RepoManifest.Proofs.Value.Lookup

/-!
# Values with reordered keys

Two values are reorderings of each other if they differ in nothing but the order of the keys of
mappings, at any depth. A mapping has each word as a key at most once, so a word finds values that
are again reorderings; and so does any other search that at most one entry can answer.
-/

namespace RepoManifest.Value

/-- Two entries that have one key and related values. -/
inductive UnderSameKey (R : Value → Value → Prop) : Value × Value → Value × Value → Prop where
  | intro (k : Value) {v w : Value} (h : R v w) : UnderSameKey R (k, v) (k, w)

/-- Two values that differ in nothing but the order of the keys of mappings. Items of sequences keep
their places. A mapping whose keys are moved has each word as a key at most once. -/
inductive Reordered : Value → Value → Prop where
  | same (v : Value) : Reordered v v
  | list {vs ws : List Value} (items : List.Forall₂ Reordered vs ws) :
      Reordered (.list vs) (.list ws)
  | tuple {vs ws : List Value} (items : List.Forall₂ Reordered vs ws) :
      Reordered (.tuple vs) (.tuple ws)
  | map {es fs gs : List (Value × Value)} (distinct : (words es).Nodup) (order : es.Perm fs)
      (values : List.Forall₂ (UnderSameKey Reordered) fs gs) : Reordered (.map es) (.map gs)

variable {es gs : List (Value × Value)}

/-- Entries of one mapping whose keys are one word are one entry. -/
theorem eq_of_text?_eq (hwords : (words es).Nodup) {e f : Value × Value} (he : e ∈ es)
    (hf : f ∈ es) {name : String} (hename : e.1.text? = some name)
    (hfname : f.1.text? = some name) : e = f := by
  have hsymm : Std.Symm fun e f : Value × Value ↦
      ∀ n, e.1.text? = some n → ∀ m, f.1.text? = some m → n ≠ m :=
    ⟨fun _ _ h n hn m hm heq ↦ h m hm n hn heq.symm⟩
  by_contra hne
  exact (List.pairwise_filterMap.mp hwords).forall he hf hne name hename name hfname rfl

namespace Reordered

/-- Reordered mappings have the same keys. -/
theorem keys_perm (h : Reordered (.map es) (.map gs)) : (es.map (·.1)).Perm (gs.map (·.1)) := by
  cases h with
  | same => exact .refl _
  | map _ order values =>
    refine (order.map _).trans (.of_eq ?_)
    clear order
    induction values with
    | nil => rfl
    | cons hentry _ ih =>
      cases hentry
      rw [List.map_cons, List.map_cons, ih]

/-- What a search finds is a reordering of itself. -/
theorem rel_self (found : Option Value) : Option.Rel Reordered found found := by
  cases found with
  | none => exact .none
  | some v => exact .some (.same v)

/-- Reordered mappings have the same words for keys. -/
theorem words_perm (h : Reordered (.map es) (.map gs)) : (words es).Perm (words gs) := by
  have hkeys := h.keys_perm.filterMap text?
  rw [List.filterMap_map, List.filterMap_map] at hkeys
  exact hkeys

/-- Searching reordered mappings for a key finds reordered values or nothing, if at most one entry
can be found. -/
theorem rel_find? (h : Reordered (.map es) (.map gs)) {p : Value → Bool}
    (hone : (words es).Nodup → ∀ e ∈ es, ∀ f ∈ es, p e.1 = true → p f.1 = true → e = f) :
    Option.Rel Reordered ((es.find? fun e ↦ p e.1).map (·.2))
      ((gs.find? fun e ↦ p e.1).map (·.2)) := by
  cases h with
  | same => exact rel_self _
  | map distinct order values =>
    rw [List.find?_eq_find?_of_perm order fun e he f hf ↦
      hone distinct e he.1 f hf.1 he.2 hf.2]
    clear order
    induction values with
    | nil => exact .none
    | cons hentry _ ih =>
      cases hentry with
      | intro k hvalue =>
        cases hk : p k with
        | true => simpa [hk] using Option.Rel.some hvalue
        | false => simpa [hk] using ih

/-- A word finds reordered values in reordered mappings, or nothing in both. -/
theorem rel_get? (h : Reordered (.map es) (.map gs)) (name : String) :
    Option.Rel Reordered (get? es name) (get? gs name) := by
  refine h.rel_find? (p := fun k ↦ k.equal (.str name)) fun hwords e he f hf hename hfname ↦ ?_
  exact eq_of_text?_eq hwords he hf (equal_str_iff.mp hename) (equal_str_iff.mp hfname)

/-- Reordered values count as true alike. -/
theorem truthy_eq {v w : Value} (h : Reordered v w) : v.truthy = w.truthy := by
  have hempty {α : Type} {xs ys : List α} (hlength : xs.length = ys.length) :
      xs.isEmpty = ys.isEmpty := by
    cases xs <;> cases ys <;> simp_all
  cases h with
  | same => rfl
  | list items | tuple items => simp only [truthy, hempty items.length_eq]
  | map _ order values => simp only [truthy, hempty (order.length_eq.trans values.length_eq)]

end Reordered
end RepoManifest.Value
