import RepoManifest.Proofs.Reading.Outcome
import RepoManifest.Proofs.Value.Reordered

/-!
# Reading values with reordered keys

Two readings are alike if both give one value, or both fail with the same issues in any order. A
reader ignores the order of keys if it reads reordered values alike. Readers of texts, flags and
lists do, and so does whatever is read field by field from readers that do.
-/

namespace RepoManifest.Reading

open Value (Reordered)

variable {α β : Type} {es gs : List (Value × Value)}

/-- Two readings that give one value, or fail with the same issues in any order. -/
inductive Alike : Reading α → Reading α → Prop where
  | ok (a : α) : Alike (.ok a) (.ok a)
  | error {found others : List Issue} (h : found.Perm others) :
      Alike (.error found) (.error others)

/-- A reader that reads reordered values alike. -/
def IgnoresOrder (read : Value → Reading α) : Prop :=
  ∀ v w, Reordered v w → Alike (read v) (read w)

namespace Alike

/-- A reading is like itself. -/
theorem refl (r : Reading α) : Alike r r := by
  cases r with
  | ok a => exact .ok a
  | error found => exact .error (.refl found)

/-- Equal readings are alike. -/
theorem of_eq {r s : Reading α} (h : r = s) : Alike r s := h ▸ refl r

/-- Alike readings have the same issues. -/
theorem issues_perm {r s : Reading α} (h : Alike r s) : r.issues.Perm s.issues := by
  cases h with
  | ok => exact .refl _
  | error h => exact h

/-- Alike readings give the same value, if any. -/
theorem toOption_eq {r s : Reading α} (h : Alike r s) : r.toOption = s.toOption := by
  cases h <;> rfl

/-- Changing the value keeps readings alike. -/
theorem map {r s : Reading α} (f : α → β) (h : Alike r s) : Alike (r.map f) (s.map f) := by
  cases h with
  | ok a => exact .ok (f a)
  | error h => exact .error h

/-- Moving a part in keeps readings alike. -/
theorem under {r s : Reading α} (name : Segment) (h : Alike r s) :
    Alike (under name r) (under name s) := by
  cases h with
  | ok a => exact .ok a
  | error h => exact .error (h.map _)

/-- Reading two parts keeps readings alike. -/
theorem ap {f g : Reading (α → β)} {a b : Reading α} (hf : Alike f g) (ha : Alike a b) :
    Alike (ap f a) (ap g b) := by
  cases hf with
  | ok f =>
    cases ha with
    | ok a => exact .ok (f a)
    | error h => exact .error h
  | error h =>
    cases ha with
    | ok a => exact .error h
    | error h' => exact .error (h.append h')

/-- Adding the same issues in any order keeps readings alike. -/
theorem withIssues {r s : Reading α} {found others : List Issue} (h : Alike r s)
    (hfound : found.Perm others) : Alike (withIssues r found) (withIssues s others) := by
  cases h with
  | ok a =>
    cases found with
    | nil =>
      rw [List.nil_perm.mp hfound]
      exact .ok a
    | cons i rest =>
      cases others with
      | nil => cases hfound.eq_nil
      | cons j more => exact .error hfound
  | error h => exact .error (h.append hfound)

end Alike

/-! ## Texts, flags and lists -/

/-- Reading a text ignores the order of keys. -/
theorem ignoresOrder_text : IgnoresOrder text := by
  intro v w h
  cases h with
  | same => exact .refl _
  | list | tuple | map => exact .of_eq rfl

/-- Reading a word ignores the order of keys. -/
theorem ignoresOrder_word : IgnoresOrder word := by
  intro v w h
  cases h with
  | same => exact .refl _
  | list | tuple | map => exact .of_eq rfl

/-- Reading a flag ignores the order of keys. -/
theorem ignoresOrder_flag : IgnoresOrder flag := by
  intro v w h
  cases h with
  | same => exact .refl _
  | list | tuple | map => exact .of_eq rfl

/-- Reading what may be left unset ignores the order of keys if reading it does. -/
theorem ignoresOrder_optional {read : Value → Reading α} (h : IgnoresOrder read) :
    IgnoresOrder (optional read) := by
  intro v w hvw
  have hread := h v w hvw
  cases hvw with
  | same => exact .refl _
  | list | tuple | map => exact hread.map some

/-- Reading items ignores the order of keys if reading an item does. -/
theorem alike_itemsFrom {read : Value → Reading α} (h : IgnoresOrder read) {vs ws : List Value}
    (hitems : List.Forall₂ Reordered vs ws) (i : Nat) :
    Alike (itemsFrom read i vs) (itemsFrom read i ws) := by
  induction hitems generalizing i with
  | nil => exact .ok []
  | cons hvw _ ih => exact .ap (.ap (.ok _) (.under _ (h _ _ hvw))) (ih (i + 1))

/-- Reading a list ignores the order of keys if reading an item does. -/
theorem ignoresOrder_listOrUnset {read : Value → Reading α} (h : IgnoresOrder read) :
    IgnoresOrder (listOrUnset read) := by
  intro v w hvw
  cases hvw with
  | same => exact .refl _
  | list items | tuple items => exact alike_itemsFrom h items 0
  | map => exact .of_eq rfl

/-! ## Mappings -/

/-- A field of reordered mappings is read alike if reading its value ignores the order of keys. -/
theorem alike_field {read : Value → Reading α} (hread : IgnoresOrder read)
    (h : Reordered (.map es) (.map gs)) (name : String) (default : α) :
    Alike (field es name read default) (field gs name read default) := by
  have hvalue := h.rel_get? name
  unfold field
  generalize Value.get? es name = v at hvalue ⊢
  generalize Value.get? gs name = w at hvalue ⊢
  cases hvalue with
  | none => exact .ok default
  | some hvw => exact .under _ (hread _ _ hvw)

/-- The keys of reordered mappings have the same issues. -/
theorem keyIssues_perm (h : Reordered (.map es) (.map gs)) (declared : List String) :
    (keyIssues declared es).Perm (keyIssues declared gs) := by
  have hkeys := h.keys_perm.filterMap (keyIssue? declared)
  rw [List.filterMap_map, List.filterMap_map] at hkeys
  exact hkeys

/-- Reading a structure ignores the order of keys if reading its fields does. -/
theorem ignoresOrder_structureOf {types : List ObjectType} {declared : List String}
    {body : List (Value × Value) → Reading α}
    (hbody : ∀ es gs, Reordered (.map es) (.map gs) → Alike (body es) (body gs)) :
    IgnoresOrder (structureOf types declared body) := by
  intro v w h
  cases h with
  | same => exact .refl _
  | list | tuple => exact .of_eq rfl
  | map distinct order values =>
    have hmap := Reordered.map distinct order values
    exact .withIssues (hbody _ _ hmap) (keyIssues_perm hmap declared)

end RepoManifest.Reading
