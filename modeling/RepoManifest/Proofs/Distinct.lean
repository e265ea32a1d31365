import Mathlib.Data.List.Induction
import Mathlib.Data.List.Nodup
import RepoManifest.Vocabulary

/-!
# Distinct elements

The distinct elements of a list, each where it occurs first. One more element goes last, unless it
occurred before; everything else about them follows from that, by induction from the right.
-/

namespace RepoManifest

variable {α : Type} [DecidableEq α]

/-- One more element goes last, unless it occurred before. -/
theorem eraseDups_concat (l : List α) (a : α) :
    (l ++ [a]).eraseDups = l.eraseDups ++ if a ∈ l then [] else [a] := by
  rw [List.eraseDups_append]
  split <;> simp_all [List.removeAll, List.eraseDups_cons]

/-- Distinct elements are found one by one in the same way. -/
theorem distinctBy_concat (l : List α) (a : α) :
    distinctBy (· == ·) (l ++ [a]) = distinctBy (· == ·) l ++ if a ∈ l then [] else [a] := by
  induction l with
  | nil => rfl
  | cons b rest ih =>
    rw [List.cons_append, distinctBy, ih, List.filter_append, distinctBy, List.cons_append]
    by_cases hb : a = b
    · subst hb
      by_cases hrest : a ∈ rest <;> simp [hrest]
    · have hne : (b == a) = false := beq_eq_false_iff_ne.mpr fun h ↦ hb h.symm
      by_cases hrest : a ∈ rest <;> simp [hrest, hb, hne]

/-- Under equality the distinct elements are what is left once later occurrences are erased. -/
theorem distinctBy_eq_eraseDups (l : List α) : distinctBy (· == ·) l = l.eraseDups := by
  induction l using List.reverseRecOn with
  | nil => rfl
  | append_singleton l a ih => rw [distinctBy_concat, eraseDups_concat, ih]

/-- No element occurs twice among them. -/
theorem nodup_eraseDups (l : List α) : l.eraseDups.Nodup := by
  induction l using List.reverseRecOn with
  | nil => exact List.nodup_nil
  | append_singleton l a ih =>
    rw [eraseDups_concat]
    split
    · rwa [List.append_nil]
    · next ha =>
      rw [← List.mem_eraseDups] at ha
      exact List.Nodup.append ih (List.nodup_singleton a) (List.disjoint_singleton.mpr ha)

/-- Elements that are distinct are all of them. -/
theorem eraseDups_eq_self {l : List α} (h : l.Nodup) : l.eraseDups = l := by
  induction l using List.reverseRecOn with
  | nil => rfl
  | append_singleton l a ih =>
    rw [← List.concat_eq_append, List.nodup_concat] at h
    obtain ⟨hnot, hl⟩ := h
    rw [eraseDups_concat, ih hl, if_neg hnot]

end RepoManifest
