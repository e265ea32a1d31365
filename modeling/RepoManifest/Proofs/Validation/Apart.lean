import Mathlib.Data.Set.Operations
import RepoManifest.Proofs.Text.Cut
import RepoManifest.Proofs.Validation.FieldPath
import RepoManifest.Proofs.Value.Numeral

/-!
# Paths told apart by their written form

A position is written in brackets, and a name behind a dot unless it stands first. So every step
but a first name begins with a mark, a dot or an opening bracket, and a written path can be cut at
its marks, unless a name is empty or holds one itself. Two paths without such names are never
written alike, whether they stand alone or below one root.
-/

namespace RepoManifest

open Text

/-- The characters that a step begins with. -/
def isMark (c : Char) : Bool := c == '.' || c == '['

namespace Segment

/-- A step that is found again in a written path: a position, or a name that is not empty and holds
no mark. -/
def Bare : Segment → Prop
  | .name s => s ≠ "" ∧ '.' ∉ s.toList ∧ '[' ∉ s.toList
  | .index _ => True

instance : DecidablePred Bare
  | .name s => inferInstanceAs (Decidable (s ≠ "" ∧ '.' ∉ s.toList ∧ '[' ∉ s.toList))
  | .index _ => inferInstanceAs (Decidable True)

end Segment

namespace FieldPath

/-- Every step of a path is found again. -/
def Bare (path : FieldPath) : Prop := ∀ s ∈ path, s.Bare

instance : DecidablePred Bare := fun path ↦ inferInstanceAs (Decidable (∀ s ∈ path, s.Bare))

/-- A written path with the mark that a first name goes without. -/
def withMark : List Char → List Char
  | [] => []
  | c :: rest => if c = '[' then c :: rest else '.' :: c :: rest

/-! ## From written paths to marks -/

/-- The marks of a path are found from its written form. -/
theorem withMark_join {path : FieldPath} (h : path.Bare) :
    withMark (join path).toList = marked path := by
  cases path with
  | nil => rfl
  | cons s rest =>
    cases s with
    | name n =>
      obtain ⟨hne, -, hbracket⟩ := h _ (List.mem_cons_self ..)
      obtain ⟨c, tail, hn⟩ := List.exists_cons_of_ne_nil (String.toList_eq_nil_iff.not.mpr hne)
      rw [hn, List.mem_cons, not_or] at hbracket
      rw [toList_join_name hne, marked_cons, Segment.marked, hn, List.cons_append, withMark,
        if_neg (Ne.symm hbracket.1), List.cons_append, List.cons_append]
    | index n =>
      rw [toList_join_index, marked_cons, Segment.marked, List.cons_append, withMark, if_pos rfl]

/-! ## Cutting at marks -/

/-- A name ends where the next step begins. -/
theorem takeWhile_name {n : String} (h : (Segment.name n).Bare) (rest : FieldPath) :
    (n.toList ++ marked rest).takeWhile (!isMark ·) = n.toList := by
  obtain ⟨-, hdot, hbracket⟩ := h
  have hname : ∀ c ∈ n.toList, (!isMark c) = true := by
    intro c hc
    have hmarks : c ≠ '.' ∧ c ≠ '[' := ⟨fun h ↦ hdot (h ▸ hc), fun h ↦ hbracket (h ▸ hc)⟩
    simp [isMark, hmarks]
  have hrest : (marked rest).takeWhile (!isMark ·) = [] := by
    cases rest with
    | nil => rfl
    | cons s rest => cases s <;> simp [marked, Segment.marked, isMark]
  rw [List.takeWhile_append_of_pos hname, hrest, List.append_nil]

/-- A position ends with the first closing bracket. -/
theorem cutAt?_index (n : Int) (rest : List Char) :
    cutAt? [']'] ((toString n).toList ++ [']'] ++ rest) = some ((toString n).toList, rest) := by
  refine cutAt?_append (fun h ↦ ?_) rest
  exact absurd (mem_numerals_of_mem_toString h) (by decide)

/-- Where two paths go on alike behind their first steps, these are the same step. -/
theorem marked_append_inj {s t : Segment} (hs : s.Bare) (ht : t.Bare) {p q : FieldPath}
    (h : s.marked ++ marked p = t.marked ++ marked q) : s = t ∧ marked p = marked q := by
  cases s with
  | name a =>
    cases t with
    | name b =>
      have h : a.toList ++ marked p = b.toList ++ marked q := List.tail_eq_of_cons_eq h
      have hname : a.toList = b.toList := by
        rw [← takeWhile_name hs p, h, takeWhile_name ht q]
      rw [hname] at h
      exact ⟨congrArg Segment.name (String.toList_inj.mp hname), List.append_cancel_left h⟩
    | index n => exact absurd (List.head_eq_of_cons_eq h) (by decide)
  | index m =>
    cases t with
    | name b => exact absurd (List.head_eq_of_cons_eq h) (by decide)
    | index n =>
      have h : (toString m).toList ++ [']'] ++ marked p =
          (toString n).toList ++ [']'] ++ marked q := List.tail_eq_of_cons_eq h
      have hcut := congrArg (cutAt? [']']) h
      rw [cutAt?_index, cutAt?_index, Option.some.injEq, Prod.mk.injEq] at hcut
      obtain ⟨hdigits, hrest⟩ := hcut
      exact ⟨congrArg Segment.index (toList_toString_inj hdigits), hrest⟩

/-- Paths with the same marks are the same path. -/
theorem marked_injOn : Set.InjOn marked {path | path.Bare} := by
  intro p hp q hq h
  induction p generalizing q with
  | nil =>
    cases q with
    | nil => rfl
    | cons t q => cases t <;> cases h
  | cons s p ih =>
    cases q with
    | nil => cases s <;> cases h
    | cons t q =>
      obtain ⟨hs, hp⟩ := List.forall_mem_cons.mp hp
      obtain ⟨ht, hq⟩ := List.forall_mem_cons.mp hq
      obtain ⟨hst, hrest⟩ := marked_append_inj hs ht (p := p) (q := q) h
      rw [hst, ih hp hq hrest]

/-! ## Written forms -/

/-- Paths that are written alike are the same path. -/
theorem join_injOn : Set.InjOn join {path | path.Bare} := by
  intro p hp q hq h
  refine marked_injOn hp hq ?_
  calc marked p = withMark (join p).toList := (withMark_join hp).symm
    _ = withMark (join q).toList := by rw [h]
    _ = marked q := withMark_join hq

/-- A name that holds a mark is written like two steps. -/
example : join [.name "a.b"] = join [.name "a", .name "b"] := by decide

/-- Paths that are written alike below one root are the same path, whatever the root. -/
theorem join_append_injOn (root : FieldPath) :
    Set.InjOn (fun path ↦ join (root ++ path)) {path | path.Bare} := by
  intro p hp q hq h
  by_cases hroot : join root = ""
  · have hown (path : FieldPath) : join (root ++ path) = join path := by
      rw [join, List.foldl_append, ← join, hroot, join]
    simp only [hown] at h
    exact join_injOn hp hq h
  · have hmarked := congrArg String.toList h
    rw [toList_join_append hroot, toList_join_append hroot] at hmarked
    exact marked_injOn hp hq (List.append_cancel_left hmarked)

end FieldPath
end RepoManifest
