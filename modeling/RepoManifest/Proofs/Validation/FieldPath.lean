import RepoManifest.Proofs.Resource.Finding

/-!
# Paths seen from further out

A step looks at what was written before it only to see whether that is empty. So behind something
written every step begins with a mark: a dot for a name, an opening bracket for a position. A path
that starts with a name is written below another path as it is written for itself, with the other
path and a dot in front, and a violation that is moved there has its own line, with the same text in
front.
-/

namespace RepoManifest

/-- A step as it is written behind others. -/
def Segment.marked : Segment → List Char
  | .name s => '.' :: s.toList
  | .index n => '[' :: ((toString n).toList ++ [']'])

namespace FieldPath

/-- A path as it is written behind others. -/
def marked (path : FieldPath) : List Char := path.flatMap Segment.marked

/-- A path begins with the mark of its first step. -/
theorem marked_cons (s : Segment) (rest : FieldPath) :
    marked (s :: rest) = s.marked ++ marked rest := List.flatMap_cons

/-- Behind something written, a step begins with its mark. -/
theorem toList_step {written : String} (h : written ≠ "") (s : Segment) :
    (step written s).toList = written.toList ++ s.marked := by
  cases s with
  | name n =>
    have hwritten : written.isEmpty = false := by simpa using h
    simp [step, hwritten, Segment.marked]
  | index n => simp [step, Segment.marked]

/-- Something is still written after a step. -/
theorem step_ne_empty {last : String} (h : last ≠ "") (s : Segment) : step last s ≠ "" := by
  have hlast : last.isEmpty = false := by simpa using h
  cases s with
  | index n => simp [step, h]
  | name n => simp [step, h]

/-- Behind something written, every step of a path begins with its mark. -/
theorem toList_foldl_step {written : String} (h : written ≠ "") (path : FieldPath) :
    (path.foldl step written).toList = written.toList ++ marked path := by
  induction path generalizing written with
  | nil => simp [marked]
  | cons s rest ih =>
    rw [List.foldl_cons, ih (step_ne_empty h s), toList_step h, List.append_assoc, marked_cons]

/-- A path is written with all its marks below a root that is written. -/
theorem toList_join_append {root : FieldPath} (h : join root ≠ "") (path : FieldPath) :
    (join (root ++ path)).toList = (join root).toList ++ marked path := by
  rw [join, List.foldl_append]
  exact toList_foldl_step h path

/-- A path that starts with a name is written with all its marks but the first. -/
theorem toList_join_name {n : String} (h : n ≠ "") (rest : FieldPath) :
    (join (.name n :: rest)).toList = n.toList ++ marked rest :=
  toList_foldl_step h rest

/-- A path that starts with a position is written with all its marks. -/
theorem toList_join_index (n : Int) (rest : FieldPath) :
    (join (.index n :: rest)).toList = marked (.index n :: rest) := by
  have hfirst : (step "" (.index n)).toList = (Segment.index n).marked := by
    simp [step, Segment.marked]
  have hne : step "" (.index n) ≠ "" := by simp [step]
  rw [join, List.foldl_cons, toList_foldl_step hne, hfirst, marked_cons]

/-- A path that starts with a name is written below another path as it is for itself. -/
theorem join_append_name {root : FieldPath} (hroot : join root ≠ "") {n : String} (hn : n ≠ "")
    (rest : FieldPath) :
    join (root ++ .name n :: rest) = join root ++ "." ++ join (.name n :: rest) := by
  refine String.toList_inj.mp ?_
  rw [toList_join_append hroot, marked_cons, String.toList_append, String.toList_append,
    toList_join_name hn, List.append_assoc]
  rfl

end FieldPath

/-- The line of a finding at or below a named field starts with the field's path; seen from further
out, the line is the same behind the path there. -/
theorem Finding.line_under {root : FieldPath} (hroot : root.join ≠ "") {f : Finding} {n : String}
    (hn : n ≠ "") {rest : FieldPath} (hpath : f.path = .name n :: rest) :
    (f.under root).violation.line = root.join ++ "." ++ f.violation.line := by
  have hjoin := FieldPath.join_append_name hroot hn rest
  obtain ⟨path, value, error⟩ := f
  obtain rfl : path = .name n :: rest := hpath
  cases error <;>
    simp only [violation, under, Violation.line, Value.display_str, hjoin, String.append_assoc]

end RepoManifest
