import RepoManifest.Resource.Basic
import RepoManifest.Resource.Finding

/-!
# Where findings are and when there are none

The findings of a tree seen from further out are the same findings with the longer path in front.
An object of a resource has no findings exactly if its marked fields are in order: required texts
are not empty, restricted words are in their registry, and the objects inside have no findings.
-/

namespace RepoManifest

namespace Finding

/-- The same finding seen from further out. -/
def under (root : FieldPath) (f : Finding) : Finding := { f with path := root ++ f.path }

/-- The violation that a finding is recorded as. -/
def violation (f : Finding) : Violation := ⟨.str f.path.join, f.value, f.error⟩

end Finding

namespace Value

/-! ## Findings at a path -/

/-- Findings of required fields move with the path. -/
theorem requiredFindings_append (p q : FieldPath) (fields : List (FieldDecl × Value)) :
    requiredFindings (p ++ q) fields = (requiredFindings q fields).map (Finding.under p) := by
  rw [requiredFindings, requiredFindings, List.map_filterMap]
  congr 1
  funext entry
  obtain ⟨f, v⟩ := entry
  by_cases h : f.required && v.leavesEmpty <;> simp [h, Finding.under]

/-- The finding of a restricted field moves with the path. -/
theorem registryFinding?_append (p q : FieldPath) (f : FieldDecl) (v : Value) :
    registryFinding? (p ++ q) f v = (registryFinding? q f v).map (Finding.under p) := by
  unfold registryFinding?
  split
  · rfl
  · rfl
  · rw [Option.map_map]
    congr 1
    funext e
    simp [Finding.under]

/-- Findings of restricted fields move with the path. -/
theorem registryFindings_append (p q : FieldPath) (fields : List (FieldDecl × Value)) :
    registryFindings (p ++ q) fields = (registryFindings q fields).map (Finding.under p) := by
  rw [registryFindings, registryFindings, List.map_filterMap]
  congr 1
  funext entry
  obtain ⟨f, v⟩ := entry
  exact registryFinding?_append p q f v

mutual

/-- Findings move with the path: seen from further out, they are the same findings. -/
theorem findings_append (p q : FieldPath) :
    ∀ v : Value, findings (p ++ q) v = (findings q v).map (Finding.under p)
  | .object type _ values => by
    simp only [findings, List.map_append, requiredFindings_append, registryFindings_append,
      fieldFindings_append p q type.fields values]
  | .null | .bool _ | .int _ | .double _ | .str _ | .bytes _ | .date _ | .datetime _ _ | .tuple _
  | .list _ | .set _ | .map _ | .member _ _ _ => rfl

/-- Findings of the objects in fields move with the path. -/
theorem fieldFindings_append (p q : FieldPath) : ∀ (fields : List FieldDecl) (values : List Value),
    fieldFindings (p ++ q) fields values = (fieldFindings q fields values).map (Finding.under p)
  | f :: fields, v :: values => by
    have hrest := fieldFindings_append p q fields values
    have hv := findings_append p (q ++ [.name f.name]) v
    cases v with
    | list items =>
      have hitems := itemFindings_append p (q ++ [.name f.name]) 0 items
      simp only [fieldFindings, List.map_append, List.append_assoc, hrest, hitems]
    | _ => simp only [fieldFindings, List.map_append, List.append_assoc, hrest, hv]
  | [], _ => by simp [fieldFindings]
  | _ :: _, [] => by simp [fieldFindings]

/-- Findings of the objects in a list move with the path. -/
theorem itemFindings_append (p q : FieldPath) (i : Nat) : ∀ items : List Value,
    itemFindings (p ++ q) i items = (itemFindings q i items).map (Finding.under p)
  | [] => rfl
  | v :: rest => by
    have hv := findings_append p (q ++ [.index i]) v
    simp only [itemFindings, List.map_append, List.append_assoc, hv,
      itemFindings_append p q (i + 1) rest]

end

/-- The findings of a value at a path are those it has for itself, seen from further out. -/
theorem findings_eq_map_under (p : FieldPath) (v : Value) :
    findings p v = (findings [] v).map (Finding.under p) := by
  rw [← findings_append, List.append_nil]

/-- A finding of a required field is at the field's name. -/
theorem exists_required_of_mem_requiredFindings {p : FieldPath}
    {fields : List (FieldDecl × Value)} {f : Finding} (h : f ∈ requiredFindings p fields) :
    ∃ entry ∈ fields, entry.1.required = true ∧ f.path = p ++ [.name entry.1.name] := by
  obtain ⟨⟨d, v⟩, hmem, hd⟩ := List.mem_filterMap.mp h
  obtain ⟨hempty, hfinding⟩ := Option.ite_none_right_eq_some.mp hd
  cases hfinding
  exact ⟨_, hmem, (Bool.and_eq_true_iff.mp hempty).1, rfl⟩

/-- The finding of a restricted field is at the field's name. -/
theorem path_of_registryFinding? {p : FieldPath} {d : FieldDecl} {v : Value} {f : Finding}
    (h : registryFinding? p d v = some f) :
    (∃ r, d.registry = some r) ∧ f.path = p ++ [.name d.name] := by
  unfold registryFinding? at h
  split at h
  · cases h
  · cases h
  · next r hregistry _ =>
    obtain ⟨e, _, rfl⟩ := Option.map_eq_some_iff.mp h
    exact ⟨⟨r, hregistry⟩, rfl⟩

/-- A finding of a restricted field is at the field's name. -/
theorem exists_registry_of_mem_registryFindings {p : FieldPath}
    {fields : List (FieldDecl × Value)} {f : Finding} (h : f ∈ registryFindings p fields) :
    ∃ entry ∈ fields, (∃ r, entry.1.registry = some r) ∧ f.path = p ++ [.name entry.1.name] := by
  obtain ⟨⟨d, v⟩, hmem, hd⟩ := List.mem_filterMap.mp h
  exact ⟨_, hmem, path_of_registryFinding? hd⟩

/-! ## No findings -/

/-- No field is reported as empty exactly if no required field is. -/
theorem requiredFindings_eq_nil_iff {p : FieldPath} {fields : List (FieldDecl × Value)} :
    requiredFindings p fields = [] ↔
      ∀ entry ∈ fields, entry.1.required = true → entry.2.leavesEmpty = false := by
  rw [requiredFindings, List.filterMap_eq_nil_iff]
  refine forall₂_congr fun entry _ ↦ ?_
  cases hr : entry.1.required <;> cases hv : entry.2.leavesEmpty <;> simp [hr, hv]

/-- No field is reported as restricted exactly if each restricted one is unset or accepted. -/
theorem registryFindings_eq_nil_iff {p : FieldPath} {fields : List (FieldDecl × Value)} :
    registryFindings p fields = [] ↔
      ∀ entry ∈ fields, ∀ r, entry.1.registry = some r →
        entry.2 = .null ∨ r.accepts entry.2 = true := by
  rw [registryFindings, List.filterMap_eq_nil_iff]
  refine forall₂_congr fun entry _ ↦ ?_
  cases hr : entry.1.registry with
  | none => simp [registryFinding?, hr]
  | some r =>
    by_cases hv : entry.2 = .null
    · simp [registryFinding?, hr, hv]
    · simp [registryFinding?, hr, hv, Registry.validate_eq_none_iff]

/-- The objects in a list have no findings exactly if each of them has none. -/
theorem itemFindings_eq_nil_iff {p : FieldPath} {i : Nat} {items : List Value} :
    itemFindings p i items = [] ↔ ∀ v ∈ items, findings [] v = [] := by
  induction items generalizing i with
  | nil => simp [itemFindings]
  | cons v rest ih =>
    rw [itemFindings, List.append_eq_nil_iff, findings_eq_map_under, List.map_eq_nil_iff, ih,
      List.forall_mem_cons]

/-! ## Checking -/

/-- Recording findings in an empty validator records their violations. -/
theorem violations_recordAll_empty (name : String) (found : List Finding) :
    (({ name := name } : Validator).recordAll found).violations = found.map Finding.violation :=
  Validator.violations_recordAll _ found

/-- Recording findings keeps the name of the object. -/
theorem name_recordAll (v : Validator) (found : List Finding) :
    (v.recordAll found).name = v.name := by
  unfold Validator.recordAll
  induction found generalizing v with
  | nil => rfl
  | cons f rest ih => rw [List.foldl_cons, ih]; rfl

/-- An object is valid exactly if it has no findings. -/
theorem checkObject_eq_ok_iff {name : String} {object : Value} :
    checkObject name object = .ok () ↔ object.findings [] = [] := by
  rw [checkObject, Validator.check]
  split
  · next e he =>
    have hne : object.findings [] ≠ [] := by
      intro hnil
      rw [hnil] at he
      cases he
    exact ⟨fun h ↦ (nomatch h), fun h ↦ absurd h hne⟩
  · next hnone =>
    rw [Validator.error?_eq_none_iff, violations_recordAll_empty, List.map_eq_nil_iff] at hnone
    exact ⟨fun _ ↦ hnone, fun _ ↦ rfl⟩

/-- An object with findings is invalid with all of them. -/
theorem checkObject_of_findings_ne_nil {name : String} {object : Value}
    (h : object.findings [] ≠ []) :
    checkObject name object = .error ⟨name, (object.findings []).map Finding.violation⟩ := by
  have hne : ((object.findings []).map Finding.violation).isEmpty = false := by
    rw [List.isEmpty_eq_false_iff, ne_eq, List.map_eq_nil_iff]
    exact h
  simp only [checkObject, Validator.check, Validator.error?, violations_recordAll_empty,
    name_recordAll, hne, Bool.false_eq_true, if_false]

end Value

end RepoManifest
