import RepoManifest.Proofs.Resource.Finding

/-!
# What a walk through a tree of objects records

A walk through a tree of objects takes one validator along. It ends on every tree, keeps what was
recorded before, and adds what is wrong with the objects of the tree: each object comes before those
inside it, and for one object the empty required fields come before the values outside their
registry. The objects of a tree are those that are reached through fields and through positions of
list fields.
-/

namespace RepoManifest

/-! ## Objects of a tree -/

/-- An object of a tree: its path, and its declared fields with their values. -/
structure Site where
  path : FieldPath
  fields : List (FieldDecl × Value)

namespace Value

mutual

/-- The objects of a value at a path, each before those inside it. -/
def sites (path : FieldPath) : Value → List Site
  | .object type _ values =>
    ⟨path, type.fields.zip values⟩ :: sitesInFields path type.fields values
  | _ => []

/-- The objects in fields and in list fields, in declared order. -/
def sitesInFields (path : FieldPath) : List FieldDecl → List Value → List Site
  | f :: fields, .list items :: values =>
    sitesInItems (path ++ [.name f.name]) 0 items ++ sitesInFields path fields values
  | f :: fields, v :: values =>
    sites (path ++ [.name f.name]) v ++ sitesInFields path fields values
  | _, _ => []

/-- The objects in a list, in order, the first one at position `i`. -/
def sitesInItems (path : FieldPath) (i : Nat) : List Value → List Site
  | [] => []
  | v :: rest => sites (path ++ [.index i]) v ++ sitesInItems path (i + 1) rest

end

/-- A value is within another one at a position: it is that value, or it is in a field of an object
within it, or in a list field of one. -/
inductive Within (v : Value) : FieldPath → Value → Prop
  | self : Within v [] v
  | field {position : FieldPath} {type : ObjectType} {assigned : List String} {values : List Value}
      {f : FieldDecl} {x : Value} (hobject : Within v position (.object type assigned values))
      (hfield : (f, x) ∈ type.fields.zip values) : Within v (position ++ [.name f.name]) x
  | item {position : FieldPath} {type : ObjectType} {assigned : List String} {values : List Value}
      {f : FieldDecl} {items : List Value} {i : Nat} {x : Value}
      (hobject : Within v position (.object type assigned values))
      (hfield : (f, .list items) ∈ type.fields.zip values) (hitem : items[i]? = some x) :
      Within v (position ++ [.name f.name, .index i]) x

/-- The objects in a field of an object are among those in its fields. -/
theorem sites_subset_sitesInFields {path : FieldPath} {fields : List FieldDecl}
    {values : List Value} {f : FieldDecl} {x : Value} (h : (f, x) ∈ fields.zip values) :
    sites (path ++ [.name f.name]) x ⊆ sitesInFields path fields values := by
  induction fields generalizing values with
  | nil => simp at h
  | cons d fields ih =>
    cases values with
    | nil => simp at h
    | cons v values =>
      rw [List.zip_cons_cons, List.mem_cons] at h
      rcases h with h | h
      · obtain ⟨rfl, rfl⟩ := Prod.mk.inj h
        cases x with
        | list items => exact List.nil_subset _
        | _ => exact List.subset_append_left _ _
      · have hrest := ih h
        cases v with
        | list items => exact List.Subset.trans hrest (List.subset_append_right _ _)
        | _ => exact List.Subset.trans hrest (List.subset_append_right _ _)

/-- The objects at a position of a list are among those of the list. -/
theorem sites_subset_sitesInItems {path : FieldPath} {n i : Nat} {items : List Value} {x : Value}
    (h : items[i]? = some x) :
    sites (path ++ [.index ↑(n + i)]) x ⊆ sitesInItems path n items := by
  induction items generalizing n i with
  | nil => simp at h
  | cons v rest ih =>
    cases i with
    | zero =>
      obtain rfl := Option.some.inj h
      exact List.subset_append_left _ _
    | succ i =>
      have hrest := ih (n := n + 1) (i := i) (by simpa using h)
      rw [Nat.add_right_comm] at hrest
      exact List.Subset.trans hrest (List.subset_append_right _ _)

/-- The objects in a list field are among those in the fields. -/
theorem sitesInItems_subset_sitesInFields {path : FieldPath} {fields : List FieldDecl}
    {values : List Value} {f : FieldDecl} {items : List Value}
    (h : (f, .list items) ∈ fields.zip values) :
    sitesInItems (path ++ [.name f.name]) 0 items ⊆ sitesInFields path fields values := by
  induction fields generalizing values with
  | nil => simp at h
  | cons d fields ih =>
    cases values with
    | nil => simp at h
    | cons v values =>
      rw [List.zip_cons_cons, List.mem_cons] at h
      rcases h with h | h
      · obtain ⟨rfl, rfl⟩ := Prod.mk.inj h
        exact List.subset_append_left _ _
      · have hrest := ih h
        cases v with
        | list items => exact List.Subset.trans hrest (List.subset_append_right _ _)
        | _ => exact List.Subset.trans hrest (List.subset_append_right _ _)

/-- What is within a value has its objects among those of the value. -/
theorem sites_subset_of_within {root position : FieldPath} {v x : Value}
    (h : Within v position x) : sites (root ++ position) x ⊆ sites root v := by
  induction h with
  | self => rw [List.append_nil]; exact List.Subset.refl _
  | field _ hfield ih =>
    rw [← List.append_assoc]
    refine List.Subset.trans ?_ ih
    refine List.Subset.trans ?_ (List.subset_cons_self ..)
    exact sites_subset_sitesInFields hfield
  | @item position type assigned values f items i x _ hfield hitem ih =>
    have hpath : root ++ (position ++ [.name f.name, .index i]) =
        (root ++ position ++ [.name f.name]) ++ [.index ↑(0 + i)] := by simp
    rw [hpath]
    refine List.Subset.trans ?_ ih
    refine List.Subset.trans ?_ (List.subset_cons_self ..)
    refine List.Subset.trans ?_ (sitesInItems_subset_sitesInFields hfield)
    exact sites_subset_sitesInItems hitem

/-- A site of a value at a path: an object within the value, at its position below the path. -/
def IsSite (root : FieldPath) (v : Value) (s : Site) : Prop :=
  ∃ position type assigned values, Within v position (.object type assigned values) ∧
    s = ⟨root ++ position, type.fields.zip values⟩

mutual

/-- The objects of what is within a value are sites of the value. -/
theorem isSite_of_mem_sites {root : FieldPath} {v : Value} {s : Site} :
    ∀ {x : Value} {position : FieldPath}, Within v position x → s ∈ sites (root ++ position) x →
      IsSite root v s
  | .object type assigned values, position, hx, h => by
    rw [sites, List.mem_cons] at h
    rcases h with rfl | h
    · exact ⟨position, type, assigned, values, hx, rfl⟩
    · exact isSite_of_mem_sitesInFields hx (fun _ hentry ↦ hentry) h
  | .null, _, _, h | .bool _, _, _, h | .int _, _, _, h | .double _, _, _, h | .str _, _, _, h
  | .bytes _, _, _, h | .date _, _, _, h | .datetime _ _, _, _, h | .tuple _, _, _, h
  | .list _, _, _, h | .set _, _, _, h | .map _, _, _, h | .member _ _ _, _, _, h => by cases h

/-- The objects in the fields of an object within a value are sites of the value. -/
theorem isSite_of_mem_sitesInFields {root : FieldPath} {v : Value} {s : Site} {position : FieldPath}
    {type : ObjectType} {assigned : List String} {all : List Value}
    (hobject : Within v position (.object type assigned all)) :
    ∀ {fields : List FieldDecl} {values : List Value},
      (∀ entry ∈ fields.zip values, entry ∈ type.fields.zip all) →
      s ∈ sitesInFields (root ++ position) fields values → IsSite root v s
  | f :: fields, x :: values, hall, h => by
    rw [List.zip_cons_cons, List.forall_mem_cons] at hall
    obtain ⟨hfield, hrest⟩ := hall
    have hx : Within v (position ++ [.name f.name]) x := .field hobject hfield
    cases x with
    | list items =>
      simp only [sitesInFields, List.mem_append] at h
      rcases h with h | h
      · exact isSite_of_mem_sitesInItems hobject hfield (i := 0) (by simp) h
      · exact isSite_of_mem_sitesInFields hobject hrest h
    | _ =>
      simp only [sitesInFields, List.mem_append, List.append_assoc] at h
      rcases h with h | h
      · exact isSite_of_mem_sites hx h
      · exact isSite_of_mem_sitesInFields hobject hrest h
  | [], _, _, h => by simp [sitesInFields] at h
  | _ :: _, [], _, h => by simp [sitesInFields] at h

/-- The objects in a list field of an object within a value are sites of the value. -/
theorem isSite_of_mem_sitesInItems {root : FieldPath} {v : Value} {s : Site} {position : FieldPath}
    {type : ObjectType} {assigned : List String} {values : List Value} {f : FieldDecl}
    {all : List Value} (hobject : Within v position (.object type assigned values))
    (hfield : (f, .list all) ∈ type.fields.zip values) :
    ∀ {items : List Value} {i : Nat}, (∀ j, items[j]? = all[i + j]?) →
      s ∈ sitesInItems (root ++ position ++ [.name f.name]) i items → IsSite root v s
  | x :: rest, i, hall, h => by
    have hx : Within v (position ++ [.name f.name, .index i]) x :=
      .item hobject hfield (by simpa using (hall 0).symm)
    rw [sitesInItems, List.mem_append] at h
    rcases h with h | h
    · exact isSite_of_mem_sites hx (by simpa using h)
    · refine isSite_of_mem_sitesInItems hobject hfield (fun j ↦ ?_) h
      have hj := hall (j + 1)
      rw [List.getElem?_cons_succ] at hj
      rw [hj, Nat.add_assoc, Nat.add_comm 1 j]
  | [], _, _, h => by cases h

end

/-- The objects of a value are its sites. -/
theorem mem_sites_iff {root : FieldPath} {v : Value} {s : Site} :
    s ∈ sites root v ↔ IsSite root v s := by
  constructor
  · intro h
    exact isSite_of_mem_sites .self (by simpa using h)
  · rintro ⟨position, type, assigned, values, hwithin, rfl⟩
    exact sites_subset_of_within hwithin (List.mem_cons_self ..)

/-- The objects of a value are at or below its path. -/
theorem exists_path_of_mem_sites {p : FieldPath} {v : Value} {s : Site} (h : s ∈ sites p v) :
    ∃ rest, s.path = p ++ rest := by
  obtain ⟨position, _, _, _, _, rfl⟩ := mem_sites_iff.mp h
  exact ⟨position, rfl⟩

/-- The objects in a list are below positions, from the first one on. -/
theorem exists_index_of_mem_sitesInItems {p : FieldPath} {i : Nat} {items : List Value} {s : Site}
    (h : s ∈ sitesInItems p i items) : ∃ j ≥ i, ∃ rest, s.path = p ++ .index j :: rest := by
  induction items generalizing i with
  | nil => cases h
  | cons v items ih =>
    rw [sitesInItems, List.mem_append] at h
    rcases h with h | h
    · obtain ⟨rest, hpath⟩ := exists_path_of_mem_sites h
      exact ⟨i, Nat.le_refl i, rest, by simpa using hpath⟩
    · obtain ⟨j, hj, hpath⟩ := ih h
      exact ⟨j, Nat.le_of_succ_le hj, hpath⟩

/-- The objects in fields are below the names of the fields. -/
theorem exists_name_of_mem_sitesInFields {p : FieldPath} {fields : List FieldDecl}
    {values : List Value} {s : Site} (h : s ∈ sitesInFields p fields values) :
    ∃ n ∈ fields.map (·.name), ∃ rest, s.path = p ++ .name n :: rest := by
  induction fields generalizing values with
  | nil => simp [sitesInFields] at h
  | cons f fields ih =>
    cases values with
    | nil => simp [sitesInFields] at h
    | cons v values =>
      have hv : s ∈ sitesInFields p fields values ∨
          ∃ rest, s.path = p ++ [.name f.name] ++ rest := by
        cases v with
        | list items =>
          rw [sitesInFields, List.mem_append] at h
          refine h.symm.imp_right fun h ↦ ?_
          obtain ⟨_, _, rest, hpath⟩ := exists_index_of_mem_sitesInItems h
          exact ⟨_, hpath⟩
        | _ =>
          simp only [sitesInFields, List.mem_append] at h
          exact h.symm.imp_right exists_path_of_mem_sites
      rcases hv with hrest | ⟨rest, hpath⟩
      · obtain ⟨n, hn, hpath⟩ := ih hrest
        exact ⟨n, List.mem_cons_of_mem _ hn, hpath⟩
      · exact ⟨f.name, List.mem_cons_self .., rest, by simpa using hpath⟩

/-! ## Violations of one object -/

/-- A value that leaves a required field empty: null, or an empty text, byte string, list or
mapping. -/
inductive Vacant : Value → Prop
  | null : Vacant .null
  | str : Vacant (.str "")
  | word (type name : String) : Vacant (.member type name (.str ""))
  | bytes : Vacant (.bytes [])
  | list : Vacant (.list [])
  | map : Vacant (.map [])

/-- A value leaves a required field empty exactly if it is vacant. -/
theorem leavesEmpty_iff {v : Value} : v.leavesEmpty = true ↔ v.Vacant := by
  constructor
  · intro h
    unfold leavesEmpty at h
    split at h
    · exact .null
    · rw [String.isEmpty_iff] at h
      exact h ▸ .str
    · rw [String.isEmpty_iff] at h
      exact h ▸ .word _ _
    · rw [List.isEmpty_iff] at h
      exact h ▸ .bytes
    · rw [List.isEmpty_iff] at h
      exact h ▸ .list
    · rw [List.isEmpty_iff] at h
      exact h ▸ .map
    · cases h
  · intro h
    cases h <;> rfl

/-- Whether a value is null. -/
def isNull : Value → Bool
  | .null => true
  | _ => false

/-- Only null is null. -/
theorem isNull_eq_false_iff {v : Value} : v.isNull = false ↔ v ≠ .null := by
  cases v <;> simp [isNull]

end Value

/-- What a field with a value violates: a required field that is left empty has a violation without
a value, and a restricted field that is set to no word of its registry has one with its value and
the words. -/
inductive FieldDecl.Violates (f : FieldDecl) (path : FieldPath) (v : Value) : Violation → Prop
  | missing (hrequired : f.required = true) (hv : v.Vacant) :
      Violates f path v ⟨.str (FieldPath.join (path ++ [.name f.name])), .null,
        .required "field is required"⟩
  | refused {r : Registry} (hregistry : f.registry = some r) (hset : v ≠ .null)
      (hv : ∀ w ∈ r.values, v.text? ≠ some w) :
      Violates f path v ⟨.str (FieldPath.join (path ++ [.name f.name])), v, .notAllowed r.values⟩

namespace Site

/-- The violations of the required fields that are left empty, in declared order. -/
def missing (s : Site) : List Violation :=
  (s.fields.filter fun entry ↦ entry.1.required && entry.2.leavesEmpty).map fun entry ↦
    ⟨.str (FieldPath.join (s.path ++ [.name entry.1.name])), .null, .empty⟩

/-- The violations of the restricted fields that are set outside their registry, as declared. -/
def refused (s : Site) : List Violation :=
  s.fields.flatMap fun entry ↦
    (entry.1.registry.toList.filter fun r ↦ !entry.2.isNull && !r.accepts entry.2).map fun r ↦
      ⟨.str (FieldPath.join (s.path ++ [.name entry.1.name])), entry.2, .notAllowed r.values⟩

/-- The findings of an object itself: those of its required fields, then those of its restricted
ones. -/
def findings (s : Site) : List Finding :=
  Value.requiredFindings s.path s.fields ++ Value.registryFindings s.path s.fields

/-- The violations of an object: those of its required fields, then those of its restricted ones. -/
def violations (s : Site) : List Violation := s.missing ++ s.refused

/-- The violations of an object are what its fields violate. -/
theorem mem_violations_iff {s : Site} {x : Violation} :
    x ∈ s.violations ↔ ∃ entry ∈ s.fields, entry.1.Violates s.path entry.2 x := by
  rw [violations, List.mem_append]
  constructor
  · rintro (h | h)
    · obtain ⟨entry, hentry, rfl⟩ := List.mem_map.mp h
      obtain ⟨hmem, hboth⟩ := List.mem_filter.mp hentry
      obtain ⟨hrequired, hempty⟩ := Bool.and_eq_true_iff.mp hboth
      exact ⟨entry, hmem, .missing hrequired (Value.leavesEmpty_iff.mp hempty)⟩
    · obtain ⟨entry, hmem, hx⟩ := List.mem_flatMap.mp h
      obtain ⟨r, hr, rfl⟩ := List.mem_map.mp hx
      obtain ⟨hregistry, hboth⟩ := List.mem_filter.mp hr
      rw [Bool.and_eq_true, Bool.not_eq_true', Bool.not_eq_true', Value.isNull_eq_false_iff,
        ← Bool.not_eq_true, Registry.accepts_iff] at hboth
      refine ⟨entry, hmem, .refused (Option.mem_toList.mp hregistry) hboth.1 fun w hw htext ↦ ?_⟩
      exact hboth.2 ⟨w, hw, htext⟩
  · rintro ⟨entry, hmem, hx⟩
    cases hx with
    | missing hrequired hv =>
      refine .inl (List.mem_map.mpr ⟨entry, List.mem_filter.mpr ⟨hmem, ?_⟩, rfl⟩)
      rw [hrequired, Value.leavesEmpty_iff.mpr hv]
      rfl
    | @refused r hregistry hset hv =>
      refine .inr (List.mem_flatMap.mpr ⟨entry, hmem, List.mem_map.mpr ⟨r, ?_, rfl⟩⟩)
      refine List.mem_filter.mpr ⟨Option.mem_toList.mpr hregistry, ?_⟩
      rw [Bool.and_eq_true, Bool.not_eq_true', Bool.not_eq_true', Value.isNull_eq_false_iff,
        ← Bool.not_eq_true, Registry.accepts_iff]
      refine ⟨hset, ?_⟩
      rintro ⟨w, hw, htext⟩
      exact hv w hw htext

/-- The findings of the required fields of an object are recorded as its missing ones. -/
theorem map_violation_requiredFindings (path : FieldPath) (fields : List (FieldDecl × Value)) :
    (Value.requiredFindings path fields).map Finding.violation = missing ⟨path, fields⟩ := by
  induction fields with
  | nil => rfl
  | cons entry rest ih =>
    obtain ⟨f, v⟩ := entry
    simp only [Value.requiredFindings, missing, List.filterMap_cons, List.filter_cons] at ih ⊢
    cases f.required && v.leavesEmpty with
    | true => exact congrArg _ ih
    | false => exact ih

/-- The finding of a restricted field is recorded as its refused value. -/
theorem map_violation_registryFinding? (path : FieldPath) (f : FieldDecl) (v : Value) :
    (Value.registryFinding? path f v).toList.map Finding.violation = refused ⟨path, [(f, v)]⟩ := by
  rw [refused, List.flatMap_singleton]
  cases hr : f.registry with
  | none => simp [Value.registryFinding?, hr]
  | some r =>
    by_cases hnull : v = .null
    · simp [Value.registryFinding?, hr, hnull, Value.isNull]
    · have hset : v.isNull = false := Value.isNull_eq_false_iff.mpr hnull
      by_cases hv : r.accepts v
      · simp [Value.registryFinding?, hr, hv, Registry.validate]
      · simp [Value.registryFinding?, hr, hset, hv, Registry.validate, Finding.violation]

/-- The findings of the restricted fields of an object are recorded as its refused values. -/
theorem map_violation_registryFindings (path : FieldPath) (fields : List (FieldDecl × Value)) :
    (Value.registryFindings path fields).map Finding.violation = refused ⟨path, fields⟩ := by
  induction fields with
  | nil => rfl
  | cons entry rest ih =>
    obtain ⟨f, v⟩ := entry
    have hfirst := map_violation_registryFinding? path f v
    rw [refused, List.flatMap_singleton] at hfirst
    rw [refused] at ih ⊢
    rw [List.flatMap_cons, ← ih, ← hfirst, ← List.map_append]
    simp only [Value.registryFindings, List.filterMap_cons]
    cases Value.registryFinding? path f v <;> rfl

/-- A finding of an object is at the name of one of its fields. -/
theorem exists_field_of_mem_findings {s : Site} {f : Finding} (h : f ∈ s.findings) :
    ∃ entry ∈ s.fields, f.path = s.path ++ [.name entry.1.name] := by
  rcases List.mem_append.mp h with h | h
  · obtain ⟨entry, hentry, _, hpath⟩ := Value.exists_required_of_mem_requiredFindings h
    exact ⟨entry, hentry, hpath⟩
  · obtain ⟨entry, hentry, _, hpath⟩ := Value.exists_registry_of_mem_registryFindings h
    exact ⟨entry, hentry, hpath⟩

/-- The findings of an object are recorded as its violations. -/
theorem map_violation_findings (s : Site) : s.findings.map Finding.violation = s.violations := by
  rw [findings, List.map_append, map_violation_requiredFindings, map_violation_registryFindings,
    violations]

end Site

/-! ## Recording -/

namespace Value

mutual

/-- The findings of a value are those of its objects. -/
theorem findings_eq_flatMap (path : FieldPath) : ∀ v : Value,
    findings path v = (sites path v).flatMap Site.findings
  | .object type assigned values => by
    rw [findings, sites, List.flatMap_cons, Site.findings,
      fieldFindings_eq_flatMap path type.fields values]
  | .null | .bool _ | .int _ | .double _ | .str _ | .bytes _ | .date _ | .datetime _ _ | .tuple _
  | .list _ | .set _ | .map _ | .member _ _ _ => rfl

/-- The findings in fields are those of the objects there. -/
theorem fieldFindings_eq_flatMap (path : FieldPath) :
    ∀ (fields : List FieldDecl) (values : List Value),
      fieldFindings path fields values = (sitesInFields path fields values).flatMap Site.findings
  | f :: fields, v :: values => by
    have hrest := fieldFindings_eq_flatMap path fields values
    have hv := findings_eq_flatMap (path ++ [.name f.name]) v
    cases v with
    | list items =>
      have hitems := itemFindings_eq_flatMap (path ++ [.name f.name]) 0 items
      rw [fieldFindings, sitesInFields, List.flatMap_append, hitems, hrest]
    | _ => simp only [fieldFindings, sitesInFields, List.flatMap_append, hv, hrest]
  | [], values => by cases values <;> rfl
  | _ :: _, [] => rfl

/-- The findings in a list are those of the objects there. -/
theorem itemFindings_eq_flatMap (path : FieldPath) (i : Nat) : ∀ items : List Value,
    itemFindings path i items = (sitesInItems path i items).flatMap Site.findings
  | [] => rfl
  | v :: rest => by
    have hv := findings_eq_flatMap (path ++ [.index i]) v
    rw [itemFindings, sitesInItems, List.flatMap_append, hv,
      itemFindings_eq_flatMap path (i + 1) rest]

end

/-- A finding of an object is at or below the name of one of its fields. -/
theorem exists_field_of_mem_findings {p : FieldPath} {type : ObjectType} {assigned : List String}
    {values : List Value} {f : Finding} (h : f ∈ findings p (.object type assigned values)) :
    ∃ d ∈ type.fields, ∃ rest, f.path = p ++ .name d.name :: rest := by
  rw [findings_eq_flatMap] at h
  obtain ⟨s, hs, hf⟩ := List.mem_flatMap.mp h
  obtain ⟨entry, hentry, hpath⟩ := Site.exists_field_of_mem_findings hf
  rw [sites, List.mem_cons] at hs
  rcases hs with rfl | hs
  · exact ⟨entry.1, (List.of_mem_zip hentry).1, [], hpath⟩
  · obtain ⟨n, hn, rest, hbelow⟩ := exists_name_of_mem_sitesInFields hs
    obtain ⟨d, hd, rfl⟩ := List.mem_map.mp hn
    exact ⟨d, hd, rest ++ [.name entry.1.name], by rw [hpath, hbelow]; simp⟩

/-- The findings of a value are recorded as the violations of its objects. -/
theorem violations_findings (path : FieldPath) (v : Value) :
    (findings path v).map Finding.violation = (sites path v).flatMap Site.violations := by
  rw [findings_eq_flatMap, List.map_flatMap]
  exact congrArg (List.flatMap · _) (funext Site.map_violation_findings)

end Value

namespace Validator

/-- Findings are recorded one part after the other. -/
theorem recordAll_append (v : Validator) (found more : List Finding) :
    v.recordAll (found ++ more) = (v.recordAll found).recordAll more :=
  List.foldl_append

/-- Steps that each record some findings record all of them, in order. -/
theorem foldlM_recordAll {step : Validator → FieldDecl × Value → Except Misuse Validator}
    {found : FieldDecl × Value → List Finding}
    (h : ∀ v field, step v field = .ok (v.recordAll (found field))) (v : Validator)
    (fields : List (FieldDecl × Value)) :
    fields.foldlM step v = .ok (v.recordAll (fields.flatMap found)) := by
  induction fields generalizing v with
  | nil => rfl
  | cons field rest ih =>
    rw [List.foldlM_cons, h, List.flatMap_cons, recordAll_append]
    exact ih _

/-- A path that goes on with a name, as unchecked segments. -/
theorem map_toValue_concat_name (root : FieldPath) (name : String) :
    root.map Segment.toValue ++ [.str name] =
      (root ++ [Segment.name name]).map Segment.toValue := by
  rw [List.map_append]
  rfl

/-- A path that goes on with a position, as unchecked segments. -/
theorem map_toValue_concat_index (root : FieldPath) (i : Nat) :
    root.map Segment.toValue ++ [.int i] =
      (root ++ [Segment.index i]).map Segment.toValue := by
  rw [List.map_append]
  rfl

/-- The step at a required field records its finding. -/
theorem appendIfEmpty_eq (root : FieldPath) (v : Validator) (field : FieldDecl × Value) :
    appendIfEmpty (root.map Segment.toValue) v field =
      .ok (v.recordAll (Value.requiredFindings root [field])) := by
  rw [appendIfEmpty, required, map_toValue_concat_name, append_toValue]
  simp only [Value.requiredFindings, List.filterMap_cons]
  cases field.1.required && field.2.leavesEmpty <;> rfl

/-- The step at a restricted field records its finding. -/
theorem appendIfRefused_eq (root : FieldPath) (v : Validator) (field : FieldDecl × Value) :
    appendIfRefused (root.map Segment.toValue) v field =
      .ok (v.recordAll (Value.registryFindings root [field])) := by
  obtain ⟨f, value⟩ := field
  simp only [appendIfRefused, Value.registryFindings, List.filterMap_cons, Value.registryFinding?]
  split
  · rfl
  · rfl
  · next value _ _ r _ _ =>
    rw [map_toValue_concat_name]
    cases r.validate value with
    | none => rfl
    | some e => exact append_toValue v e value _

/-- The findings of the required fields are those of each field. -/
theorem flatMap_requiredFindings (root : FieldPath) (fields : List (FieldDecl × Value)) :
    (fields.flatMap fun field ↦ Value.requiredFindings root [field]) =
      Value.requiredFindings root fields := by
  induction fields with
  | nil => rfl
  | cons field rest ih =>
    rw [List.flatMap_cons, ih]
    exact (List.filterMap_append (l := [field])).symm

/-- The findings of the restricted fields are those of each field. -/
theorem flatMap_registryFindings (root : FieldPath) (fields : List (FieldDecl × Value)) :
    (fields.flatMap fun field ↦ Value.registryFindings root [field]) =
      Value.registryFindings root fields := by
  induction fields with
  | nil => rfl
  | cons field rest ih =>
    rw [List.flatMap_cons, ih]
    exact (List.filterMap_append (l := [field])).symm

mutual

/-- Walking through a value records its findings. -/
theorem appendFindings_eq_recordAll (root : FieldPath) (v : Validator) : ∀ value : Value,
    v.appendFindings (root.map Segment.toValue) value = .ok (v.recordAll (value.findings root))
  | .object type assigned values => by
    have hempty := foldlM_recordAll (appendIfEmpty_eq root) v (type.fields.zip values)
    have hrefused (w : Validator) :=
      foldlM_recordAll (appendIfRefused_eq root) w (type.fields.zip values)
    rw [flatMap_requiredFindings] at hempty
    simp only [flatMap_registryFindings] at hrefused
    rw [appendFindings, Value.findings, recordAll_append, recordAll_append, hempty]
    simp only [bind, Except.bind, hrefused]
    exact appendInFields_eq_recordAll root _ type.fields values
  | .null | .bool _ | .int _ | .double _ | .str _ | .bytes _ | .date _ | .datetime _ _ | .tuple _
  | .list _ | .set _ | .map _ | .member _ _ _ => rfl

/-- Walking through fields records the findings in them. -/
theorem appendInFields_eq_recordAll (root : FieldPath) (v : Validator) :
    ∀ (fields : List FieldDecl) (values : List Value),
      v.appendInFields (root.map Segment.toValue) fields values =
        .ok (v.recordAll (Value.fieldFindings root fields values))
  | f :: fields, value :: values => by
    have hrest (w : Validator) := appendInFields_eq_recordAll root w fields values
    have hvalue := appendFindings_eq_recordAll (root ++ [.name f.name]) v value
    cases value with
    | list items =>
      have hitems := appendInItems_eq_recordAll (root ++ [.name f.name]) v 0 items
      simp only [appendInFields, map_toValue_concat_name, hitems, bind, Except.bind, hrest,
        Value.fieldFindings, recordAll_append]
    | _ =>
      simp only [appendInFields, map_toValue_concat_name, hvalue, bind, Except.bind, hrest,
        Value.fieldFindings, recordAll_append]
  | [], values => by cases values <;> rfl
  | _ :: _, [] => rfl

/-- Walking through a list records the findings in it. -/
theorem appendInItems_eq_recordAll (root : FieldPath) (v : Validator) (i : Nat) :
    ∀ items : List Value, v.appendInItems (root.map Segment.toValue) i items =
      .ok (v.recordAll (Value.itemFindings root i items))
  | [] => rfl
  | value :: rest => by
    have hvalue := appendFindings_eq_recordAll (root ++ [.index i]) v value
    have hrest (w : Validator) := appendInItems_eq_recordAll root w (i + 1) rest
    rw [appendInItems, map_toValue_concat_index, hvalue, Value.itemFindings, recordAll_append]
    exact hrest _

end

/-- Walking through a tree of objects ends, keeps what was recorded before and adds the violations
of its objects, each object before those inside it; these objects are the ones within the tree, and
the violations of each are what its fields violate. -/
theorem appendFindings_eq (root : FieldPath) (v : Validator) (tree : Value) :
    ∃ w, v.appendFindings (root.map Segment.toValue) tree = .ok w ∧ w.name = v.name ∧
      w.violations = v.violations ++ (tree.sites root).flatMap (fun s ↦ s.missing ++ s.refused) ∧
      (∀ s, s ∈ tree.sites root ↔ ∃ position type assigned values,
        tree.Within position (.object type assigned values) ∧
          s = ⟨root ++ position, type.fields.zip values⟩) ∧
      (∀ s ∈ tree.sites root, ∀ x, x ∈ s.missing ++ s.refused ↔
        ∃ field ∈ s.fields, field.1.Violates s.path field.2 x) := by
  refine ⟨_, appendFindings_eq_recordAll root v tree, Value.name_recordAll v _, ?_, ?_, ?_⟩
  · rw [violations_recordAll]
    exact congrArg (v.violations ++ ·) (Value.violations_findings root tree)
  · intro s
    exact Value.mem_sites_iff
  · intro s _ x
    exact Site.mem_violations_iff

end Validator
end RepoManifest
