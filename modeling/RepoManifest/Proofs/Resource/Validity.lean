import RepoManifest.Proofs.Resource.Finding

/-!
# Valid resources

A valid resource is complete and in order: required texts are not empty, every field that has a
default is set, and restricted words are in their registry, in the resource and in those inside it.
That is the same as having no findings and being left alone by filling.
-/

namespace RepoManifest

/-- A named team with a known permission. -/
structure TeamAccess.Valid (t : TeamAccess) : Prop where
  name : t.name ≠ ""
  permission : ∃ w ∈ permissionRegistry.values, t.permission = some w

/-- A named key whose access is decided and whose kind of credential is known. -/
structure DeployKey.Valid (k : DeployKey) : Prop where
  name : k.name ≠ ""
  key : k.key ≠ ""
  readOnly : k.readOnly ≠ none
  credentialType : k.credentialType ∈ credentialTypeRegistry.values

/-- Options whose licence template is unset or known. -/
structure CreateOptions.Valid (o : CreateOptions) : Prop where
  licenseTemplate : o.licenseTemplate = none ∨
    ∃ w ∈ licenseRegistry.values, o.licenseTemplate = some w

/-- A named repository with a branch and a known visibility, and valid options, keys and teams. -/
structure RepositoryEntry.Valid (e : RepositoryEntry) : Prop where
  name : e.name ≠ ""
  defaultBranch : e.defaultBranch ≠ none
  visibility : ∃ w ∈ visibilityRegistry.values, e.visibility = some w
  options : e.options.Valid
  deployKeys : ∀ k ∈ e.deployKeys, k.Valid
  teams : ∀ t ∈ e.teams, t.Valid

namespace Value

/-- A text or nothing has no findings. -/
@[simp] theorem fieldFindings_ofText? (p : FieldPath) (f : FieldDecl) (fields : List FieldDecl)
    (x : Option String) (values : List Value) :
    fieldFindings p (f :: fields) (.ofText? x :: values) = fieldFindings p fields values := by
  cases x <;> rfl

/-- A flag or nothing has no findings. -/
@[simp] theorem fieldFindings_ofFlag? (p : FieldPath) (f : FieldDecl) (fields : List FieldDecl)
    (x : Option Bool) (values : List Value) :
    fieldFindings p (f :: fields) (.ofFlag? x :: values) = fieldFindings p fields values := by
  cases x <;> rfl

/-- A text has no findings. -/
@[simp] theorem fieldFindings_str (p : FieldPath) (f : FieldDecl) (fields : List FieldDecl)
    (s : String) (values : List Value) :
    fieldFindings p (f :: fields) (.str s :: values) = fieldFindings p fields values := rfl

/-- A list has the findings of its items. -/
@[simp] theorem fieldFindings_list (p : FieldPath) (f : FieldDecl) (fields : List FieldDecl)
    (items values : List Value) :
    fieldFindings p (f :: fields) (.list items :: values) =
      itemFindings (p ++ [.name f.name]) 0 items ++ fieldFindings p fields values := rfl

/-- Options have their own findings. -/
@[simp] theorem fieldFindings_options (p : FieldPath) (f : FieldDecl) (fields : List FieldDecl)
    (o : CreateOptions) (assigned : List String) (values : List Value) :
    fieldFindings p (f :: fields) (o.toObject assigned :: values) =
      findings (p ++ [.name f.name]) (o.toObject assigned) ++ fieldFindings p fields values := rfl

/-- Without fields there are no findings in them. -/
@[simp] theorem fieldFindings_nil (p : FieldPath) (values : List Value) :
    fieldFindings p [] values = [] := by
  cases values <;> simp [fieldFindings]

/-- An object has no findings exactly if its required fields are not empty, its restricted fields
are unset or accepted, and the objects in its fields have none. -/
theorem findings_object_eq_nil_iff {p : FieldPath} {type : ObjectType} {assigned : List String}
    {values : List Value} :
    findings p (.object type assigned values) = [] ↔
      (∀ entry ∈ type.fields.zip values,
        entry.1.required = true → entry.2.leavesEmpty = false) ∧
      (∀ entry ∈ type.fields.zip values, ∀ r, entry.1.registry = some r →
        entry.2 = .null ∨ r.accepts entry.2 = true) ∧
      fieldFindings p type.fields values = [] := by
  rw [findings, List.append_eq_nil_iff, List.append_eq_nil_iff, requiredFindings_eq_nil_iff,
    registryFindings_eq_nil_iff, and_assoc]

end Value

/-- A registry accepts a text exactly if it is one of its words. -/
theorem Registry.accepts_str_iff {r : Registry} {word : String} :
    r.accepts (.str word) = true ↔ word ∈ r.values := by
  simp [accepts, Value.text?]

/-- A restricted text is unset or accepted exactly if it is one of the registry's words when set. -/
theorem Registry.accepts_ofText?_iff {r : Registry} {x : Option String} :
    Value.ofText? x = .null ∨ r.accepts (.ofText? x) = true ↔
      x = none ∨ ∃ w ∈ r.values, x = some w := by
  cases x <;> simp [Value.ofText?, accepts_str_iff]

/-- A team grant has no findings exactly if it is named and its permission is unset or known. -/
theorem TeamAccess.findings_toObject_eq_nil_iff {t : TeamAccess} {assigned : List String}
    {p : FieldPath} :
    (t.toObject assigned).findings p = [] ↔
      t.name ≠ "" ∧
        (t.permission = none ∨ ∃ w ∈ permissionRegistry.values, t.permission = some w) := by
  rw [toObject, Value.findings_object_eq_nil_iff]
  simp [objectType, Value.leavesEmpty, Registry.accepts_ofText?_iff]

/-- A deploy key has no findings exactly if its texts are given and its kind is known. -/
theorem DeployKey.findings_toObject_eq_nil_iff {k : DeployKey} {assigned : List String}
    {p : FieldPath} :
    (k.toObject assigned).findings p = [] ↔
      k.name ≠ "" ∧ k.key ≠ "" ∧ k.credentialType ∈ credentialTypeRegistry.values := by
  rw [toObject, Value.findings_object_eq_nil_iff]
  simp [objectType, Value.leavesEmpty, Registry.accepts_str_iff, and_assoc]

/-- Options have no findings exactly if they are valid. -/
theorem CreateOptions.findings_toObject_eq_nil_iff {o : CreateOptions} {assigned : List String}
    {p : FieldPath} : (o.toObject assigned).findings p = [] ↔ o.Valid := by
  rw [toObject, Value.findings_object_eq_nil_iff]
  simp only [objectType, Value.fieldFindings_ofFlag?, Value.fieldFindings_ofText?,
    Value.fieldFindings_nil, List.zip_cons_cons, List.zip_nil_left, List.forall_mem_cons,
    Option.some.injEq, forall_eq', Registry.accepts_ofText?_iff]
  simp only [reduceCtorEq, false_imp_iff, implies_true, true_and, and_true, List.not_mem_nil,
    Bool.false_eq_true]
  exact ⟨fun h ↦ ⟨h⟩, fun h ↦ h.licenseTemplate⟩

/-- An entry has no findings exactly if it is named, its visibility is unset or known, and nothing
inside it has any. -/
theorem RepositoryEntry.findings_toObject_eq_nil_iff {e : RepositoryEntry} {assigned : List String}
    {p : FieldPath} :
    (e.toObject assigned).findings p = [] ↔
      e.name ≠ "" ∧
      (e.visibility = none ∨ ∃ w ∈ visibilityRegistry.values, e.visibility = some w) ∧
      e.options.Valid ∧
      (∀ k ∈ e.deployKeys, k.toObject.findings [] = []) ∧
      (∀ t ∈ e.teams, t.toObject.findings [] = []) := by
  rw [toObject, Value.findings_object_eq_nil_iff]
  simp [objectType, Repository.fieldDecls, Repository.values, Value.leavesEmpty,
    Registry.accepts_ofText?_iff, CreateOptions.findings_toObject_eq_nil_iff,
    Value.itemFindings_eq_nil_iff]

/-! ## Valid resources -/

/-- A team grant is valid exactly if it has no findings and filling leaves it alone. -/
theorem TeamAccess.valid_iff {t : TeamAccess} :
    t.Valid ↔ t.toObject.findings [] = [] ∧ t.default = t := by
  rw [findings_toObject_eq_nil_iff]
  rcases t with ⟨name, _ | permission⟩
  · exact ⟨fun h ↦ by simpa using h.permission, fun h ↦ by simp [default, fill] at h⟩
  · simp only [reduceCtorEq, false_or]
    exact ⟨fun h ↦ ⟨⟨h.name, h.permission⟩, rfl⟩, fun h ↦ ⟨h.1.1, h.1.2⟩⟩

/-- A deploy key is valid exactly if it has no findings and filling leaves it alone. -/
theorem DeployKey.valid_iff {k : DeployKey} :
    k.Valid ↔ k.toObject.findings [] = [] ∧ k.default = k := by
  rw [findings_toObject_eq_nil_iff]
  rcases k with ⟨name, key, _ | readOnly, credentialType⟩
  · exact ⟨fun h ↦ absurd rfl h.readOnly, fun h ↦ by simp [default, fill] at h⟩
  · exact ⟨fun h ↦ ⟨⟨h.name, h.key, h.credentialType⟩, rfl⟩,
      fun h ↦ ⟨h.1.1, h.1.2.1, Option.some_ne_none _, h.1.2.2⟩⟩

/-- Items are all left alone exactly if mapping leaves their list alone. -/
theorem map_eq_self_iff {α : Type} {f : α → α} {items : List α} :
    items.map f = items ↔ ∀ x ∈ items, f x = x := by
  rw [← List.map_inj_left (g := fun x ↦ x), List.map_id']

/-- An entry is valid exactly if it has no findings and filling leaves it alone. -/
theorem RepositoryEntry.valid_iff {e : RepositoryEntry} :
    e.Valid ↔ e.toObject.findings [] = [] ∧ e.default = e := by
  rw [findings_toObject_eq_nil_iff]
  have hdefault : e.default = e ↔ e.defaultBranch ≠ none ∧ e.visibility ≠ none ∧
      (∀ k ∈ e.deployKeys, k.default = k) ∧ (∀ t ∈ e.teams, t.default = t) := by
    rcases e with ⟨⟨name, description, branch, visibility⟩, options, keys, teams⟩
    cases branch <;> cases visibility <;>
      simp [default, Repository.default, fill, map_eq_self_iff]
  rw [hdefault]
  constructor
  · intro h
    obtain ⟨w, hw, hv⟩ := h.visibility
    refine ⟨⟨h.name, .inr ⟨w, hw, hv⟩, h.options, fun k hk ↦ ?_, fun t ht ↦ ?_⟩,
      h.defaultBranch, by rw [hv]; exact Option.some_ne_none w, fun k hk ↦ ?_, fun t ht ↦ ?_⟩
    · exact (DeployKey.valid_iff.mp (h.deployKeys k hk)).1
    · exact (TeamAccess.valid_iff.mp (h.teams t ht)).1
    · exact (DeployKey.valid_iff.mp (h.deployKeys k hk)).2
    · exact (TeamAccess.valid_iff.mp (h.teams t ht)).2
  · rintro ⟨⟨hname, hvisibility, hoptions, hkeys, hteams⟩, hbranch, hset, hkeys', hteams'⟩
    exact {
      name := hname
      defaultBranch := hbranch
      visibility := hvisibility.resolve_left hset
      options := hoptions
      deployKeys := fun k hk ↦ DeployKey.valid_iff.mpr ⟨hkeys k hk, hkeys' k hk⟩
      teams := fun t ht ↦ TeamAccess.valid_iff.mpr ⟨hteams t ht, hteams' t ht⟩ }

end RepoManifest
