import RepoManifest.Proofs.Reading.Declared
import RepoManifest.Proofs.Reading.Outcome
import RepoManifest.Proofs.Value.Lookup
import RepoManifest.Resource.Reading

/-!
# Setting the last field

When a field of a mapping is set to another value, the other fields are read as before, and a
declared name is no unknown key. The last field of a resource is read last: a resource that could be
read is built around it, so setting it changes what is read into it, and nothing else.
-/

namespace RepoManifest

open Reading

variable {given : List (Value × Value)} {name : String} {v : Value}

namespace Reading

/-! ## Setting a field -/

/-- A declared name is no unknown key. -/
theorem keyIssues_insert {declared : List String} (hname : name ∈ declared)
    (h : keyIssues declared given = []) :
    keyIssues declared (Value.insert given (.str name) v) = [] := by
  rw [keyIssues_eq_nil_iff] at h ⊢
  intro entry hentry
  have hkeys : ∀ key ∈ given.map (·.1), ∃ name ∈ declared, key.text? = some name :=
    List.forall_mem_map.mpr h
  have hkey := List.mem_map_of_mem (f := (·.1)) hentry
  obtain hsame | hmore := Value.map_fst_insert given name v
  · exact hkeys _ (hsame ▸ hkey)
  · rw [hmore, List.mem_append, List.mem_singleton] at hkey
    obtain hkey | hkey := hkey
    · exact hkeys _ hkey
    · exact ⟨name, hname, by rw [hkey]; rfl⟩

/-- Another field is read as before. -/
theorem field_insert_of_ne {α : Type} {other : String} (h : other ≠ name)
    (read : Value → Reading α) (default : α) :
    field (Value.insert given (.str name) v) other read default =
      field given other read default := by
  rw [field, field, Value.get?_insert_of_ne h]

/-- What was read and then changed was read. -/
theorem map_eq_ok_iff {α β : Type} {f : α → β} {r : Reading α} {b : β} :
    r.map f = .ok b ↔ ∃ a, r = .ok a ∧ f a = b := by
  cases r <;> simp [Except.map]

/-- A readable mapping whose last field is set to another value is read with that value in the
field. -/
theorem read_last_insert {α β : Type} {front : Reading (α → β)} {read : Value → Reading α}
    {default : α} {declared : List String} {b : β} (hname : name ∈ declared)
    (h : withIssues (ap front (field given name read default)) (keyIssues declared given) = .ok b) :
    ∃ build a, front = .ok build ∧ build a = b ∧ ∀ v,
      withIssues (ap front (field (Value.insert given (.str name) v) name read default))
        (keyIssues declared (Value.insert given (.str name) v)) =
          (under (.name name) (read v)).map build := by
  rw [withIssues_eq_ok_iff, ap_eq_ok_iff] at h
  obtain ⟨⟨build, a, hbuild, -, hb⟩, hkeys⟩ := h
  refine ⟨build, a, hbuild, hb, fun v ↦ ?_⟩
  rw [keyIssues_insert hname hkeys, hbuild, field, Value.get?_insert_self]
  change withIssues (ap (.ok build) (under (.name name) (read v))) [] = _
  cases read v with
  | ok a => rfl
  | error issues => exact congrArg Except.error (List.append_nil _)

end Reading

/-! ## The last field of a resource -/

/-- A team grant whose permission is set. -/
theorem TeamAccess.read_insert_permission {t : TeamAccess} (h : read (.map given) = .ok t)
    (v : Value) :
    read (.map (Value.insert given (.str "permission") v)) =
      (under (.name "permission") (Reading.optional word v)).map fun p ↦
        { t with permission := p } := by
  have hlast : withIssues (ap _ (field given "permission" (Reading.optional word) none))
      (keyIssues objectType.names given) = .ok t := h
  obtain ⟨build, permission, hbuild, rfl, hread⟩ := read_last_insert (by decide) hlast
  simp only [ap_eq_ok_iff, Except.ok.injEq] at hbuild
  obtain ⟨_, name, rfl, -, rfl⟩ := hbuild
  refine .trans ?_ (hread v)
  simp (disch := decide) only [read, entries, field_insert_of_ne]

/-- A deploy key whose kind of credential is set. -/
theorem DeployKey.read_insert_credentialType {k : DeployKey} (h : read (.map given) = .ok k)
    (v : Value) :
    read (.map (Value.insert given (.str "credential_type") v)) =
      (under (.name "credential_type") (word v)).map fun c ↦ { k with credentialType := c } := by
  have hlast : withIssues (ap _ (field given "credential_type" word "deploykey"))
      (keyIssues objectType.names given) = .ok k := h
  obtain ⟨build, credentialType, hbuild, rfl, hread⟩ := read_last_insert (by decide) hlast
  simp only [ap_eq_ok_iff, Except.ok.injEq] at hbuild
  obtain ⟨_, readOnly, ⟨_, key, ⟨_, name, rfl, -, rfl⟩, -, rfl⟩, -, rfl⟩ := hbuild
  refine .trans ?_ (hread v)
  simp (disch := decide) only [read, entries, field_insert_of_ne]

/-- Creation options whose licence template is set. -/
theorem CreateOptions.read_insert_licenseTemplate {o : CreateOptions}
    (h : read (.map given) = .ok o) (v : Value) :
    read (.map (Value.insert given (.str "license_template") v)) =
      (under (.name "license_template") (Reading.optional word v)).map fun w ↦
        { o with licenseTemplate := w } := by
  have hlast : withIssues (ap _ (field given "license_template" (Reading.optional word) none))
      (keyIssues objectType.names given) = .ok o := h
  obtain ⟨build, licence, hbuild, rfl, hread⟩ := read_last_insert (by decide) hlast
  simp only [ap_eq_ok_iff, Except.ok.injEq] at hbuild
  obtain ⟨_, autoInit, rfl, -, rfl⟩ := hbuild
  refine .trans ?_ (hread v)
  simp (disch := decide) only [read, entries, field_insert_of_ne]

/-- A repository whose visibility is set. -/
theorem Repository.read_insert_visibility {r : Repository} (h : read (.map given) = .ok r)
    (v : Value) :
    read (.map (Value.insert given (.str "visibility") v)) =
      (under (.name "visibility") (Reading.optional word v)).map fun w ↦
        { r with visibility := w } := by
  have hlast : withIssues (ap _ (field given "visibility" (Reading.optional word) none))
      (keyIssues objectType.names given) = .ok r := h
  obtain ⟨build, visibility, hbuild, rfl, hread⟩ := read_last_insert (by decide) hlast
  simp only [ap_eq_ok_iff, Except.ok.injEq] at hbuild
  obtain ⟨_, branch, ⟨_, description, ⟨_, name, rfl, -, rfl⟩, -, rfl⟩, -, rfl⟩ := hbuild
  refine .trans ?_ (hread v)
  simp (disch := decide) only [read, ofEntries, entries, field_insert_of_ne]

end RepoManifest
