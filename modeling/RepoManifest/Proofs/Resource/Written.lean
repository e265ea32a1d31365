import RepoManifest.Proofs.Reading.Outcome
import RepoManifest.Proofs.Reading.Declared
import RepoManifest.Proofs.Value.Plain
import RepoManifest.Resource.Reading

/-!
# Resources written back

An object is written as the mapping of all its fields, also of those that are unset, and so is each
object in its fields and lists. What is read from a written resource is that resource: an explicit
null unsets a field, and a text or flag is read as it is.
-/

namespace RepoManifest

open Reading

namespace Value

mutual

/-- A value written as plain data: an object is the mapping of its fields. -/
def written : Value → Value
  | .object type _ values => .map (writtenFields type.fields values)
  | .list items => .list (writtenItems items)
  | v => v

/-- The entries of written fields. -/
def writtenFields : List FieldDecl → List Value → List (Value × Value)
  | f :: fields, v :: values => (.str f.name, written v) :: writtenFields fields values
  | _, _ => []

/-- Written items. -/
def writtenItems : List Value → List Value
  | [] => []
  | v :: rest => written v :: writtenItems rest

end

/-- Items are written one by one. -/
theorem writtenItems_eq_map (items : List Value) : writtenItems items = items.map written := by
  induction items with
  | nil => rfl
  | cons v rest ih => rw [writtenItems, ih, List.map_cons]

/-- A text that may be unset is written as it is. -/
@[simp] theorem written_ofText? (s : Option String) : (ofText? s).written = ofText? s := by
  cases s <;> rfl

/-- A flag that may be unset is written as it is. -/
@[simp] theorem written_ofFlag? (b : Option Bool) : (ofFlag? b).written = ofFlag? b := by
  cases b <;> rfl

end Value

namespace Reading

variable {α : Type}

/-- A field with an entry holds what is read from it. -/
theorem field_of_get? {given : List (Value × Value)} {name : String} {read : Value → Reading α}
    {default a : α} {v : Value} (hv : Value.get? given name = some v) (hread : read v = .ok a) :
    field given name read default = .ok a := by
  simp only [field, hv, hread, under]

/-- A word is read as it was. -/
theorem word_str (s : String) : word (.str s) = .ok s := rfl

/-- A text that may be unset is read as it was. -/
theorem optional_text_ofText? (s : Option String) : optional text (.ofText? s) = .ok s := by
  cases s <;> rfl

/-- A word that may be unset is read as it was. -/
theorem optional_word_ofText? (s : Option String) : optional word (.ofText? s) = .ok s := by
  cases s <;> rfl

/-- A flag that may be unset is read as it was. -/
theorem optional_flag_ofFlag? (b : Option Bool) : optional flag (.ofFlag? b) = .ok b := by
  cases b <;> rfl

/-- A list of written resources is read as it was, if each of them is. -/
theorem listOrUnset_written {read : Value → Reading α} {object : α → Value}
    (h : ∀ x, read (object x).written = .ok x) (found : List α) :
    listOrUnset read (.list (found.map fun x ↦ (object x).written)) = .ok found := by
  rw [listOrUnset, list, sequence?]
  · refine itemsFrom_eq_ok_iff.mpr ?_
    rw [List.forall₂_map_left_iff, List.forall₂_same]
    exact fun x _ ↦ h x
  · exact fun hnull ↦ by cases hnull

end Reading

/-! ## What is written -/

/-- A team grant is written with its name and permission. -/
theorem TeamAccess.written_toObject (t : TeamAccess) : t.toObject.written =
    .map [(.str "name", .str t.name), (.str "permission", .ofText? t.permission)] := by
  simp [toObject, objectType, Value.written, Value.writtenFields]

/-- A deploy key is written with its fields. -/
theorem DeployKey.written_toObject (k : DeployKey) : k.toObject.written =
    .map [(.str "name", .str k.name), (.str "key", .str k.key),
      (.str "read_only", .ofFlag? k.readOnly),
      (.str "credential_type", .str k.credentialType)] := by
  simp [toObject, objectType, Value.written, Value.writtenFields]

/-- Creation options are written with their fields. -/
theorem CreateOptions.written_toObject (o : CreateOptions) : o.toObject.written =
    .map [(.str "auto_init", .ofFlag? o.autoInit),
      (.str "license_template", .ofText? o.licenseTemplate)] := by
  simp [toObject, objectType, Value.written, Value.writtenFields]

/-- An entry is written with its settings, options, keys and teams. -/
theorem RepositoryEntry.written_toObject (e : RepositoryEntry) : e.toObject.written =
    .map [(.str "name", .str e.name), (.str "description", .ofText? e.description),
      (.str "default_branch", .ofText? e.defaultBranch),
      (.str "visibility", .ofText? e.visibility), (.str "options", e.options.toObject.written),
      (.str "deploy_keys", .list (e.deployKeys.map fun k ↦ k.toObject.written)),
      (.str "teams", .list (e.teams.map fun t ↦ t.toObject.written))] := by
  simp [toObject, objectType, Repository.fieldDecls, Repository.values, Value.written,
    Value.writtenFields, Value.writtenItems_eq_map, Function.comp_def]

/-- A text that may be unset is plain. -/
@[simp] theorem Value.isPlain_ofText? (s : Option String) : (ofText? s).isPlain = true := by
  cases s <;> rfl

/-- A flag that may be unset is plain. -/
@[simp] theorem Value.isPlain_ofFlag? (b : Option Bool) : (ofFlag? b).isPlain = true := by
  cases b <;> rfl

/-- A written entry is plain data. -/
theorem RepositoryEntry.isPlain_written (e : RepositoryEntry) :
    e.toObject.written.isPlain = true := by
  have hstr (s : String) : (Value.str s).isPlain = true := rfl
  have hteam (t : TeamAccess) : t.toObject.written.isPlain = true := by
    rw [t.written_toObject]
    simp [Value.PlainEntry, hstr]
  have hkey (k : DeployKey) : k.toObject.written.isPlain = true := by
    rw [k.written_toObject]
    simp [Value.PlainEntry, hstr]
  have hoptions : e.options.toObject.written.isPlain = true := by
    rw [CreateOptions.written_toObject]
    simp [Value.PlainEntry, hstr]
  rw [e.written_toObject]
  simp [Value.PlainEntry, hstr, hoptions, hkey, hteam]

/-! ## Reading what was written -/

/-- A written team grant is read as it was. -/
theorem TeamAccess.read_written (t : TeamAccess) : read t.toObject.written = .ok t := by
  rw [written_toObject, read, entries]
  refine withIssues_eq_ok_iff.mpr ⟨?_, rfl⟩
  rw [field_of_get? (by simp [Value.get?_cons, Value.text?]) (text_str t.name),
    field_of_get? (by simp [Value.get?_cons, Value.text?]) (optional_word_ofText? t.permission)]
  rfl

/-- A written deploy key is read as it was. -/
theorem DeployKey.read_written (k : DeployKey) : read k.toObject.written = .ok k := by
  rw [written_toObject, read, entries]
  refine withIssues_eq_ok_iff.mpr ⟨?_, rfl⟩
  rw [field_of_get? (by simp [Value.get?_cons, Value.text?]) (text_str k.name),
    field_of_get? (by simp [Value.get?_cons, Value.text?]) (text_str k.key),
    field_of_get? (by simp [Value.get?_cons, Value.text?]) (optional_flag_ofFlag? k.readOnly),
    field_of_get? (by simp [Value.get?_cons, Value.text?]) (word_str k.credentialType)]
  rfl

/-- Written creation options are read as they were. -/
theorem CreateOptions.read_written (o : CreateOptions) : read o.toObject.written = .ok o := by
  rw [written_toObject, read, entries]
  refine withIssues_eq_ok_iff.mpr ⟨?_, rfl⟩
  rw [field_of_get? (by simp [Value.get?_cons, Value.text?]) (optional_flag_ofFlag? o.autoInit),
    field_of_get? (by simp [Value.get?_cons, Value.text?])
      (optional_word_ofText? o.licenseTemplate)]
  rfl

/-- A written entry is read as it was. -/
theorem RepositoryEntry.read_written (e : RepositoryEntry) : read e.toObject.written = .ok e := by
  rw [written_toObject, read, entries]
  refine withIssues_eq_ok_iff.mpr ⟨?_, rfl⟩
  rw [Repository.ofEntries,
    field_of_get? (by simp [Value.get?_cons, Value.text?]) (text_str e.name),
    field_of_get? (by simp [Value.get?_cons, Value.text?]) (optional_text_ofText? e.description),
    field_of_get? (by simp [Value.get?_cons, Value.text?]) (optional_text_ofText? e.defaultBranch),
    field_of_get? (by simp [Value.get?_cons, Value.text?]) (optional_word_ofText? e.visibility),
    field_of_get? (by simp [Value.get?_cons, Value.text?]) e.options.read_written,
    field_of_get? (by simp [Value.get?_cons, Value.text?])
      (listOrUnset_written DeployKey.read_written e.deployKeys),
    field_of_get? (by simp [Value.get?_cons, Value.text?])
      (listOrUnset_written TeamAccess.read_written e.teams)]
  rfl

end RepoManifest
