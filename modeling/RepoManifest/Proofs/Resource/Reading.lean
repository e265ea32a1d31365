import RepoManifest.Proofs.Reading.Declared
import RepoManifest.Resource.Reading

/-!
# What a resource read from a mapping holds

Reading a resource is explained: it gives a value or issues. A filled resource that was read from a
mapping is declared by it: each field holds what its entry stands for, or its default where there is
no entry or null, and no key of the mapping is left over. So a deploy key that may write was given a
form of falsehood, a team with more than the least permission was given that permission, and a
repository that is not private was given its visibility.
-/

namespace RepoManifest

open Reading

/-! ## Readings are explained -/

/-- Reading a team grant is explained. -/
theorem TeamAccess.isExplained_read (v : Value) : (TeamAccess.read v).IsExplained := by
  unfold TeamAccess.read
  split
  · next he => exact isExplained_of_entries_eq_error he
  · next given _ =>
    apply isExplained_withIssues
    refine isExplained_ap (isExplained_ap (isExplained_ok _) ?_) ?_
    · exact isExplained_field isExplained_text given _ _
    · exact isExplained_field (isExplained_optional isExplained_word) given _ _

/-- Reading a deploy key is explained. -/
theorem DeployKey.isExplained_read (v : Value) : (DeployKey.read v).IsExplained := by
  unfold DeployKey.read
  split
  · next he => exact isExplained_of_entries_eq_error he
  · next given _ =>
    apply isExplained_withIssues
    refine isExplained_ap (isExplained_ap (isExplained_ap (isExplained_ap
      (isExplained_ok _) ?_) ?_) ?_) ?_
    · exact isExplained_field isExplained_text given _ _
    · exact isExplained_field isExplained_text given _ _
    · exact isExplained_field (isExplained_optional isExplained_flag) given _ _
    · exact isExplained_field isExplained_word given _ _

/-- Reading creation options is explained. -/
theorem CreateOptions.isExplained_read (v : Value) : (CreateOptions.read v).IsExplained := by
  unfold CreateOptions.read
  split
  · next he => exact isExplained_of_entries_eq_error he
  · next given _ =>
    apply isExplained_withIssues
    refine isExplained_ap (isExplained_ap (isExplained_ok _) ?_) ?_
    · exact isExplained_field (isExplained_optional isExplained_flag) given _ _
    · exact isExplained_field (isExplained_optional isExplained_word) given _ _

/-- Reading the settings of a repository is explained. -/
theorem Repository.isExplained_ofEntries (given : List (Value × Value)) :
    (Repository.ofEntries given).IsExplained := by
  unfold Repository.ofEntries
  refine isExplained_ap (isExplained_ap (isExplained_ap (isExplained_ap
    (isExplained_ok _) ?_) ?_) ?_) ?_
  · exact isExplained_field isExplained_text given _ _
  · exact isExplained_field (isExplained_optional isExplained_text) given _ _
  · exact isExplained_field (isExplained_optional isExplained_text) given _ _
  · exact isExplained_field (isExplained_optional isExplained_word) given _ _

/-- Reading an entry is explained. -/
theorem RepositoryEntry.isExplained_read (v : Value) : (RepositoryEntry.read v).IsExplained := by
  unfold RepositoryEntry.read
  split
  · next he => exact isExplained_of_entries_eq_error he
  · next given _ =>
    apply isExplained_withIssues
    refine isExplained_ap (isExplained_ap (isExplained_ap (isExplained_ap
      (isExplained_ok _) (Repository.isExplained_ofEntries given)) ?_) ?_) ?_
    · exact isExplained_field CreateOptions.isExplained_read given _ _
    · exact isExplained_field (isExplained_listOrUnset DeployKey.isExplained_read) given _ _
    · exact isExplained_field (isExplained_listOrUnset TeamAccess.isExplained_read) given _ _

/-! ## Declarations -/

/-- What the entries of a mapping declare for a team grant. -/
structure TeamAccess.DeclaredIn (given : List (Value × Value)) (t : TeamAccess) : Prop where
  keys : OnlyNames objectType.names given
  name : Declared given "name" (Reads text) "" t.name
  permission : Declared given "permission" (SetTo word) (some "pull") t.permission
  granted : t.permission ≠ some "pull" →
    ∃ v w, Value.get? given "permission" = some v ∧ word v = .ok w ∧ t.permission = some w

/-- A value declares a team grant through its entries. -/
def TeamAccess.DeclaredBy (v : Value) (t : TeamAccess) : Prop :=
  ∃ given, entries [objectType] v = .ok given ∧ t.DeclaredIn given

/-- What the entries of a mapping declare for a deploy key. -/
structure DeployKey.DeclaredIn (given : List (Value × Value)) (k : DeployKey) : Prop where
  keys : OnlyNames objectType.names given
  name : Declared given "name" (Reads text) "" k.name
  key : Declared given "key" (Reads text) "" k.key
  readOnly : Declared given "read_only" (SetTo flag) (some true) k.readOnly
  credentialType : Declared given "credential_type" (Reads word) "deploykey" k.credentialType
  writable : k.readOnly = some false →
    ∃ v, Value.get? given "read_only" = some v ∧ v.SaysFalse

/-- A value declares a deploy key through its entries. -/
def DeployKey.DeclaredBy (v : Value) (k : DeployKey) : Prop :=
  ∃ given, entries [objectType] v = .ok given ∧ k.DeclaredIn given

/-- What the entries of a mapping declare for creation options. -/
structure CreateOptions.DeclaredIn (given : List (Value × Value)) (o : CreateOptions) : Prop where
  keys : OnlyNames objectType.names given
  autoInit : Declared given "auto_init" (SetTo flag) none o.autoInit
  licenseTemplate : Declared given "license_template" (SetTo word) none o.licenseTemplate

/-- A value declares creation options through its entries. -/
def CreateOptions.DeclaredBy (v : Value) (o : CreateOptions) : Prop :=
  ∃ given, entries [objectType] v = .ok given ∧ o.DeclaredIn given

/-- What the entries of a mapping declare for an entry of the repositories. -/
structure RepositoryEntry.DeclaredIn (given : List (Value × Value)) (e : RepositoryEntry) :
    Prop where
  keys : OnlyNames objectType.names given
  name : Declared given "name" (Reads text) "" e.name
  description : Declared given "description" (SetTo text) none e.description
  defaultBranch : Declared given "default_branch" (SetTo text) (some "master") e.defaultBranch
  visibility : Declared given "visibility" (SetTo word) (some "private") e.visibility
  options : Declared given "options" CreateOptions.DeclaredBy ⟨none, none⟩ e.options
  deployKeys : Declared given "deploy_keys" (Each DeployKey.DeclaredBy) [] e.deployKeys
  teams : Declared given "teams" (Each TeamAccess.DeclaredBy) [] e.teams
  visible : e.visibility ≠ some "private" →
    ∃ v w, Value.get? given "visibility" = some v ∧ word v = .ok w ∧ e.visibility = some w

/-- A value declares an entry of the repositories through its entries. -/
def RepositoryEntry.DeclaredBy (v : Value) (e : RepositoryEntry) : Prop :=
  ∃ given, entries [objectType] v = .ok given ∧ e.DeclaredIn given

/-- Filling replaces an unset field by its default and keeps a set one. -/
theorem Reading.declared_fill {α : Type} {given : List (Value × Value)} {name : String}
    {read : Value → Reading α} {a : Option α} (value : α)
    (h : Declared given name (SetTo read) none a) :
    Declared given name (SetTo read) (some value) (fill a value) := by
  refine h.imp (fun hn ↦ by rw [hn]; rfl) fun v _ hv ↦ ?_
  obtain ⟨x, hx, rfl⟩ := hv
  exact ⟨x, hx, rfl⟩

/-- A team grant that is read and filled is declared. -/
theorem TeamAccess.declaredBy_of_read {v : Value} {t : TeamAccess} (h : read v = .ok t) :
    t.default.DeclaredBy v := by
  unfold read at h
  split at h
  · simp at h
  · next given he =>
    simp only [withIssues_eq_ok_iff, ap_eq_ok_iff] at h
    obtain ⟨⟨_, permission, ⟨_, name, hmk, hname, rfl⟩, hpermission, rfl⟩, hkeys⟩ := h
    obtain rfl := Except.ok.inj hmk
    have hset := declared_fill defaultPermission (declared_setTo hpermission)
    refine ⟨given, he, {
      keys := keyIssues_eq_nil_iff.mp hkeys
      name := declared_reads hname text_null
      permission := hset
      granted := fun hne ↦ ?_ }⟩
    obtain ⟨w, hw, x, hx, hp⟩ := exists_entry_of_declared hset hne
    exact ⟨w, x, hw, hx, hp⟩

/-- A deploy key that is read and filled is declared. -/
theorem DeployKey.declaredBy_of_read {v : Value} {k : DeployKey} (h : read v = .ok k) :
    k.default.DeclaredBy v := by
  unfold read at h
  split at h
  · simp at h
  · next given he =>
    simp only [withIssues_eq_ok_iff, ap_eq_ok_iff] at h
    obtain ⟨⟨_, credentialType, ⟨_, readOnly, ⟨_, key, ⟨_, name, hmk, hname, rfl⟩, hkey, rfl⟩,
      hreadOnly, rfl⟩, hcredentialType, rfl⟩, hkeys⟩ := h
    obtain rfl := Except.ok.inj hmk
    have hset := declared_fill true (declared_setTo hreadOnly)
    refine ⟨given, he, {
      keys := keyIssues_eq_nil_iff.mp hkeys
      name := declared_reads hname text_null
      key := declared_reads hkey text_null
      readOnly := hset
      credentialType := declared_reads hcredentialType word_null
      writable := fun hfalse ↦ ?_ }⟩
    obtain ⟨w, hw, x, hx, hr⟩ := exists_entry_of_declared hset fun htrue ↦ by
      simp [DeployKey.default, htrue] at hfalse
    obtain rfl : x = false := Option.some.inj (hr.symm.trans hfalse)
    exact ⟨w, hw, flag_eq_false_iff.mp hx⟩

/-- Creation options that are read are declared. -/
theorem CreateOptions.declaredBy_of_read {v : Value} {o : CreateOptions} (h : read v = .ok o) :
    o.DeclaredBy v := by
  unfold read at h
  split at h
  · simp at h
  · next given he =>
    simp only [withIssues_eq_ok_iff, ap_eq_ok_iff] at h
    obtain ⟨⟨_, licenseTemplate, ⟨_, autoInit, hmk, hautoInit, rfl⟩, hlicense, rfl⟩, hkeys⟩ := h
    obtain rfl := Except.ok.inj hmk
    exact ⟨given, he, {
      keys := keyIssues_eq_nil_iff.mp hkeys
      autoInit := declared_setTo hautoInit
      licenseTemplate := declared_setTo hlicense }⟩

/-- No creation options are read from null. -/
theorem CreateOptions.read_null (o : CreateOptions) : read .null ≠ .ok o := by
  simp [read, entries, fault]

/-- An entry that is read and filled is declared. -/
theorem RepositoryEntry.declaredBy_of_read {v : Value} {e : RepositoryEntry} (h : read v = .ok e) :
    e.default.DeclaredBy v := by
  unfold read at h
  split at h
  · simp at h
  · next given he =>
    simp only [withIssues_eq_ok_iff, ap_eq_ok_iff] at h
    obtain ⟨⟨_, teams, ⟨_, deployKeys, ⟨_, options, ⟨_, r, hmk, hr, rfl⟩, hoptions, rfl⟩,
      hdeployKeys, rfl⟩, hteams, rfl⟩, hkeys⟩ := h
    obtain rfl := Except.ok.inj hmk
    simp only [Repository.ofEntries, ap_eq_ok_iff] at hr
    obtain ⟨_, visibility, ⟨_, defaultBranch, ⟨_, description, ⟨_, name, hmk, hname, rfl⟩,
      hdescription, rfl⟩, hdefaultBranch, rfl⟩, hvisibility, rfl⟩ := hr
    obtain rfl := Except.ok.inj hmk
    have hset := declared_fill defaultVisibility (declared_setTo hvisibility)
    refine ⟨given, he, {
      keys := keyIssues_eq_nil_iff.mp hkeys
      name := declared_reads hname text_null
      description := declared_setTo hdescription
      defaultBranch := declared_fill defaultBranchName (declared_setTo hdefaultBranch)
      visibility := hset
      options := declared_of_field hoptions (fun x hx ↦ absurd hx (CreateOptions.read_null x))
        fun _ _ _ hx ↦ CreateOptions.declaredBy_of_read hx
      deployKeys := declared_map (declared_each hdeployKeys) fun _ _ hk ↦
        DeployKey.declaredBy_of_read hk
      teams := declared_map (declared_each hteams) fun _ _ ht ↦ TeamAccess.declaredBy_of_read ht
      visible := fun hne ↦ ?_ }⟩
    obtain ⟨w, hw, x, hx, hv⟩ := exists_entry_of_declared hset hne
    exact ⟨w, x, hw, hx, hv⟩

end RepoManifest
