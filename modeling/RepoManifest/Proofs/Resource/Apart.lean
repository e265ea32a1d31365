import Mathlib.Data.Set.Function
import RepoManifest.Proofs.Resource.LastField
import RepoManifest.Proofs.Resource.Walk
import RepoManifest.Proofs.Validation.Apart
import RepoManifest.Proofs.Validation.ByField
import RepoManifest.Resource.Object

/-!
# Findings told apart by their paths

The objects of a tree stand at different places: fields of one object have different names, items of
one list different positions. An object of a resource has at most one finding per field, since no
field is both required and restricted. So the findings of a resource are at different paths, which
are written differently below any root, and the table of error texts has one entry for each.
-/

namespace RepoManifest

/-- The fields of a type are told apart: they have different names, which are found again in a
written path, and none is both required and restricted. -/
structure ObjectType.Apart (type : ObjectType) : Prop where
  names : (type.fields.map (·.name)).Nodup
  bare : ∀ f ∈ type.fields, (Segment.name f.name).Bare
  once : ∀ f ∈ type.fields, f.required = true → f.registry = none

/-- The fields of every resource are told apart. -/
theorem ResourceKind.apart (kind : ResourceKind) : kind.objectType.Apart := by
  cases kind <;> exact ⟨by decide, by decide, by decide⟩

namespace Value

/-! ## Objects of certain types -/

mutual

/-- The types of the objects in a value, however deep in fields and lists, have a property. -/
def AllTypes (P : ObjectType → Prop) : Value → Prop
  | .object type _ values => P type ∧ AllTypesIn P values
  | .list items => AllTypesIn P items
  | _ => True

/-- The types of the objects in some values have a property. -/
def AllTypesIn (P : ObjectType → Prop) : List Value → Prop
  | [] => True
  | v :: rest => AllTypes P v ∧ AllTypesIn P rest

end

variable {P Q : ObjectType → Prop}

/-- The types of the objects in some values have a property if they have it in each of them. -/
theorem allTypesIn_iff {values : List Value} :
    AllTypesIn P values ↔ ∀ v ∈ values, AllTypes P v := by
  induction values with
  | nil => simp [AllTypesIn]
  | cons v rest ih => rw [AllTypesIn, ih, List.forall_mem_cons]

mutual

/-- What a property implies, the types of the objects have as well. -/
theorem AllTypes.mono (h : ∀ type, P type → Q type) : ∀ {v : Value}, v.AllTypes P → v.AllTypes Q
  | .object type _ _, hv => ⟨h type hv.1, AllTypesIn.mono h hv.2⟩
  | .list _, hv => AllTypesIn.mono h hv
  | .null, _ | .bool _, _ | .int _, _ | .double _, _ | .str _, _ | .bytes _, _ | .date _, _
  | .datetime _ _, _ | .tuple _, _ | .set _, _ | .map _, _ | .member _ _ _, _ => trivial

/-- What a property implies, the types of the objects in some values have as well. -/
theorem AllTypesIn.mono (h : ∀ type, P type → Q type) :
    ∀ {values : List Value}, AllTypesIn P values → AllTypesIn Q values
  | [], _ => trivial
  | _ :: _, hv => ⟨AllTypes.mono h hv.1, AllTypesIn.mono h hv.2⟩

end

/-- If the objects of a value have their fields told apart, so have those of what is within it, and
its position is found again in a written path. -/
theorem Within.allTypes {v x : Value} {position : FieldPath} (h : Within v position x)
    (hv : v.AllTypes ObjectType.Apart) : x.AllTypes ObjectType.Apart ∧ position.Bare := by
  induction h with
  | self => exact ⟨hv, List.forall_mem_nil _⟩
  | field _ hfield ih =>
    obtain ⟨⟨htype, hvalues⟩, hposition⟩ := ih
    obtain ⟨hf, hx⟩ := List.of_mem_zip hfield
    refine ⟨allTypesIn_iff.mp hvalues _ hx, List.forall_mem_append.mpr ⟨hposition, ?_⟩⟩
    exact List.forall_mem_singleton.mpr (htype.bare _ hf)
  | item _ hfield hitem ih =>
    obtain ⟨⟨htype, hvalues⟩, hposition⟩ := ih
    obtain ⟨hf, hx⟩ := List.of_mem_zip hfield
    have hitems := allTypesIn_iff.mp (allTypesIn_iff.mp hvalues _ hx)
    refine ⟨hitems _ (List.mem_of_getElem? hitem), List.forall_mem_append.mpr ⟨hposition, ?_⟩⟩
    exact List.forall_mem_cons.mpr ⟨htype.bare _ hf, List.forall_mem_singleton.mpr trivial⟩

/-! ## Objects at different paths -/

/-- Objects below different steps of one path are at different paths. -/
theorem disjoint_paths (p : FieldPath) {l m : List Site}
    (h : ∀ s ∈ l, ∀ t ∈ m, ∃ a b : Segment, ∃ rest more,
      a ≠ b ∧ s.path = p ++ a :: rest ∧ t.path = p ++ b :: more) :
    (l.map (·.path)).Disjoint (m.map (·.path)) := by
  intro path hl hm
  obtain ⟨s, hs, rfl⟩ := List.mem_map.mp hl
  obtain ⟨t, ht, hpath⟩ := List.mem_map.mp hm
  obtain ⟨a, b, rest, more, hne, hsp, htp⟩ := h s hs t ht
  rw [hsp, htp] at hpath
  exact hne (List.head_eq_of_cons_eq (List.append_cancel_left hpath)).symm

mutual

/-- The objects of a value are at different paths. -/
theorem nodup_sites (p : FieldPath) : ∀ {v : Value}, v.AllTypes ObjectType.Apart →
    ((sites p v).map (·.path)).Nodup
  | .object type _ values, ⟨htype, hvalues⟩ => by
    rw [sites, List.map_cons, List.nodup_cons]
    refine ⟨fun hmem ↦ ?_, nodup_sitesInFields p htype.names hvalues⟩
    obtain ⟨s, hs, hpath⟩ := List.mem_map.mp hmem
    obtain ⟨n, _, rest, hbelow⟩ := exists_name_of_mem_sitesInFields hs
    rw [hbelow] at hpath
    exact List.cons_ne_nil _ _ (List.append_right_eq_self.mp hpath)
  | .null, _ | .bool _, _ | .int _, _ | .double _, _ | .str _, _ | .bytes _, _ | .date _, _
  | .datetime _ _, _ | .tuple _, _ | .list _, _ | .set _, _ | .map _, _ | .member _ _ _, _ =>
    List.nodup_nil

/-- The objects in fields of different names are at different paths. -/
theorem nodup_sitesInFields (p : FieldPath) : ∀ {fields : List FieldDecl} {values : List Value},
    (fields.map (·.name)).Nodup → AllTypesIn ObjectType.Apart values →
      ((sitesInFields p fields values).map (·.path)).Nodup
  | f :: fields, v :: values, hnames, ⟨hv, hvalues⟩ => by
    rw [List.map_cons, List.nodup_cons] at hnames
    have hrest := nodup_sitesInFields p hnames.2 hvalues
    -- What is in another field is below another name.
    have happend {l : List Site} (hl : (l.map (·.path)).Nodup)
        (hbelow : ∀ s ∈ l, ∃ rest, s.path = p ++ .name f.name :: rest) :
        ((l ++ sitesInFields p fields values).map (·.path)).Nodup := by
      rw [List.map_append]
      refine hl.append hrest (disjoint_paths p fun s hs t ht ↦ ?_)
      obtain ⟨rest, hsp⟩ := hbelow s hs
      obtain ⟨n, hn, more, htp⟩ := exists_name_of_mem_sitesInFields ht
      refine ⟨_, _, rest, more, fun heq ↦ hnames.1 ?_, hsp, htp⟩
      rwa [Segment.name.inj heq]
    have hown := happend (nodup_sites (p ++ [.name f.name]) hv) fun s hs ↦ by
      obtain ⟨rest, hpath⟩ := exists_path_of_mem_sites hs
      exact ⟨rest, by simpa using hpath⟩
    cases v with
    | list items =>
      refine happend (nodup_sitesInItems (p ++ [.name f.name]) 0 hv) fun s hs ↦ ?_
      obtain ⟨j, _, rest, hpath⟩ := exists_index_of_mem_sitesInItems hs
      exact ⟨.index j :: rest, by simpa using hpath⟩
    | _ => exact hown
  | [], _, _, _ => by simp [sitesInFields]
  | _ :: _, [], _, _ => by simp [sitesInFields]

/-- The objects in a list are at different paths. -/
theorem nodup_sitesInItems (p : FieldPath) : ∀ (i : Nat) {items : List Value},
    AllTypesIn ObjectType.Apart items → ((sitesInItems p i items).map (·.path)).Nodup
  | _, [], _ => List.nodup_nil
  | i, v :: rest, ⟨hv, hrest⟩ => by
    rw [sitesInItems, List.map_append]
    refine (nodup_sites (p ++ [.index i]) hv).append (nodup_sitesInItems p (i + 1) hrest)
      (disjoint_paths p fun s hs t ht ↦ ?_)
    obtain ⟨below, hsp⟩ := exists_path_of_mem_sites hs
    obtain ⟨j, hj, more, htp⟩ := exists_index_of_mem_sitesInItems ht
    refine ⟨.index i, .index j, below, more, fun heq ↦ ?_, by simpa using hsp, htp⟩
    have hij : (i : Int) = j := Segment.index.inj heq
    omega

end

/-! ## Findings -/

/-- The names of an object's fields are among those of its type, in the same order. -/
theorem map_name_zip_sublist (fields : List FieldDecl) (values : List Value) :
    ((fields.zip values).map (·.1.name)).Sublist (fields.map (·.name)) := by
  induction fields generalizing values with
  | nil => exact List.nil_sublist _
  | cons f fields ih =>
    cases values with
    | nil => exact List.nil_sublist _
    | cons v values => exact (ih values).cons_cons _

/-- Findings that are each at the name of one field are at different paths if the names differ. -/
theorem nodup_path_filterMap (p : FieldPath) {fields : List (FieldDecl × Value)}
    {find : FieldDecl × Value → Option Finding}
    (hpath : ∀ entry f, find entry = some f → f.path = p ++ [.name entry.1.name])
    (hnames : (fields.map (·.1.name)).Nodup) : ((fields.filterMap find).map (·.path)).Nodup := by
  refine List.pairwise_map.mpr (List.pairwise_filterMap.mpr ?_)
  refine (List.pairwise_map.mp hnames).imp fun hne f hf g hg heq ↦ hne ?_
  rw [hpath _ _ hf, hpath _ _ hg] at heq
  exact Segment.name.inj (List.head_eq_of_cons_eq (List.append_cancel_left heq))

end Value

/-- An object whose fields are told apart has its findings at different paths. -/
theorem Site.nodup_findings {type : ObjectType} (htype : type.Apart) (p : FieldPath)
    (values : List Value) : ((findings ⟨p, type.fields.zip values⟩).map (·.path)).Nodup := by
  have hnames : ((type.fields.zip values).map (·.1.name)).Nodup :=
    htype.names.sublist (Value.map_name_zip_sublist type.fields values)
  have hrequired : ((Value.requiredFindings p (type.fields.zip values)).map (·.path)).Nodup := by
    refine Value.nodup_path_filterMap p (fun entry f hf ↦ ?_) hnames
    obtain ⟨-, hfinding⟩ := Option.ite_none_right_eq_some.mp hf
    cases hfinding
    rfl
  have hregistry : ((Value.registryFindings p (type.fields.zip values)).map (·.path)).Nodup :=
    Value.nodup_path_filterMap p (fun _ _ hf ↦ (Value.path_of_registryFinding? hf).2) hnames
  rw [findings, List.map_append]
  refine hrequired.append hregistry fun path hleft hright ↦ ?_
  obtain ⟨f, hf, rfl⟩ := List.mem_map.mp hleft
  obtain ⟨g, hg, hsame⟩ := List.mem_map.mp hright
  obtain ⟨entry, hentry, hmust, hfpath⟩ := Value.exists_required_of_mem_requiredFindings hf
  obtain ⟨other, hother, ⟨r, hr⟩, hgpath⟩ := Value.exists_registry_of_mem_registryFindings hg
  rw [hfpath, hgpath] at hsame
  have hname : other.1.name = entry.1.name :=
    Segment.name.inj (List.head_eq_of_cons_eq (List.append_cancel_left hsame))
  have hfield : other.1 = entry.1 := List.inj_on_of_nodup_map htype.names
    (List.of_mem_zip hother).1 (List.of_mem_zip hentry).1 hname
  rw [hfield, htype.once _ (List.of_mem_zip hentry).1 hmust] at hr
  cases hr

namespace Value

/-- The findings of a tree of objects whose fields are told apart are at different paths. -/
theorem nodup_path_findings (p : FieldPath) {v : Value} (h : v.AllTypes ObjectType.Apart) :
    ((findings p v).map (·.path)).Nodup := by
  rw [findings_eq_flatMap, List.map_flatMap, List.nodup_flatMap]
  refine ⟨fun s hs ↦ ?_, ?_⟩
  · obtain ⟨position, type, _, values, hwithin, rfl⟩ := mem_sites_iff.mp hs
    exact Site.nodup_findings (hwithin.allTypes h).1.1 _ values
  · refine (List.pairwise_map.mp (nodup_sites p h)).imp fun {s t} hne path hs ht ↦ hne ?_
    obtain ⟨f, hf, rfl⟩ := List.mem_map.mp hs
    obtain ⟨g, hg, hpath⟩ := List.mem_map.mp ht
    obtain ⟨_, _, hfpath⟩ := Site.exists_field_of_mem_findings hf
    obtain ⟨_, _, hgpath⟩ := Site.exists_field_of_mem_findings hg
    rw [hfpath, hgpath] at hpath
    exact (List.append_inj_left' hpath rfl).symm

/-- Such a finding is at a place that is found again in a written path. -/
theorem exists_bare_of_mem_findings {p : FieldPath} {v : Value} (h : v.AllTypes ObjectType.Apart)
    {f : Finding} (hf : f ∈ findings p v) :
    ∃ place : FieldPath, place.Bare ∧ f.path = p ++ place := by
  rw [findings_eq_flatMap] at hf
  obtain ⟨s, hs, hf⟩ := List.mem_flatMap.mp hf
  obtain ⟨position, type, _, values, hwithin, rfl⟩ := mem_sites_iff.mp hs
  obtain ⟨⟨htype, _⟩, hposition⟩ := hwithin.allTypes h
  obtain ⟨entry, hentry, hpath⟩ := Site.exists_field_of_mem_findings hf
  refine ⟨position ++ [.name entry.1.name], List.forall_mem_append.mpr ⟨hposition, ?_⟩, ?_⟩
  · exact List.forall_mem_singleton.mpr (htype.bare _ (List.of_mem_zip hentry).1)
  · rw [hpath, List.append_assoc]

/-- The paths of such findings are written differently, whatever the root. -/
theorem nodup_join_findings (p : FieldPath) {v : Value} (h : v.AllTypes ObjectType.Apart) :
    ((findings p v).map (·.path.join)).Nodup := by
  have hinj : ∀ path ∈ (findings p v).map (·.path), ∀ other ∈ (findings p v).map (·.path),
      path.join = other.join → path = other := by
    intro path hpath other hother heq
    obtain ⟨f, hf, rfl⟩ := List.mem_map.mp hpath
    obtain ⟨g, hg, rfl⟩ := List.mem_map.mp hother
    obtain ⟨place, hplace, hfpath⟩ := exists_bare_of_mem_findings h hf
    obtain ⟨more, hmore, hgpath⟩ := exists_bare_of_mem_findings h hg
    rw [hfpath, hgpath] at heq ⊢
    rw [FieldPath.join_append_injOn p hplace hmore heq]
  have hnodup := (nodup_path_findings p h).map_on hinj
  rwa [List.map_map] at hnodup

end Value

/-! ## Resources -/

/-- The types of resources. -/
def ObjectType.IsResource (type : ObjectType) : Prop :=
  ∃ kind : ResourceKind, type = kind.objectType

/-- The fields of a resource are told apart. -/
theorem ObjectType.IsResource.apart {type : ObjectType} (h : type.IsResource) : type.Apart := by
  obtain ⟨kind, rfl⟩ := h
  exact kind.apart

section

variable {P : ObjectType → Prop}

/-- A text that may be unset holds no objects. -/
theorem Value.allTypes_ofText? (s : Option String) : (ofText? s).AllTypes P := by
  cases s <;> trivial

/-- A flag that may be unset holds no objects. -/
theorem Value.allTypes_ofFlag? (b : Option Bool) : (ofFlag? b).AllTypes P := by
  cases b <;> trivial

end

/-- A deploy key is a resource without further objects. -/
theorem DeployKey.allTypes_toObject (k : DeployKey) (assigned : List String) :
    (k.toObject assigned).AllTypes ObjectType.IsResource :=
  ⟨⟨.deployKey, rfl⟩, trivial, trivial, Value.allTypes_ofFlag? _, trivial, trivial⟩

/-- A team grant is a resource without further objects. -/
theorem TeamAccess.allTypes_toObject (t : TeamAccess) (assigned : List String) :
    (t.toObject assigned).AllTypes ObjectType.IsResource :=
  ⟨⟨.teamAccess, rfl⟩, trivial, Value.allTypes_ofText? _, trivial⟩

/-- Creation options are a resource without further objects. -/
theorem CreateOptions.allTypes_toObject (o : CreateOptions) (assigned : List String) :
    (o.toObject assigned).AllTypes ObjectType.IsResource :=
  ⟨⟨.createOptions, rfl⟩, Value.allTypes_ofFlag? _, Value.allTypes_ofText? _, trivial⟩

/-- A repository is a resource without further objects. -/
theorem Repository.allTypes_toObject (r : Repository) (assigned : List String) :
    (r.toObject assigned).AllTypes ObjectType.IsResource :=
  ⟨⟨.repository, rfl⟩, trivial, Value.allTypes_ofText? _, Value.allTypes_ofText? _,
    Value.allTypes_ofText? _, trivial⟩

/-- An entry is a resource, and so are its options, its keys and its teams. -/
theorem RepositoryEntry.allTypes_toObject (e : RepositoryEntry) (assigned : List String) :
    (e.toObject assigned).AllTypes ObjectType.IsResource := by
  have hkeys : Value.AllTypesIn ObjectType.IsResource (e.deployKeys.map (·.toObject)) :=
    Value.allTypesIn_iff.mpr (List.forall_mem_map.mpr fun k _ ↦ k.allTypes_toObject [])
  have hteams : Value.AllTypesIn ObjectType.IsResource (e.teams.map (·.toObject)) :=
    Value.allTypesIn_iff.mpr (List.forall_mem_map.mpr fun t _ ↦ t.allTypes_toObject [])
  exact ⟨⟨.entry, rfl⟩, trivial, Value.allTypes_ofText? _, Value.allTypes_ofText? _,
    Value.allTypes_ofText? _, e.options.allTypes_toObject [], hkeys, hteams, trivial⟩

/-- What is read as a resource holds no objects but resources, unless it was an object before. -/
theorem ResourceKind.allTypes_of_read {kind : ResourceKind} {v object : Value}
    (h : kind.read v = .ok object) (hv : v.AllTypes ObjectType.IsResource) :
    object.AllTypes ObjectType.IsResource := by
  unfold read at h
  split at h
  · split at h
    · exact Except.ok.inj h ▸ hv
    · cases h
  · cases kind with
    | repository =>
      obtain ⟨r, _, rfl⟩ := Reading.map_eq_ok_iff.mp h
      exact r.allTypes_toObject _
    | entry =>
      obtain ⟨e, _, rfl⟩ := Reading.map_eq_ok_iff.mp h
      exact e.allTypes_toObject _
    | createOptions =>
      obtain ⟨o, _, rfl⟩ := Reading.map_eq_ok_iff.mp h
      exact o.allTypes_toObject _
    | deployKey =>
      obtain ⟨k, _, rfl⟩ := Reading.map_eq_ok_iff.mp h
      exact k.allTypes_toObject _
    | teamAccess =>
      obtain ⟨t, _, rfl⟩ := Reading.map_eq_ok_iff.mp h
      exact t.allTypes_toObject _
  · cases h

/-! ## Recording -/

/-- A violation as an entry of the table of error texts: its field and the text of its error. -/
def Violation.entry (x : Violation) : Value × Value := (x.field, .str x.error.message)

/-- A walk below a root adds some violations to a validator, all at different fields. The table of
their error texts has one entry for each of them, with its own text, and is the table of the
validator if there was nothing in it before. -/
structure Validator.RecordsApart (v w : Validator) (root : FieldPath) (object : Value)
    (more : List Violation) : Prop where
  walk : v.appendFindings (root.map Segment.toValue) object = .ok w
  added : w.name = v.name ∧ w.violations = v.violations ++ more
  distinct : (more.map (·.field)).Nodup
  table : InvalidObject.byField ⟨w.name, more⟩ = .ok (more.map Violation.entry)
  fresh : v.violations = [] → w.byField = .ok (more.map Violation.entry)

/-- Findings at paths that are written differently have one entry each in the table of texts. -/
theorem textTable_eq_map_entry {found : List Finding} (h : (found.map (·.path.join)).Nodup) :
    textTable found = (found.map Finding.violation).map Violation.entry := by
  rw [textTable_of_nodup h, List.map_map]
  rfl

/-- A walk through a tree of objects whose fields are told apart records its violations apart. -/
theorem Validator.exists_recordsApart {object : Value} (h : object.AllTypes ObjectType.Apart)
    (v : Validator) (root : FieldPath) : ∃ w more, v.RecordsApart w root object more := by
  have hpaths := Value.nodup_join_findings root h
  have hadded : (v.recordAll (object.findings root)).violations =
      v.violations ++ (object.findings root).map Finding.violation := v.violations_recordAll _
  refine ⟨v.recordAll (object.findings root), (object.findings root).map Finding.violation, ?_⟩
  refine ⟨appendFindings_eq_recordAll root v object, ⟨Value.name_recordAll v _, hadded⟩, ?_, ?_,
    fun hfresh ↦ ?_⟩
  · have hfields := hpaths.map fun _ _ ↦ Value.str.inj
    rwa [List.map_map] at hfields ⊢
  · rw [InvalidObject.byField_eq, textTable_eq_map_entry hpaths]
  · rw [hfresh, List.nil_append] at hadded
    rw [← textTable_eq_map_entry hpaths, ← Validator.byField_eq (v.recordAll _).name, ← hadded]

/-- Paths of positions and of names that are found again are never written alike. So a walk through
a resource that was read records its violations at different fields, whatever the root, and each has
an entry of its own in the table of error texts. An object is taken as it is when it is read, so it
must hold no objects but resources; nothing is asked of other values. -/
theorem ResourceKind.recordsApart_of_read :
    Set.InjOn FieldPath.join {path | path.Bare} ∧
      ∀ {kind : ResourceKind} {v object : Value}, kind.read v = .ok object →
        v.AllTypes ObjectType.IsResource → ∀ (validator : Validator) (root : FieldPath),
          ∃ w more, validator.RecordsApart w root object more := by
  refine ⟨FieldPath.join_injOn, fun hread hv validator root ↦ ?_⟩
  have hobject := allTypes_of_read hread hv
  exact validator.exists_recordsApart (hobject.mono fun _ ↦ ObjectType.IsResource.apart) root

/-- An entry of a manifest without a name, with a visibility, a key and a team that are wrong. -/
def faultyEntry : Value :=
  .map [(.str "visibility", .str "secret"),
    (.str "deploy_keys", .list [.map [(.str "name", .str "ci"), (.str "key", .str "k")],
      .map [(.str "credential_type", .str "password")]]),
    (.str "teams", .list [.map [(.str "permission", .str "owner")]])]

/-- A name that ends like a position is not written like one, and what is wrong with the faulty
entry is recorded at seven different fields. -/
theorem ResourceKind.recordsApart_of_read_faultyEntry :
    FieldPath.join [.name "a", .index 0] ≠ FieldPath.join [.name "a", .name "0]"] ∧
      ∃ object, entry.read faultyEntry = .ok object ∧
        faultyEntry.AllTypes ObjectType.IsResource ∧
        ∃ w more,
          Validator.RecordsApart ⟨"config", []⟩ w [.name "repositories", .index 3] object more ∧
          more.map (·.field.display) =
            ["repositories[3].name", "repositories[3].visibility",
              "repositories[3].deploy_keys[1].name", "repositories[3].deploy_keys[1].key",
              "repositories[3].deploy_keys[1].credential_type", "repositories[3].teams[0].name",
              "repositories[3].teams[0].permission"] := by
  have hread : RepositoryEntry.read faultyEntry =
      .ok { visibility := some "secret",
            deployKeys := [⟨"ci", "k", none, "deploykey"⟩, ⟨"", "", none, "password"⟩],
            teams := [⟨"", some "owner"⟩] } := by
    decide +kernel
  have hobject : entry.read faultyEntry = .ok _ := congrArg (Except.map _) hread
  obtain ⟨w, more, h⟩ := recordsApart_of_read.2 hobject trivial ⟨"config", []⟩
    [.name "repositories", .index 3]
  refine ⟨recordsApart_of_read.1.ne (by decide) (by decide) (by decide), _, hobject, trivial, w,
    more, h, ?_⟩
  have hmore := h.added.2
  rw [Except.ok.inj (h.walk.symm.trans (Validator.appendFindings_eq_recordAll _ _ _)),
    Value.violations_recordAll_empty, List.nil_append] at hmore
  rw [← hmore]
  decide +kernel

end RepoManifest
