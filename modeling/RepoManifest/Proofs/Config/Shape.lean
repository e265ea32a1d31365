import RepoManifest.Proofs.Config.Acceptance
import RepoManifest.Proofs.Config.Failure
import RepoManifest.Proofs.Yaml.Plain

/-!
# The shape of an accepted document

A document that was loaded has mappings and lists where they belong, and no mapping in it has a key
that is not declared. One place is not looked at closely: a provider of any kind that counts as
empty is taken for a section without content. Any other document is refused.
-/

namespace RepoManifest

open Reading

/-! ## Shapes -/

/-- A mapping whose keys all name fields of a type. -/
def ObjectType.Describes (type : ObjectType) (v : Value) : Prop :=
  ∃ given, v = .map given ∧ OnlyNames type.names given

/-- Nothing, or a sequence of mappings whose keys all name fields of a type. -/
def ObjectType.DescribesEach (type : ObjectType) (v : Value) : Prop :=
  v = .null ∨ ∃ items, sequence? v = some items ∧ ∀ item ∈ items, type.Describes item

/-- The entries of a mapping have the shape of a repository. Its keys and teams may be left unset,
its options may not. -/
structure RepositoryEntry.ShapedIn (given : List (Value × Value)) : Prop where
  keys : OnlyNames objectType.names given
  options : ∀ v, Value.get? given "options" = some v → CreateOptions.objectType.Describes v
  deployKeys : ∀ v, Value.get? given "deploy_keys" = some v → DeployKey.objectType.DescribesEach v
  teams : ∀ v, Value.get? given "teams" = some v → TeamAccess.objectType.DescribesEach v

namespace Manifest

/-- The sections of a document have their shape: no other section, a provider that is a mapping or
counts as empty, and repositories that are a list of mappings or unset. -/
structure ShapedIn (sections : List (Value × Value)) : Prop where
  keys : OnlyNames Config.sections sections
  provider : ∀ v, Value.get? sections "provider" = some v →
    v.truthy = false ∨ ∃ given, v = .map given
  repositories : ∀ v, Value.get? sections "repositories" = some v →
    v = .null ∨ ∃ items, v = .list items ∧
      ∀ item ∈ items, ∃ given, item = .map given ∧ RepositoryEntry.ShapedIn given

/-- A document is nothing, or a mapping of sections that have their shape. -/
def Shaped (document : Value) : Prop :=
  document = .null ∨ ∃ sections, document = .map sections ∧ ShapedIn sections

end Manifest

/-! ## Shapes of what was read -/

/-- Plain data that has entries is the mapping of these entries. -/
theorem Reading.eq_map_of_entries {types : List ObjectType} {v : Value}
    {given : List (Value × Value)} (hplain : v.isPlain = true) (h : entries types v = .ok given) :
    v = .map given := by
  cases v with
  | map found => rw [Except.ok.inj h]
  | object type assigned values => cases hplain
  | _ => cases h

/-- Plain data that declares something through its entries is described by their type. -/
theorem ObjectType.describes_of_entries {type : ObjectType} {v : Value}
    {given : List (Value × Value)} (hplain : v.isPlain = true) (h : entries [type] v = .ok given)
    (hkeys : OnlyNames type.names given) : type.Describes v :=
  ⟨given, eq_map_of_entries hplain h, hkeys⟩

/-- A sequence of plain data is plain item by item. -/
theorem Value.isPlain_of_mem_sequence? {v item : Value} {items : List Value}
    (hplain : v.isPlain = true) (hs : sequence? v = some items) (hmem : item ∈ items) :
    item.isPlain = true := by
  unfold sequence? at hs
  split at hs
  · obtain rfl := Option.some.inj hs
    exact isPlain_list.mp hplain item hmem
  · obtain rfl := Option.some.inj hs
    exact isPlain_tuple.mp hplain item hmem
  · obtain rfl := Option.some.inj hs
    exact isPlain_set.mp hplain item hmem
  · cases hs

/-- A plain value of a list field whose items are declared is described item by item. -/
theorem ObjectType.describesEach_of_declared {α : Type} {type : ObjectType}
    {given : List (Value × Value)} {name : String} {stands : Value → α → Prop} {found : List α}
    (hplain : ∀ entry ∈ given, Value.PlainEntry entry)
    (h : Declared given name (Each stands) [] found)
    (hstands : ∀ item a, item.isPlain = true → stands item a → type.Describes item) :
    ∀ v, Value.get? given name = some v → type.DescribesEach v := by
  intro v hv
  have hvplain := Value.isPlain_of_get? hplain hv
  by_cases hnull : v = .null
  · exact .inl hnull
  · unfold Declared at h
    rw [hv] at h
    split at h
    · next heq => cases heq
    · next heq => exact absurd (Option.some.inj heq) hnull
    · next w _ heq =>
      obtain rfl := Option.some.inj heq
      obtain ⟨items, hs, hitems⟩ := h
      refine .inr ⟨items, hs, ?_⟩
      have hitemsPlain : List.Forall₂ (fun item a ↦ item.isPlain = true ∧ stands item a)
          items found :=
        (List.forall₂_and_left items found).mpr
          ⟨fun item hmem ↦ Value.isPlain_of_mem_sequence? hvplain hs hmem, hitems⟩
      have hdescribed : List.Forall₂ (fun item _ ↦ type.Describes item ∧ True) items found :=
        hitemsPlain.imp fun item a ⟨hitem, ha⟩ ↦ ⟨hstands item a hitem ha, trivial⟩
      exact ((List.forall₂_and_left items found).mp hdescribed).1

/-- An entry that can be read has options that are not null. -/
theorem RepositoryEntry.get?_options_ne_null {v : Value} {e : RepositoryEntry}
    {given : List (Value × Value)} (h : read v = .ok e) (he : entries [objectType] v = .ok given) :
    Value.get? given "options" ≠ some .null := by
  intro hnull
  rw [read, he] at h
  simp only [withIssues_eq_ok_iff, ap_eq_ok_iff] at h
  obtain ⟨⟨_, _, ⟨_, _, ⟨_, options, _, hoptions, _⟩, _⟩, _⟩, _⟩ := h
  rw [field, hnull, under_eq_ok_iff] at hoptions
  exact CreateOptions.read_null options hoptions

/-- Plain data that can be read as an entry has the shape of one. -/
theorem RepositoryEntry.shapedIn_of_read {v : Value} {e : RepositoryEntry}
    (hplain : v.isPlain = true) (h : read v = .ok e) :
    ∃ given, v = .map given ∧ ShapedIn given := by
  obtain ⟨given, he, hdeclared⟩ := declaredBy_of_read h
  obtain rfl := eq_map_of_entries hplain he
  have hentries := Value.isPlain_map.mp hplain
  refine ⟨given, rfl, {
    keys := hdeclared.keys
    options := fun o ho ↦ ?_
    deployKeys := ObjectType.describesEach_of_declared hentries hdeclared.deployKeys
      fun item k hitem ⟨_, hk, hkeys⟩ ↦ ObjectType.describes_of_entries hitem hk hkeys.keys
    teams := ObjectType.describesEach_of_declared hentries hdeclared.teams
      fun item t hitem ⟨_, ht, hkeys⟩ ↦ ObjectType.describes_of_entries hitem ht hkeys.keys }⟩
  have hdeclared' := hdeclared.options
  unfold Declared at hdeclared'
  rw [ho] at hdeclared'
  split at hdeclared'
  · next heq => cases heq
  · next heq => exact absurd (ho.trans heq) (get?_options_ne_null h he)
  · next w _ heq =>
    obtain rfl := Option.some.inj heq
    obtain ⟨_, hw, hkeys⟩ := hdeclared'
    exact ObjectType.describes_of_entries (Value.isPlain_of_get? hentries ho) hw hkeys.keys

namespace Manifest

variable {path : String} {document : Value} {env : Environment} {file : EnvSource} {c : Config}
  {sections given : List (Value × Value)}

/-- A provider section that has entries is a mapping or counts as empty. -/
theorem provider_of_providerEntries? (h : providerEntries? sections = some given) :
    ∀ v, Value.get? sections "provider" = some v → v.truthy = false ∨ ∃ given, v = .map given := by
  intro v hv
  unfold providerEntries? at h
  rw [hv] at h
  split at h
  · next heq => cases heq
  · next found heq => exact .inr ⟨found, Option.some.inj heq⟩
  · next w _ heq =>
    obtain rfl := Option.some.inj heq
    cases htruthy : v.truthy with
    | false => exact .inl rfl
    | true =>
      rw [htruthy] at h
      cases h

/-- Plain items that can all be read, of a section that is in order, have the shape of
repositories. -/
theorem repositories_of_readable (hplain : ∀ entry ∈ sections, Value.PlainEntry entry)
    (hlist : (repositoryItems sections).2 = [])
    (hread : unreadable (entries sections) = []) :
    ∀ v, Value.get? sections "repositories" = some v →
      v = .null ∨ ∃ items, v = .list items ∧
        ∀ item ∈ items, ∃ given, item = .map given ∧ RepositoryEntry.ShapedIn given := by
  intro v hv
  have hvplain := Value.isPlain_of_get? hplain hv
  unfold entries at hread
  unfold repositoryItems at hlist hread
  rw [hv] at hlist hread
  cases v with
  | null => exact .inl rfl
  | list items =>
    refine .inr ⟨items, rfl, fun item hmem ↦ ?_⟩
    have hissues := unreadable_readEntries_eq_nil_iff.mp hread item hmem
    obtain ⟨e, he⟩ := (exists_ok_iff (RepositoryEntry.isExplained_read item)).mpr hissues
    exact RepositoryEntry.shapedIn_of_read (Value.isPlain_list.mp hvplain item hmem) he
  | _ => exact absurd hlist (List.cons_ne_nil _ _)

/-- A document of plain data that was loaded has its shape. -/
theorem shaped_of_load_ok (hplain : document.isPlain = true)
    (h : (load path document env file).result = .ok c) : Shaped document := by
  obtain ⟨sections, given, _, _, hfrom⟩ := exists_loadedFrom h
  obtain ⟨hunknown, _, hlist, hread, _, _⟩ := problems_eq_nil_iff.mp hfrom.problems_eq
  have hs := hfrom.sections_eq
  cases document with
  | null => exact .inl rfl
  | map found =>
    obtain rfl := Option.some.inj hs
    exact .inr ⟨found, rfl, {
      keys := onlyNames_of_unknownKeys_eq_nil hunknown
      provider := provider_of_providerEntries? hfrom.given_eq
      repositories := repositories_of_readable (Value.isPlain_map.mp hplain) hlist hread }⟩
  | _ => cases hs

/-- Only a document that has its shape is loaded, and if loading one without its shape is settled,
it says what is wrong with the document. -/
theorem shaped_of_load (hplain : document.isPlain = true) (path : String) (env : Environment)
    (file : EnvSource) :
    ((∃ c, (load path document env file).result = .ok c) → Shaped document) ∧
    ((load path document env file).Settled → ¬ Shaped document →
      ∃ failure, (load path document env file).result = .error (.config failure)) := by
  refine ⟨fun ⟨c, h⟩ ↦ shaped_of_load_ok hplain h, fun hsettled hno ↦ ?_⟩
  rcases hsettled with ⟨c, h⟩ | hfailure
  · exact absurd (shaped_of_load_ok hplain h) hno
  · exact hfailure

/-- The document with two repositories has its shape. -/
theorem shaped_of_load_twoRepositories :
    twoRepositories.isPlain = true ∧
    (∃ c, (load "config.yaml" twoRepositories [] none).result = .ok c) ∧
    Shaped twoRepositories := by
  have hplain : twoRepositories.isPlain = true := by decide
  exact ⟨hplain, ⟨_, load_twoRepositories⟩,
    (shaped_of_load hplain "config.yaml" [] none).1 ⟨_, load_twoRepositories⟩⟩

/-- A manifest that was loaded holds a document that has its shape, whatever bytes it is. -/
theorem exists_shaped_of_loadFile {wording : Wording} {files : FileSource} {filePath : FilePath}
    (h : (loadFile wording files filePath env).result = .ok c) :
    ∃ document, readDocument wording files filePath = .ok document ∧ Shaped document := by
  unfold loadFile at h
  split at h
  · next document hd =>
    refine ⟨document, hd, shaped_of_load_ok ?_ h⟩
    unfold readDocument at hd
    split at hd
    · cases hd
    · split at hd
      · cases hd
      · split at hd
        · next hparse =>
          obtain rfl := Except.ok.inj hd
          exact Yaml.isPlain_of_parse? hparse
        · cases hd
  · cases h

/-- A provider that is no mapping is accepted if it counts as empty. -/
example : [Value.bool false, .int 0, .str "", .list []].all (fun v ↦
    (load "config.yaml" (.map [(.str "provider", v)]) [] none).result.toOption.isSome) := by
  decide +kernel

end Manifest
end RepoManifest
