import RepoManifest.Proofs.Config.Acceptance
import RepoManifest.Proofs.Resource.Written
import RepoManifest.Proofs.Settings.Precedence

/-!
# Loading what was loaded

A configuration written back as a document names everything: both settings of the provider, and all
fields of every entry, with an explicit null for what is unset. Loading that document gives the same
configuration. Its settings no longer come from the environment, and an organization that is null is
looked for in the same places, which were all silent the first time.
-/

namespace RepoManifest

open Reading

/-- The entries of provider settings that are written back. -/
def ProviderSettings.entries (p : ProviderSettings) : List (Value × Value) :=
  [(.str "domain", .str p.domain), (.str "organization", .ofText? p.organization)]

/-- The sections of a configuration that is written back. -/
def Config.entries (c : Config) : List (Value × Value) :=
  [(.str "provider", .map c.provider.entries),
    (.str "repositories", .list (c.repositories.map fun e ↦ e.toObject.written))]

/-- A configuration written back as a document, with every field of every part. -/
def Config.toDocument (c : Config) : Value := .map c.entries

/-- A configuration is written back as plain data. -/
theorem Config.isPlain_toDocument (c : Config) : c.toDocument.isPlain = true := by
  have hstr (s : String) : (Value.str s).isPlain = true := rfl
  simp [toDocument, entries, ProviderSettings.entries, Value.PlainEntry, hstr,
    RepositoryEntry.isPlain_written]

namespace Manifest

open ProviderSettings (names variableName)

variable {given : List (Value × Value)} {env : Environment} {file : List (String × Option String)}
  {named : List (String × Value)} {name : String}

/-! ## Provider -/

/-- Settings that are read one by one, with no other names given, are read together. -/
theorem ofNamed_of_setting {p : ProviderSettings} (hkeys : OnlyNames names given)
    (hnamed : ProviderSettings.named (resolvedProvider given env file) = .ok named)
    (hdomain : ProviderSettings.setting named env "domain" text "github.com" = .ok p.domain)
    (horganization : ProviderSettings.setting named env "organization" (optional text) none =
      .ok p.organization) :
    ProviderSettings.ofNamed named env = .ok p := by
  have hknown : ProviderSettings.unknownNames named = [] := by
    refine List.eq_nil_iff_forall_not_mem.mpr fun name hname ↦ ?_
    obtain ⟨⟨entry, hmem, htext⟩, hunknown⟩ :=
      (mem_unknownNames_resolvedProvider_iff hnamed).mp hname
    obtain ⟨n, hn, htext'⟩ := hkeys entry hmem
    obtain rfl := Option.some.inj (htext'.symm.trans htext)
    exact hunknown (ProviderSettings.known_of_mem_names hn)
  rw [ProviderSettings.ofNamed, hknown, hdomain, horganization]
  rfl

/-- Entries for settings only can be given by name. -/
theorem exists_named_of_onlyNames (env : Environment) (file : List (String × Option String))
    (hkeys : OnlyNames names given) :
    ∃ named, ProviderSettings.named (resolvedProvider given env file) = .ok named := by
  refine (exists_named_resolvedProvider_iff env file).mpr fun entry hmem hno ↦ ?_
  obtain ⟨n, hn, htext⟩ := hkeys entry hmem
  rcases hno with hnone | hreceiver
  · rw [htext] at hnone
    cases hnone
  · rw [htext] at hreceiver
    obtain rfl := Option.some.inj hreceiver
    exact absurd hn (by decide)

/-- Entries for settings only give each setting what was resolved for it. -/
theorem given?_of_named (hkeys : OnlyNames names given)
    (hnamed : ProviderSettings.named (resolvedProvider given env file) = .ok named)
    (hname : name ∈ names) :
    ProviderSettings.given? named name = settingValue? given env file name := by
  rw [named_of_onlyNames hkeys hnamed]
  exact given?_filterMap _ hname

/-- A setting that was found unset was left open, and no other source had it. -/
theorem silent_of_setting_eq_none
    (hgiven : ProviderSettings.given? named name = settingValue? given env file name)
    (h : ProviderSettings.setting named env name (optional text) none = .ok none) :
    (env.get? (variableName name)).or ((EnvFile.get? file (variableName name)).or
      (env.setting? (variableName name))) = none := by
  have hvalue : ∀ v, ProviderSettings.source? named env name = some v → v = .null := by
    intro v hv
    rw [ProviderSettings.setting, hv] at h
    by_contra hnull
    obtain ⟨s, _, hs⟩ := setTo_of_optional hnull (under_eq_ok_iff.mp h)
    cases hs
  have hopen : LeftOpen given name := by
    by_contra hset
    obtain ⟨hmissing, hnull⟩ := not_or.mp hset
    obtain ⟨v, hv⟩ := Option.ne_none_iff_exists'.mp hmissing
    have hv' : v ≠ .null := fun heq ↦ hnull (heq ▸ hv)
    exact hv' (hvalue v (source?_of_get? hgiven hv hv'))
  refine Option.eq_none_iff_forall_ne_some.mpr fun s hs ↦ ?_
  have hsource := source?_of_leftOpen hgiven hopen
  rw [hs] at hsource
  cases hvalue _ hsource

/-- Provider settings that were read are read again from what was written back. -/
theorem readProvider_entries {p : ProviderSettings} (hkeys : OnlyNames names given)
    (hnamed : ProviderSettings.named (resolvedProvider given env file) = .ok named)
    (h : ProviderSettings.ofNamed named env = .ok p) :
    Config.readProvider (.map (resolvedProvider p.entries env file)) env = .ok (.ok p) := by
  have hwritten : OnlyNames names p.entries := by
    simp [OnlyNames, ProviderSettings.entries, names, Value.text?]
  obtain ⟨again, hagain⟩ := exists_named_of_onlyNames env file hwritten
  have hgiven {name : String} (hname : name ∈ names) := given?_of_named hwritten hagain hname
  have hdomain : ProviderSettings.setting again env "domain" text "github.com" = .ok p.domain := by
    have hfound : Value.get? p.entries "domain" = some (.str p.domain) := by
      simp [ProviderSettings.entries, Value.get?_cons, Value.text?]
    rw [ProviderSettings.setting, source?_of_get? (hgiven (by decide)) hfound (by simp)]
    rfl
  have horganization : ProviderSettings.setting again env "organization" (optional text) none =
      .ok p.organization := by
    have hfound : Value.get? p.entries "organization" = some (.ofText? p.organization) := by
      simp [ProviderSettings.entries, Value.get?_cons, Value.text?]
    cases ho : p.organization with
    | some o =>
      rw [ho] at hfound
      rw [ProviderSettings.setting, source?_of_get? (hgiven (by decide)) hfound
        (by simp [Value.ofText?])]
      rfl
    | none =>
      -- null leaves the organization open again, to sources that had nothing the first time
      have hfirst := (setting_of_ofNamed h).2
      rw [ho] at hfirst hfound
      have hsilent := silent_of_setting_eq_none (given?_of_named hkeys hnamed (by decide)) hfirst
      rw [ProviderSettings.setting, source?_of_leftOpen (hgiven (by decide)) (.inr hfound), hsilent]
      rfl
  rw [Config.readProvider, hagain]
  exact congrArg _ (ofNamed_of_setting hwritten hagain hdomain horganization)

/-! ## Repositories -/

/-- Filled entries are found again in what was written back. -/
theorem readable_written {found : List RepositoryEntry} (hfilled : ∀ e ∈ found, e.default = e)
    (n : Nat) :
    (readable (readEntries n (found.map fun e ↦ e.toObject.written))).map (·.2) = found := by
  rw [readable_readEntries]
  induction found generalizing n with
  | nil => rfl
  | cons e rest ih =>
    rw [List.forall_mem_cons] at hfilled
    have hrest := ih hfilled.2 (n + 1)
    simp only [List.map_cons, List.zipIdx_cons, List.filterMap_cons, e.read_written,
      Except.toOption, Option.map_some, hfilled.1]
    exact congrArg (e :: ·) hrest

/-- The sections of a configuration that is written back are known. -/
theorem unknownKeys_entries (c : Config) : unknownKeys c.entries = [] := by
  have hprovider : (Value.str "provider").equal (.str "provider") = true :=
    Value.equal_str_iff.mpr rfl
  have hrepositories : (Value.str "repositories").equal (.str "repositories") = true :=
    Value.equal_str_iff.mpr rfl
  simp [unknownKeys, Config.entries, Config.sections, hprovider, hrepositories]

/-- The provider of a configuration that is written back is the mapping of its settings. -/
theorem providerEntries?_entries (c : Config) :
    providerEntries? c.entries = some c.provider.entries := by
  simp [providerEntries?, Config.entries, Value.get?_cons, Value.text?]

/-- The repositories of a configuration that is written back are a list. -/
theorem repositoryItems_entries (c : Config) :
    repositoryItems c.entries = (c.repositories.map fun e ↦ e.toObject.written, []) := by
  simp [repositoryItems, Config.entries, Value.get?_cons, Value.text?]

/-- Accepted entries are found again in what was written back. -/
theorem readable_entries_written {c : Config} (haccepted : ∀ e ∈ c.repositories, Accepted e) :
    (readable (entries c.entries)).map (·.2) = c.repositories := by
  rw [entries, repositoryItems_entries]
  exact readable_written (fun e he ↦ (haccepted e he).default) 0

/-- A configuration that is written back has no problems, if its entries are accepted and their
names are distinct. -/
theorem problems_entries {c : Config} (haccepted : ∀ e ∈ c.repositories, Accepted e)
    (hnames : (c.repositories.map (·.name)).Nodup) :
    problems c.entries (.ok c.provider) = [] := by
  have hreadable := readable_entries_written haccepted
  have hmem : ∀ entry ∈ readable (entries c.entries), entry.2.Valid := by
    intro entry hentry
    refine (haccepted entry.2 ?_).valid
    rw [← hreadable]
    exact List.mem_map_of_mem hentry
  refine problems_eq_nil_iff.mpr ⟨unknownKeys_entries c, rfl, ?_, ?_, ?_, ?_⟩
  · rw [repositoryItems_entries]
  · rw [entries, repositoryItems_entries, unreadable_readEntries_eq_nil_iff]
    intro v hv
    obtain ⟨e, _, rfl⟩ := List.mem_map.mp hv
    rw [e.read_written]
    rfl
  · rw [duplicates_eq_nil_iff fun entry hentry ↦ (hmem entry hentry).name]
    rw [← hreadable, List.map_map] at hnames
    exact hnames
  · refine violations_eq_nil_iff.mpr fun entry hentry ↦ ?_
    exact (RepositoryEntry.valid_iff.mp (hmem entry hentry)).1

/-! ## Loading -/

/-- A configuration that was loaded from a document, with no other keys in its provider than the
settings, can be written back as plain data, and loading that gives it again. -/
theorem load_toDocument {path : String} {document : Value} {source : EnvSource} {c : Config}
    {sections : List (Value × Value)} (h : (load path document env source).result = .ok c)
    (hs : sections? document = some sections) (hg : providerEntries? sections = some given)
    (hkeys : OnlyNames names given) :
    c.toDocument.isPlain = true ∧
      ∀ path', (load path' c.toDocument env source).result = .ok c := by
  obtain ⟨found, entries, settings, named, hfrom⟩ := exists_loadedFrom h
  obtain rfl := Option.some.inj (hs.symm.trans hfrom.sections_eq)
  obtain rfl := Option.some.inj (hg.symm.trans hfrom.given_eq)
  have haccepted : ∀ e ∈ c.repositories, Accepted e :=
    fun e he ↦ accepted_of_valid (valid_of_load h e he)
  have hprovider := readProvider_entries hkeys hfrom.named_eq hfrom.provider_eq
  have hwritable : (unknownKeys c.entries).all Value.hasDisplay = true := by
    rw [unknownKeys_entries]
    rfl
  refine ⟨c.isPlain_toDocument, fun path' ↦ ?_⟩
  have hsections : sections? c.toDocument = some c.entries := rfl
  rw [load_eq_assemble hsections (providerEntries?_entries c) hwritable hfrom.settings_eq hprovider,
    assemble_of_problems_eq_nil (problems_entries haccepted (nodup_names_of_load h)),
    readable_entries_written haccepted]

/-- The sections of a document that leaves the host and the organization open, and the access of a
key. -/
def unsetSections : List (Value × Value) :=
  [(.str "provider", .map [(.str "organization", .null)]),
    (.str "repositories", .list [
      .map [(.str "name", .str "core"),
        (.str "deploy_keys",
          .list [.map [(.str "name", .str "ci"), (.str "key", .str "ssh-rsa A")]]),
        (.str "teams", .null)]])]

/-- An environment file that gives the host. -/
def hostFile : List UInt8 :=
  "GITPROVIDER_DOMAIN=file.example.com\n".toList.map fun c ↦ c.toNat.toUInt8

/-- The configuration of that document beside that file. -/
def unsetConfig : Config where
  provider := { domain := "file.example.com" }
  repositories := [
    { name := "core", defaultBranch := some "master", visibility := some "private",
      deployKeys := [⟨"ci", "ssh-rsa A", some true, "deploykey"⟩] }]

/-- The document is accepted, and so is its configuration written back, with the same result. -/
theorem load_toDocument_unsetSections :
    (load "config.yaml" (.map unsetSections) [] (some (.ok hostFile))).result = .ok unsetConfig ∧
      OnlyNames names [(.str "organization", .null)] ∧
      (load "config.yaml" unsetConfig.toDocument [] (some (.ok hostFile))).result =
        .ok unsetConfig := by
  have hload : (load "config.yaml" (.map unsetSections) [] (some (.ok hostFile))).result.toOption =
      some unsetConfig := by decide +kernel
  have hkeys : OnlyNames names [(.str "organization", .null)] := by
    simp [OnlyNames, names, Value.text?]
  have hgiven : providerEntries? unsetSections = some [(.str "organization", .null)] := by
    simp [unsetSections, providerEntries?, Value.get?_cons, Value.text?]
  have h := toOption_eq_some_iff.mp hload
  exact ⟨h, hkeys, (load_toDocument h rfl hgiven hkeys).2 "config.yaml"⟩

end Manifest
end RepoManifest
