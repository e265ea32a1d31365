import RepoManifest.Proofs.Config.Outcome

/-!
# Where settings come from

A setting that the document leaves open comes from the variable of exactly its name, then from the
environment file, then from a variable of its name in another letter case, and last it has its
default. So the environment file stands between two spellings of one variable: it comes after the
variable of the environment only if that one is spelled as the setting names it.
-/

namespace RepoManifest

open Reading

/-! ## Environments -/

namespace Environment

/-- An environment holds a value under a name, in any letter case. -/
def Holds (env : Environment) (name value : String) : Prop :=
  ∃ n, (n, value) ∈ env ∧ foldCase n = foldCase name

/-- The value of a variable of exactly a name is held under it. -/
theorem holds_of_get? {env : Environment} {name value : String}
    (h : env.get? name = some value) : env.Holds name value := by
  obtain ⟨before, after, rfl, _⟩ := List.lookup_eq_some_iff.mp h
  exact ⟨name, by simp, rfl⟩

/-- The value of a setting is held under its name. -/
theorem holds_of_setting? {env : Environment} {name value : String}
    (h : env.setting? name = some value) : env.Holds name value := by
  obtain ⟨⟨n, _⟩, hlast, rfl⟩ := Option.map_eq_some_iff.mp h
  obtain ⟨hmem, hfold⟩ := List.mem_filter.mp (List.mem_of_getLast? hlast)
  exact ⟨n, hmem, by simpa using hfold⟩

/-- A setting has no value exactly if nothing is held under its name. -/
theorem setting?_eq_none_iff {env : Environment} {name : String} :
    env.setting? name = none ↔ ∀ value, ¬ env.Holds name value := by
  rw [setting?, Option.map_eq_none_iff, List.getLast?_eq_none_iff, List.filter_eq_nil_iff]
  constructor
  · rintro h value ⟨n, hmem, hfold⟩
    exact h (n, value) hmem (by simpa using hfold)
  · rintro h ⟨n, value⟩ hmem hfold
    exact h value ⟨n, hmem, by simpa using hfold⟩

/-- A setting under whose name something is held has a value. -/
theorem exists_setting?_of_holds {env : Environment} {name value : String}
    (h : env.Holds name value) : ∃ s, env.setting? name = some s :=
  Option.ne_none_iff_exists'.mp fun hnone ↦ setting?_eq_none_iff.mp hnone value h

/-- If nothing is held under a name, there is no variable of exactly that name. -/
theorem get?_eq_none {env : Environment} {name : String} (h : ∀ value, ¬ env.Holds name value) :
    env.get? name = none := by
  by_contra hsome
  obtain ⟨value, hvalue⟩ := Option.ne_none_iff_exists'.mp hsome
  exact h value (holds_of_get? hvalue)

end Environment

namespace Manifest

open ProviderSettings (names variableName)

variable {given : List (Value × Value)} {env : Environment} {file : List (String × Option String)}
  {named : List (String × Value)} {name : String}

/-! ## Values -/

/-- A mapping leaves a setting to other sources if it has no entry for it, or null. -/
def LeftOpen (given : List (Value × Value)) (name : String) : Prop :=
  Value.get? given name = none ∨ Value.get? given name = some .null

/-- A setting of the document has its value from there. -/
theorem settingValue?_of_get? {v : Value} (h : Value.get? given name = some v) (hv : v ≠ .null) :
    settingValue? given env file name = some v := by
  cases v with
  | null => exact absurd rfl hv
  | _ => simp only [settingValue?, h]

/-- A setting that is left open has its value from the environment, or else from the environment
file. -/
theorem settingValue?_of_leftOpen (h : LeftOpen given name) :
    settingValue? given env file name =
      ((env.get? (variableName name)).or (EnvFile.get? file (variableName name))).map .str := by
  rw [settingValue?]
  rcases h with h | h <;> rw [h, Option.orElse_eq_or]

/-- A word is looked up among values that some of the names have. -/
theorem lookup_filterMap (values : String → Option Value) (known : List String) (name : String) :
    (known.filterMap fun n ↦ (values n).map fun v ↦ (n, v)).lookup name =
      if name ∈ known then values name else none := by
  induction known with
  | nil => rfl
  | cons n rest ih =>
    by_cases hn : name = n
    · subst hn
      cases hv : values name with
      | none => simp [hv, ih]
      | some v => simp [hv]
    · cases hv : values n with
      | none => simp [hv, ih, hn]
      | some v => simp [hv, ih, hn, List.lookup_cons, beq_false_of_ne hn]

/-- A name without a value is no other name in another letter case. -/
theorem find?_foldCase_eq_none {values : String → Option Value} (hnone : values name = none) :
    (names.filterMap fun n ↦ (values n).map fun v ↦ (n, v)).find?
      (fun (n, _) ↦ foldCase n == name) = none := by
  rw [List.find?_eq_none]
  rintro entry hmem hfold
  obtain ⟨n, hn, hvalue⟩ := List.mem_filterMap.mp hmem
  obtain ⟨v, hv, rfl⟩ := Option.map_eq_some_iff.mp hvalue
  have hlower : foldCase n = n := ProviderSettings.foldCase_of_mem_names hn
  have hsame : n = name := hlower.symm.trans (by simpa using hfold)
  rw [hsame, hnone] at hv
  cases hv

/-- Values given under names of settings are found under exactly these names. -/
theorem given?_filterMap (values : String → Option Value) (hname : name ∈ names) :
    ProviderSettings.given? (names.filterMap fun n ↦ (values n).map fun v ↦ (n, v)) name =
      values name := by
  have hlookup := lookup_filterMap values names name
  rw [if_pos hname] at hlookup
  rw [ProviderSettings.given?, hlookup, Option.orElse_eq_or]
  cases hv : values name with
  | some v => rfl
  | none => rw [find?_foldCase_eq_none hv]; rfl

/-- By name, the settings have the names of settings. -/
theorem wordEntries_settingEntries :
    ProviderSettings.wordEntries (settingEntries given env file) =
      names.filterMap fun n ↦ (settingValue? given env file n).map fun v ↦ (n, v) := by
  rw [ProviderSettings.wordEntries, settingEntries, List.filterMap_filterMap]
  congr 1
  funext n
  cases settingValue? given env file n <;> rfl

/-- Among entries for settings only there are no others. -/
theorem filter_eq_nil_of_onlyNames (hkeys : OnlyNames names given) :
    given.filter (fun (k, _) ↦ !names.any fun name ↦ k.equal (.str name)) = [] := by
  rw [List.filter_eq_nil_iff]
  intro entry hmem
  obtain ⟨n, hn, htext⟩ := hkeys entry hmem
  have hany : (names.any fun name ↦ entry.1.equal (.str name)) = true :=
    List.any_eq_true.mpr ⟨n, hn, Value.equal_str_iff.mpr htext⟩
  simp only [hany, Bool.not_true, Bool.false_eq_true, not_false_eq_true]

/-- A provider with no other keys than the settings gives by name what was resolved for them. -/
theorem named_of_onlyNames (hkeys : OnlyNames names given)
    (hnamed : ProviderSettings.named (resolvedProvider given env file) = .ok named) :
    named = names.filterMap fun n ↦
      (settingValue? given env file n).map fun v ↦ (n, v) := by
  rw [ProviderSettings.eq_wordEntries_of_named hnamed, resolvedProvider,
    filter_eq_nil_of_onlyNames hkeys, List.nil_append]
  exact wordEntries_settingEntries

/-- Reading the settings reads each of them. -/
theorem setting_of_ofNamed {p : ProviderSettings}
    (h : ProviderSettings.ofNamed named env = .ok p) :
    ProviderSettings.setting named env "domain" text "github.com" = .ok p.domain ∧
    ProviderSettings.setting named env "organization" (optional text) none =
      .ok p.organization := by
  rw [ProviderSettings.ofNamed, withIssues_eq_ok_iff] at h
  simp only [ap_eq_ok_iff] at h
  obtain ⟨⟨_, organization, ⟨_, domain, ⟨rfl⟩, hdomain, rfl⟩, horganization, rfl⟩, _⟩ := h
  exact ⟨hdomain, horganization⟩

/-! ## Sources -/

/-- Where the value of a setting comes from: the document, then the variable of exactly its name,
then the environment file, then a variable of its name in another letter case, and last the default.
A variable of the environment comes before the environment file if it has exactly the name, and a
variable in another letter case only counts if the file is silent. -/
structure ResolvedFrom {α : Type} (given : List (Value × Value)) (env : Environment)
    (file : List (String × Option String)) (name : String) (ofText : String → α) (default a : α) :
    Prop where
  document : ∀ v, Value.get? given name = some v → v ≠ .null → ∃ s, text v = .ok s ∧ a = ofText s
  spelled : LeftOpen given name → ∀ s, env.get? (variableName name) = some s → a = ofText s
  environment : LeftOpen given name →
    (env.get? (variableName name) = none → EnvFile.get? file (variableName name) = none) →
    ∀ t, env.Holds (variableName name) t → ∃ s, env.Holds (variableName name) s ∧ a = ofText s
  environmentFile : LeftOpen given name → env.get? (variableName name) = none →
    ∀ s, EnvFile.get? file (variableName name) = some s → a = ofText s
  unset : LeftOpen given name → (∀ s, ¬ env.Holds (variableName name) s) →
    EnvFile.get? file (variableName name) = none → a = default

/-- A setting that is given what was resolved for it has the value of the document. -/
theorem source?_of_get?
    (hgiven : ProviderSettings.given? named name = settingValue? given env file name) {v : Value}
    (h : Value.get? given name = some v) (hv : v ≠ .null) :
    ProviderSettings.source? named env name = some v := by
  rw [ProviderSettings.source?, hgiven, settingValue?_of_get? h hv, Option.orElse_some]

/-- A setting that is given what was resolved for it, and is left open, has the first value among
the variable of exactly its name, the environment file and the variables in any letter case. -/
theorem source?_of_leftOpen
    (hgiven : ProviderSettings.given? named name = settingValue? given env file name)
    (h : LeftOpen given name) :
    ProviderSettings.source? named env name =
      ((env.get? (variableName name)).or ((EnvFile.get? file (variableName name)).or
        (env.setting? (variableName name)))).map .str := by
  rw [ProviderSettings.source?, hgiven, settingValue?_of_leftOpen h, Option.orElse_eq_or,
    ← Option.map_or, Option.or_assoc]

/-- A setting that is given what was resolved for it comes from these sources. -/
theorem resolvedFrom_of_setting {α : Type} {read : Value → Reading α} {ofText : String → α}
    {default a : α} (htext : ∀ s, read (.str s) = .ok (ofText s))
    (hread : ∀ v, v ≠ .null → read v = .ok a → ∃ s, text v = .ok s ∧ a = ofText s)
    (hgiven : ProviderSettings.given? named name = settingValue? given env file name)
    (h : ProviderSettings.setting named env name read default = .ok a) :
    ResolvedFrom given env file name ofText default a := by
  have hvalue : ∀ v, ProviderSettings.source? named env name = some v → read v = .ok a := by
    intro v hv
    rw [ProviderSettings.setting, hv] at h
    exact under_eq_ok_iff.mp h
  have hword : ∀ s, ProviderSettings.source? named env name = some (.str s) → a = ofText s :=
    fun s hs ↦ Except.ok.inj ((hvalue _ hs).symm.trans (htext s))
  refine { document := ?_, spelled := ?_, environment := ?_, environmentFile := ?_, unset := ?_ }
  · intro v hv hnull
    exact hread v hnull (hvalue v (source?_of_get? hgiven hv hnull))
  · intro hopen s hs
    have hsource := source?_of_leftOpen hgiven hopen
    rw [hs] at hsource
    exact hword s hsource
  · intro hopen hsilent t ht
    have hsource := source?_of_leftOpen hgiven hopen
    cases hexact : env.get? (variableName name) with
    | some s =>
      rw [hexact] at hsource
      exact ⟨s, Environment.holds_of_get? hexact, hword s hsource⟩
    | none =>
      obtain ⟨s, hs⟩ := Environment.exists_setting?_of_holds ht
      rw [hexact, hsilent hexact, hs] at hsource
      exact ⟨s, Environment.holds_of_setting? hs, hword s hsource⟩
  · intro hopen hexact s hs
    have hsource := source?_of_leftOpen hgiven hopen
    rw [hexact, hs] at hsource
    exact hword s hsource
  · intro hopen hnone hs
    have hsource := source?_of_leftOpen hgiven hopen
    rw [Environment.get?_eq_none hnone, hs, Environment.setting?_eq_none_iff.mpr hnone] at hsource
    rw [ProviderSettings.setting, hsource] at h
    exact (Except.ok.inj h).symm

/-- A document that was loaded, with no other keys in its provider than the settings, has each
setting from these sources. -/
theorem resolvedFrom_of_load {path : String} {document : Value} {source : EnvSource} {c : Config}
    {sections : List (Value × Value)} (h : (load path document env source).result = .ok c)
    (hs : sections? document = some sections) (hg : providerEntries? sections = some given)
    (hkeys : OnlyNames names given) :
    ∃ settings, envVariables env source = .ok settings ∧
      ResolvedFrom given env settings.1 "domain" id "github.com" c.provider.domain ∧
      ResolvedFrom given env settings.1 "organization" some none c.provider.organization := by
  obtain ⟨found, entries, settings, named, hfrom⟩ := exists_loadedFrom h
  obtain rfl := Option.some.inj (hs.symm.trans hfrom.sections_eq)
  obtain rfl := Option.some.inj (hg.symm.trans hfrom.given_eq)
  have hgiven : ∀ name ∈ names,
      ProviderSettings.given? named name = settingValue? given env settings.1 name := by
    intro name hname
    rw [named_of_onlyNames hkeys hfrom.named_eq]
    exact given?_filterMap _ hname
  obtain ⟨hdomain, horganization⟩ := setting_of_ofNamed hfrom.provider_eq
  refine ⟨settings, hfrom.settings_eq, ?_, ?_⟩
  · exact resolvedFrom_of_setting text_str (fun v _ hv ↦ ⟨_, hv, rfl⟩)
      (hgiven "domain" (by decide)) hdomain
  · refine resolvedFrom_of_setting (fun s ↦ rfl) (fun v hnull hv ↦ ?_)
      (hgiven "organization" (by decide)) horganization
    obtain ⟨s, hs, horg⟩ := setTo_of_optional hnull hv
    exact ⟨s, hs, horg⟩

/-- A document that names no host and unsets the organization. -/
def openDocument : Value := .map [(.str "provider", .map [(.str "organization", .null)])]

/-- An environment whose variable of the host is in lower case. The organization is empty. -/
def lowerCaseEnvironment : Environment :=
  [("gitprovider_domain", "env.example.com"), ("GITPROVIDER_ORGANIZATION", "")]

/-- An environment file that gives both settings. -/
def bothSettingsFile : List UInt8 :=
  "GITPROVIDER_DOMAIN=file.example.com\nGITPROVIDER_ORGANIZATION=acme\n".toList.map fun c ↦
    c.toNat.toUInt8

/-- The document is loaded: its host comes from the environment file although there is a variable of
it in lower case, and its organization from the variable that is spelled like the setting. -/
theorem resolvedFrom_of_load_openDocument :
    ∃ c, (load "config.yaml" openDocument lowerCaseEnvironment
        (some (.ok bothSettingsFile))).result = .ok c ∧
      OnlyNames names [(.str "organization", .null)] ∧
      lowerCaseEnvironment.Holds "GITPROVIDER_DOMAIN" "env.example.com" ∧
      c.provider = ⟨"file.example.com", some ""⟩ := by
  have hload : (load "config.yaml" openDocument lowerCaseEnvironment
      (some (.ok bothSettingsFile))).result.toOption =
        some ⟨⟨"file.example.com", some ""⟩, []⟩ := by decide +kernel
  have hg : providerEntries? [(.str "provider", .map [(.str "organization", .null)])] =
      some [(.str "organization", .null)] := by
    simp [providerEntries?, Value.get?, Value.lookup?]
  have hkeys : OnlyNames names [(.str "organization", .null)] := by
    simp [OnlyNames, names, Value.text?]
  have hopen : ∀ name ∈ names, LeftOpen [(.str "organization", .null)] name := by
    simp [names, LeftOpen, Value.get?, Value.lookup?]
  have hheld : lowerCaseEnvironment.Holds "GITPROVIDER_DOMAIN" "env.example.com" := by
    refine ⟨"gitprovider_domain", by decide, ?_⟩
    -- Letter by letter: evaluating the mapped words themselves is slow.
    rw [← String.toList_inj]
    simp [foldCase]
  have h := toOption_eq_some_iff.mp hload
  obtain ⟨settings, hsettings, hdomain, horganization⟩ := resolvedFrom_of_load h rfl hg hkeys
  have hfile : EnvFile.get? settings.1 (variableName "domain") = some "file.example.com" := by
    have hread : (envVariables lowerCaseEnvironment (some (.ok bothSettingsFile))).toOption.map
        (fun settings ↦ EnvFile.get? settings.1 (variableName "domain")) =
          some (some "file.example.com") := by decide +kernel
    rw [hsettings] at hread
    exact Option.some.inj hread
  have hd := hdomain.environmentFile (hopen "domain" (by decide)) (by decide +kernel) _ hfile
  have ho := horganization.spelled (hopen "organization" (by decide)) "" (by decide +kernel)
  exact ⟨_, h, hkeys, hheld, congrArg₂ ProviderSettings.mk hd ho⟩

end Manifest
end RepoManifest
