import RepoManifest.Proofs.Config.Entries
import RepoManifest.Proofs.Resource.Reading
import RepoManifest.Proofs.Settings.Provider

/-!
# What loading gives

Once the sections and the provider of a document are at hand, the problems decide: without problems
there is a configuration of the filled entries, and with any there is a failure that lists all of
them. Nothing else comes of a document whose keys can be written and given by name.
-/

namespace RepoManifest

/-- The message of a failure is its lines, with line breaks between them. -/
theorem ConfigFailure.message_eq_intercalate (failure : ConfigFailure) :
    failure.message = "\n".intercalate failure.errors := by
  cases failure with
  | problems found => rfl
  | unreadable | notMapping | providerNotMapping => exact String.intercalate_singleton.symm

namespace Manifest

variable {path : String} {document : Value} {env : Environment} {file : EnvSource}
  {sections given : List (Value × Value)}

/-! ## Problems -/

/-- There are no problems exactly if nothing is wrong with any part. -/
theorem problems_eq_nil_iff {provider : Reading ProviderSettings} :
    problems sections provider = [] ↔
      unknownKeys sections = [] ∧ provider.issues = [] ∧ (repositoryItems sections).2 = [] ∧
      unreadable (entries sections) = [] ∧ duplicates (readable (entries sections)) = [] ∧
      violations (readable (entries sections)) = [] := by
  simp only [problems, List.append_eq_nil_iff, List.map_eq_nil_iff, and_assoc]

/-- Without problems there is a configuration of the entries that could be read: all of them. -/
theorem assemble_of_problems_eq_nil {p : ProviderSettings}
    (h : problems sections (.ok p) = []) :
    (assemble path sections (.ok p)).result =
      .ok ⟨p, (readable (entries sections)).map (·.2)⟩ := by
  simp only [assemble, h]

/-- With any problems there is a failure that lists all of them. -/
theorem assemble_of_problems_ne_nil {provider : Reading ProviderSettings}
    (h : problems sections provider ≠ []) :
    (assemble path sections provider).result =
      .error (.config (.problems (problems sections provider))) := by
  simp only [assemble]
  split
  · next hnil => exact absurd hnil h
  · rfl

/-- If there are no problems, the provider was read. -/
theorem exists_provider_of_problems_eq_nil {provider : Reading ProviderSettings}
    (hprovider : provider.IsExplained) (h : problems sections provider = []) :
    ∃ p, provider = .ok p :=
  (Reading.exists_ok_iff hprovider).mpr (problems_eq_nil_iff.mp h).2.1

/-- A configuration is assembled exactly if there are no problems, from the provider and the filled
entries. -/
theorem assemble_eq_ok_iff {provider : Reading ProviderSettings}
    (hprovider : provider.IsExplained) {c : Config} :
    (assemble path sections provider).result = .ok c ↔
      problems sections provider = [] ∧
        ∃ p, provider = .ok p ∧ c = ⟨p, (readable (entries sections)).map (·.2)⟩ := by
  by_cases h : problems sections provider = []
  · obtain ⟨p, rfl⟩ := exists_provider_of_problems_eq_nil hprovider h
    rw [assemble_of_problems_eq_nil h, Except.ok.injEq]
    constructor
    · intro hc
      exact ⟨h, p, rfl, hc.symm⟩
    · rintro ⟨_, q, hq, hc⟩
      obtain rfl := Except.ok.inj hq
      exact hc.symm
  · rw [assemble_of_problems_ne_nil h]
    exact ⟨fun hc ↦ (nomatch hc), fun hc ↦ absurd hc.1 h⟩

/-! ## Loading -/

/-- Something is given exactly if it is there once failures are forgotten. -/
theorem toOption_eq_some_iff {ε α : Type} {result : Except ε α} {a : α} :
    result.toOption = some a ↔ result = .ok a := by
  cases result <;> simp [Except.toOption]

/-- An environment file that can be read and is in UTF-8, or no environment file. -/
def Decodable (file : EnvSource) : Prop :=
  ∀ found, file = some found →
    ∃ bytes text, found = .ok bytes ∧ Text.decodeUtf8Signed bytes = .ok text

/-- Without an environment file there is nothing to decode. -/
@[simp] theorem decodable_none : Decodable none := fun _ h ↦ by cases h

/-- An environment file that cannot be read is not decodable. -/
@[simp] theorem not_decodable_error (fault : PathFault) : ¬ Decodable (some (.error fault)) := by
  intro h
  obtain ⟨_, _, hbytes, -⟩ := h _ rfl
  cases hbytes

/-- An environment file that can be read is decodable exactly if its bytes are in UTF-8. -/
@[simp] theorem decodable_ok_iff {bytes : List UInt8} :
    Decodable (some (.ok bytes)) ↔ ∃ text, Text.decodeUtf8Signed bytes = .ok text := by
  constructor
  · intro h
    obtain ⟨_, text, hbytes, htext⟩ := h _ rfl
    obtain rfl := Except.ok.inj hbytes
    exact ⟨text, htext⟩
  · rintro ⟨text, htext⟩ found hfound
    exact ⟨bytes, text, (Option.some.inj hfound).symm, htext⟩

/-- The variables of an environment file can be read exactly if it can be decoded. -/
theorem exists_envVariables_iff (env : Environment) :
    (∃ settings, envVariables env file = .ok settings) ↔ Decodable file := by
  match file with
  | none => simp [envVariables]
  | some (.error fault) => simp [envVariables]
  | some (.ok bytes) =>
    rw [decodable_ok_iff]
    simp only [envVariables]
    cases Text.decodeUtf8Signed bytes with
    | ok text =>
      constructor
      · intro _
        exact ⟨text, rfl⟩
      · intro _
        exact ⟨_, rfl⟩
    | error e =>
      constructor
      · rintro ⟨_, h⟩
        cases h
      · rintro ⟨_, h⟩
        cases h

/-- The provider settings of a document, read from its resolved entries: they are explained. -/
theorem isExplained_of_readProvider {v : Value} {provider : Reading ProviderSettings}
    (h : Config.readProvider v env = .ok provider) : provider.IsExplained := by
  unfold Config.readProvider at h
  split at h
  · split at h
    · obtain rfl := Except.ok.inj h
      exact ProviderSettings.isExplained_ofNamed _ _
    · cases h
  · obtain rfl := Except.ok.inj h
    exact Reading.isExplained_fault _

/-- A document whose unknown keys can be written, beside an environment file that can be decoded, is
assembled from what its resolved provider is read as. -/
theorem load_eq_assemble {settings : List (String × Option String) × List LogRecord}
    {provider : Reading ProviderSettings} (hs : sections? document = some sections)
    (hg : providerEntries? sections = some given)
    (hk : (unknownKeys sections).all Value.hasDisplay = true)
    (hf : envVariables env file = .ok settings)
    (hp : Config.readProvider (.map (resolvedProvider given env settings.1)) env = .ok provider) :
    (load path document env file).result = (assemble path sections provider).result := by
  obtain ⟨values, records⟩ := settings
  simp only [Config.readProvider] at hp
  split at hp
  · next named hn =>
    obtain rfl := Except.ok.inj hp
    simp only [load, hs, hg, hk, hf, hn, Bool.not_true, Bool.false_eq_true, if_false]
  · cases hp

/-- A document with an unknown key that cannot be written fails before anything is looked at. -/
theorem load_of_unwritable (hs : sections? document = some sections)
    (hg : providerEntries? sections = some given)
    (hk : ∃ k ∈ unknownKeys sections, k.hasDisplay = false) :
    (load path document env file).result = .error .unwritableKey := by
  have hall : (unknownKeys sections).all Value.hasDisplay = false := by
    rw [List.all_eq_false]
    obtain ⟨k, hmem, hk⟩ := hk
    exact ⟨k, hmem, by simp [hk]⟩
  simp only [load, hs, hg, hall, Bool.not_false, if_true]

/-- The provider can be read exactly if every key of its section is a keyword. -/
theorem exists_readProvider_iff (env : Environment) (settings : List (String × Option String)) :
    (∃ provider, Config.readProvider (.map (resolvedProvider given env settings)) env =
        .ok provider) ↔
      ∀ entry ∈ given, ¬ ProviderSettings.NoKeyword entry.1 := by
  rw [← exists_named_resolvedProvider_iff env settings]
  cases hn : ProviderSettings.named (resolvedProvider given env settings) <;>
    simp [Config.readProvider, hn]

/-- What a configuration was loaded from: the sections of its document, the entries of the provider
section, the settings of the environment file, and the provider's values by name. -/
structure LoadedFrom (document : Value) (env : Environment) (file : EnvSource) (c : Config)
    (sections given : List (Value × Value))
    (settings : List (String × Option String) × List LogRecord)
    (named : List (String × Value)) : Prop where
  sections_eq : sections? document = some sections
  given_eq : providerEntries? sections = some given
  settings_eq : envVariables env file = .ok settings
  named_eq : ProviderSettings.named (resolvedProvider given env settings.1) = .ok named
  provider_eq : ProviderSettings.ofNamed named env = .ok c.provider
  problems_eq : problems sections (.ok c.provider) = []
  repositories_eq : c.repositories = (readable (entries sections)).map (·.2)

/-- Every configuration was loaded from something. -/
theorem exists_loadedFrom {c : Config} (h : (load path document env file).result = .ok c) :
    ∃ sections given settings named,
      LoadedFrom document env file c sections given settings named := by
  unfold load at h
  split at h
  · cases h
  · next sections hs =>
    split at h
    · cases h
    · next given hg =>
      split at h
      · cases h
      · split at h
        · cases h
        · next values warnings hf =>
          split at h
          · cases h
          · next named hn =>
            have hexplained := ProviderSettings.isExplained_ofNamed named env
            obtain ⟨hnil, p, hp, rfl⟩ := (assemble_eq_ok_iff hexplained).mp h
            rw [hp] at hnil
            exact ⟨sections, given, (values, warnings), named, hs, hg, hf, hn, hp, hnil, rfl⟩

/-- A configuration was loaded from the sections of a document without problems. -/
theorem exists_sections_of_load {c : Config} (h : (load path document env file).result = .ok c) :
    ∃ sections, sections? document = some sections ∧ problems sections (.ok c.provider) = [] ∧
      c.repositories = (readable (entries sections)).map (·.2) := by
  obtain ⟨sections, _, _, _, hfrom⟩ := exists_loadedFrom h
  exact ⟨sections, hfrom.sections_eq, hfrom.problems_eq, hfrom.repositories_eq⟩

end Manifest
end RepoManifest
