import RepoManifest.Proofs.Config.Independence

/-!
# Unknown keys of the provider

A key of the provider section is refused exactly if it is unknown: if it names no setting in any
letter case and is no keyword that says how settings are gathered. So a document that was loaded has
known keys only, and these are more than the names of the settings.
-/

namespace RepoManifest

/-- Loading refuses a key of the provider: it reports the key for being there. -/
def LoadOutcome.Refuses (o : LoadOutcome) (name : String) : Prop :=
  ∃ found, o.result = .error (.config (.problems found)) ∧
    Problem.provider ⟨[.name name], .extra⟩ ∈ found

/-- A key that is refused has its line. -/
theorem LoadOutcome.exists_line_of_refuses {o : LoadOutcome} {name : String} (h : o.Refuses name) :
    ∃ failure, o.result = .error (.config failure) ∧
      "provider." ++ name ++ ": Extra inputs are not permitted" ∈ failure.errors := by
  obtain ⟨found, hresult, hmem⟩ := h
  refine ⟨.problems found, hresult, ?_⟩
  have hdot : "provider" ++ "." = "provider." := by decide
  have hline : (Problem.provider ⟨[.name name], .extra⟩).line =
      "provider." ++ name ++ ": Extra inputs are not permitted" := by
    calc (Problem.provider ⟨[.name name], .extra⟩).line
        = "provider" ++ ("." ++ name) ++ ": " ++ "Extra inputs are not permitted" := rfl
      _ = "provider" ++ "." ++ name ++ (": " ++ "Extra inputs are not permitted") := by
          simp only [String.append_assoc]
      _ = "provider." ++ name ++ ": Extra inputs are not permitted" := by rw [hdot]; rfl
  rw [← hline]
  exact List.mem_map_of_mem hmem

namespace Manifest

open ProviderSettings (Known)

variable {path : String} {document : Value} {env : Environment} {file : EnvSource} {c : Config}
  {sections given : List (Value × Value)} {provider : Reading ProviderSettings} {name : String}

/-- The problems of the provider are the issues of its settings. -/
theorem provider_mem_problems_iff {issue : Issue} :
    Problem.provider issue ∈ problems sections provider ↔ issue ∈ provider.issues := by
  rw [problems_eq_append, List.mem_append, List.mem_append]
  constructor
  · rintro ((hunknown | hprovider) | hrepositories)
    · obtain ⟨_, _, heq⟩ := List.mem_map.mp hunknown
      cases heq
    · obtain ⟨_, hmem, heq⟩ := List.mem_map.mp hprovider
      cases heq
      exact hmem
    · exact absurd (ofRepositories_of_mem hrepositories) Bool.false_ne_true
  · intro hmem
    exact .inl (.inr (List.mem_map_of_mem hmem))

/-- Assembling a document refuses the keys that its provider was refused for. -/
theorem assemble_refuses_iff :
    (assemble path sections provider).Refuses name ↔
      (⟨[.name name], .extra⟩ : Issue) ∈ provider.issues := by
  rw [← @provider_mem_problems_iff sections]
  constructor
  · rintro ⟨found, hresult, hmem⟩
    unfold assemble at hresult
    split at hresult
    · cases hresult
    · cases hresult
      exact hmem
  · intro hmem
    exact ⟨_, assemble_of_problems_ne_nil (List.ne_nil_of_mem hmem), hmem⟩

/-- A document whose sections can be looked at is refused for exactly the unknown keys of its
provider. -/
theorem load_refuses_iff (hs : sections? document = some sections)
    (hg : providerEntries? sections = some given) (h : Approachable sections given file) :
    (load path document env file).Refuses name ↔
      (∃ entry ∈ given, entry.1.text? = some name) ∧ ¬ Known name := by
  obtain ⟨_, named, _, hn, hresult⟩ := exists_named_of_approachable path env hs hg h
  rw [← mem_unknownNames_resolvedProvider_iff hn,
    ← @ProviderSettings.extra_mem_issues_ofNamed_iff named env,
    ← @assemble_refuses_iff path sections, LoadOutcome.Refuses, hresult]
  rfl

/-- A document that was loaded has a provider with known keys only. -/
theorem known_of_load (hs : sections? document = some sections)
    (hg : providerEntries? sections = some given)
    (h : (load path document env file).result = .ok c) :
    ∀ entry ∈ given, ∃ name, entry.1.text? = some name ∧ Known name := by
  intro entry hmem
  have happroachable := approachable_of_load_settled hs hg (.inl ⟨c, h⟩)
  obtain ⟨name, htext⟩ := Option.ne_none_iff_exists'.mp fun hnone ↦
    happroachable.keywords entry hmem (.inl hnone)
  refine ⟨name, htext, ?_⟩
  by_contra hunknown
  obtain ⟨_, hresult, _⟩ := (load_refuses_iff hs hg happroachable).mpr
    ⟨⟨entry, hmem, htext⟩, hunknown⟩
  rw [h] at hresult
  cases hresult

/-- In a provider section that leaves the gathering of settings as it is, a key is refused, with its
line, exactly if it is unknown, and a document that was loaded has known keys only. Keys are not
refused if the sections cannot be looked at: then there is another failure. -/
theorem refuses_iff_not_known (path : String) (env : Environment)
    (hs : sections? document = some sections) (hg : providerEntries? sections = some given) :
    ProviderSettings.GathersAsUsual given →
    (Approachable sections given file → ∀ name,
      (load path document env file).Refuses name ↔
        (∃ entry ∈ given, entry.1.text? = some name) ∧ ¬ Known name) ∧
    (∀ name, (load path document env file).Refuses name →
      ∃ failure, (load path document env file).result = .error (.config failure) ∧
        "provider." ++ name ++ ": Extra inputs are not permitted" ∈ failure.errors) ∧
    (∀ c, (load path document env file).result = .ok c →
      ∀ entry ∈ given, ∃ name, entry.1.text? = some name ∧ Known name) :=
  fun _ ↦ ⟨fun h _ ↦ load_refuses_iff hs hg h, fun _ ↦ LoadOutcome.exists_line_of_refuses,
    fun _ ↦ known_of_load hs hg⟩

/-- A provider with a key that is unknown, a setting in upper case, and a keyword. -/
def threeKeys : List (Value × Value) :=
  [(.str "team", .str "x"), (.str "Domain", .str "git.example.com"), (.str "_env_file", .null)]

/-- The document with this provider. -/
def threeKeysDocument : Value := .map [(.str "provider", .map threeKeys)]

/-- Of these keys only the unknown one is refused. -/
theorem refuses_iff_not_known_threeKeys :
    (∃ failure, (load "config.yaml" threeKeysDocument [] none).result = .error (.config failure) ∧
      "provider.team: Extra inputs are not permitted" ∈ failure.errors) ∧
    ¬ (load "config.yaml" threeKeysDocument [] none).Refuses "Domain" ∧
    ¬ (load "config.yaml" threeKeysDocument [] none).Refuses "_env_file" := by
  have hg : providerEntries? [(.str "provider", .map threeKeys)] = some threeKeys := by
    simp [providerEntries?, Value.get?, Value.lookup?]
  have happroachable : Approachable [(.str "provider", .map threeKeys)] threeKeys none := {
    writable := by decide +kernel
    decodable := decodable_none
    keywords := by
      simp [threeKeys, ProviderSettings.NoKeyword, Value.text?, ProviderSettings.receiver] }
  have hgathers : ProviderSettings.GathersAsUsual threeKeys := by
    simp [ProviderSettings.GathersAsUsual, threeKeys, Value.text?,
      ProviderSettings.gatheringKeywords]
  have hteam : ¬ Known "team" := by decide +kernel
  have hdomain : Known "Domain" := by decide +kernel
  have hfile : Known "_env_file" := by decide +kernel
  obtain ⟨hiff, hline, _⟩ :=
    @refuses_iff_not_known threeKeysDocument none _ _ "config.yaml" [] rfl hg hgathers
  have hrefused := (hiff happroachable "team").mpr ⟨by simp [threeKeys, Value.text?], hteam⟩
  exact ⟨hline "team" hrefused, fun h ↦ ((hiff happroachable _).mp h).2 hdomain,
    fun h ↦ ((hiff happroachable _).mp h).2 hfile⟩

/-- A setting in upper case and a keyword are accepted. -/
example : (load "config.yaml" (.map [(.str "provider", .map (threeKeys.drop 1))]) [] none).result =
    .ok ⟨⟨"git.example.com", none⟩, []⟩ := by
  rw [← toOption_eq_some_iff]
  decide +kernel

end Manifest
end RepoManifest
