import RepoManifest.Config.Source
import RepoManifest.Proofs.Config.Outcome
import RepoManifest.Proofs.Text.Printable

/-!
# When a manifest is not at fault

Loading mostly gives a configuration or says what is wrong with the manifest. It does neither if the
sections are never looked at: because an unknown key cannot be written, because the environment file
cannot be reached, read or decoded, or because a key of the provider section is no keyword. There is
no other reason, as long as the provider section does not change how settings are gathered.
-/

namespace RepoManifest

/-- Loading gave a configuration or says what is wrong with the manifest. -/
def LoadOutcome.Settled (o : LoadOutcome) : Prop :=
  (∃ c, o.result = .ok c) ∨ ∃ failure, o.result = .error (.config failure)

/-- A path is printable if its root and its steps are. -/
theorem FilePath.printable_text {p : FilePath} (hroot : Text.Printable p.root)
    (hsteps : ∀ step ∈ p.steps, Text.Printable step) : Text.Printable p.text := by
  rw [text]
  split
  · decide
  · exact Text.printable_append.mpr ⟨hroot, Text.printable_intercalate (by decide) hsteps⟩

namespace Manifest

variable {path : String} {document : Value} {env : Environment} {file : EnvSource}
  {sections given : List (Value × Value)}

/-- Sections can be looked at: the unknown keys can be written, the environment file, if there is
one, can be read and decoded, and the provider's keys are keywords. -/
structure Approachable (sections given : List (Value × Value)) (file : EnvSource) : Prop where
  writable : ∀ k ∈ unknownKeys sections, k.hasDisplay = true
  decodable : Decodable file
  keywords : ∀ entry ∈ given, ¬ ProviderSettings.NoKeyword entry.1

/-- Assembling always settles a document. -/
theorem assemble_settled {provider : Reading ProviderSettings} (hprovider : provider.IsExplained) :
    (assemble path sections provider).Settled := by
  by_cases hnil : problems sections provider = []
  · obtain ⟨p, rfl⟩ := exists_provider_of_problems_eq_nil hprovider hnil
    exact .inl ⟨_, assemble_of_problems_eq_nil hnil⟩
  · exact .inr ⟨_, assemble_of_problems_ne_nil hnil⟩

/-- A document whose sections can be looked at is assembled under the settings that its resolved
provider gives by name. -/
theorem exists_named_of_approachable (path : String) (env : Environment)
    (hs : sections? document = some sections) (hg : providerEntries? sections = some given)
    (h : Approachable sections given file) :
    ∃ settings named, envVariables env file = .ok settings ∧
      ProviderSettings.named (resolvedProvider given env settings.1) = .ok named ∧
      (load path document env file).result =
        (assemble path sections (ProviderSettings.ofNamed named env)).result := by
  obtain ⟨settings, hf⟩ := (exists_envVariables_iff env).mpr h.decodable
  obtain ⟨named, hn⟩ := (exists_named_resolvedProvider_iff env settings.1).mpr h.keywords
  have hk : (unknownKeys sections).all Value.hasDisplay = true := List.all_eq_true.mpr h.writable
  have hp : Config.readProvider (.map (resolvedProvider given env settings.1)) env =
      .ok (ProviderSettings.ofNamed named env) := by
    simp only [Config.readProvider, hn]
  exact ⟨settings, named, hf, hn, load_eq_assemble hs hg hk hf hp⟩

/-- A document whose sections can be looked at is settled. -/
theorem load_settled_of_approachable (hs : sections? document = some sections)
    (hg : providerEntries? sections = some given) (h : Approachable sections given file) :
    (load path document env file).Settled := by
  obtain ⟨_, named, _, _, hresult⟩ := exists_named_of_approachable path env hs hg h
  rw [LoadOutcome.Settled, hresult]
  exact assemble_settled (ProviderSettings.isExplained_ofNamed named env)

/-- A document beside an environment file that cannot be read or decoded fails for that file. -/
theorem load_of_undecodable (path : String) (env : Environment)
    (hs : sections? document = some sections)
    (hg : providerEntries? sections = some given)
    (hk : ∀ k ∈ unknownKeys sections, k.hasDisplay = true) (hf : ¬ Decodable file) :
    ∃ e, (load path document env file).result = .error (.environmentFile e) := by
  have hall : (unknownKeys sections).all Value.hasDisplay = true := List.all_eq_true.mpr hk
  cases he : envVariables env file with
  | ok settings => exact absurd ((exists_envVariables_iff env).mp ⟨settings, he⟩) hf
  | error e =>
    refine ⟨e, ?_⟩
    simp only [load, hs, hg, hall, he, Bool.not_true, Bool.false_eq_true, if_false]

/-- A document whose provider has a key that is no keyword fails for that key. -/
theorem load_of_noKeyword (path : String) (env : Environment)
    (hs : sections? document = some sections)
    (hg : providerEntries? sections = some given)
    (hk : ∀ k ∈ unknownKeys sections, k.hasDisplay = true) (hf : Decodable file)
    (hn : ∃ entry ∈ given, ProviderSettings.NoKeyword entry.1) :
    ∃ fault, (load path document env file).result = .error (.providerKeys fault) := by
  have hall : (unknownKeys sections).all Value.hasDisplay = true := List.all_eq_true.mpr hk
  obtain ⟨⟨settings, records⟩, he⟩ := (exists_envVariables_iff env).mpr hf
  cases hnamed : ProviderSettings.named (resolvedProvider given env settings) with
  | ok names =>
    obtain ⟨entry, hmem, hentry⟩ := hn
    have hall := (exists_named_resolvedProvider_iff env settings).mp ⟨names, hnamed⟩
    exact absurd hentry (hall entry hmem)
  | error fault =>
    refine ⟨fault, ?_⟩
    simp only [load, hs, hg, hall, he, hnamed, Bool.not_true, Bool.false_eq_true, if_false]

/-- A document whose sections cannot be looked at is not settled. -/
theorem approachable_of_load_settled (hs : sections? document = some sections)
    (hg : providerEntries? sections = some given) (h : (load path document env file).Settled) :
    Approachable sections given file := by
  have hother : ∀ e, (load path document env file).result = .error e →
      ∃ failure, e = .config failure := by
    intro e he
    rcases h with ⟨c, hc⟩ | ⟨failure, hfailure⟩
    · rw [hc] at he
      cases he
    · exact ⟨failure, Except.error.inj (he.symm.trans hfailure)⟩
  have hk : ∀ k ∈ unknownKeys sections, k.hasDisplay = true := by
    intro k hmem
    by_contra hno
    obtain ⟨_, h⟩ := hother _ (load_of_unwritable hs hg ⟨k, hmem, by simpa using hno⟩)
    cases h
  have hf : Decodable file := by
    by_contra hno
    obtain ⟨e, he⟩ := load_of_undecodable path env hs hg hk hno
    obtain ⟨_, h⟩ := hother _ he
    cases h
  refine ⟨hk, hf, fun entry hmem hno ↦ ?_⟩
  obtain ⟨fault, he⟩ := load_of_noKeyword path env hs hg hk hf ⟨entry, hmem, hno⟩
  obtain ⟨_, h⟩ := hother _ he
  cases h

/-- Loading a document is settled exactly if its sections, where it has any, can be looked at. -/
theorem load_settled_iff :
    (load path document env file).Settled ↔
      ∀ sections given, sections? document = some sections →
        providerEntries? sections = some given → Approachable sections given file := by
  constructor
  · intro h sections given hs hg
    exact approachable_of_load_settled hs hg h
  · intro h
    cases hs : sections? document with
    | none =>
      refine .inr ⟨.notMapping path, ?_⟩
      simp only [load, hs]
    | some sections =>
      cases hg : providerEntries? sections with
      | none =>
        refine .inr ⟨.providerNotMapping path, ?_⟩
        simp only [load, hs, hg]
      | some given => exact load_settled_of_approachable hs hg (h sections given hs hg)

/-- A provider with a number for a key is not settled. -/
example :
    ¬ (load "config.yaml" (.map [(.str "provider", .map [(.int 1, .int 2)])]) [] none).Settled := by
  intro h
  have hg : providerEntries? [(.str "provider", .map [(.int 1, .int 2)])] =
      some [(.int 1, .int 2)] := by
    simp [providerEntries?, Value.get?, Value.lookup?]
  have hkeys := (load_settled_iff.mp h _ _ rfl hg).keywords
  exact hkeys (.int 1, .int 2) (List.mem_singleton_self _) (.inl rfl)

/-- The file at a path holds a document with these sections, and the entries of its provider section
are these. -/
structure SectionsAt (wording : Wording) (files : FileSource) (path : FilePath)
    (sections given : List (Value × Value)) : Prop where
  document : ∃ document, readDocument wording files path = .ok document ∧
    sections? document = some sections
  provider : providerEntries? sections = some given

/-- There is only one document at a path, so its sections and the entries of its provider section
are determined. -/
theorem SectionsAt.unique {wording : Wording} {files : FileSource} {path : FilePath}
    {others givenOthers : List (Value × Value)} (h : SectionsAt wording files path sections given)
    (hother : SectionsAt wording files path others givenOthers) :
    others = sections ∧ givenOthers = given := by
  obtain ⟨document, hdocument, hs⟩ := h.document
  obtain ⟨other, hread, ho⟩ := hother.document
  obtain rfl := Except.ok.inj (hdocument.symm.trans hread)
  obtain rfl := Option.some.inj (hs.symm.trans ho)
  exact ⟨rfl, (Option.some.inj (h.provider.symm.trans hother.provider)).symm⟩

/-- Loading a manifest is settled for any files, path and environment, exactly unless the file holds
a document with sections that cannot be looked at. The provider section, if it is looked at, leaves
the gathering of settings as it is. -/
theorem loadFile_settled_iff (wording : Wording) (files : FileSource) (path : FilePath)
    (env : Environment) :
    (∀ sections given, SectionsAt wording files path sections given →
      ProviderSettings.GathersAsUsual given) →
    ((loadFile wording files path env).Settled ↔
      ∀ sections given, SectionsAt wording files path sections given →
        Approachable sections given (envSource files path)) := by
  intro _
  cases hd : readDocument wording files path with
  | error fault =>
    have hfailure := loadFile_of_readDocument_error hd env
    constructor
    · intro _ sections given hat
      obtain ⟨_, hdocument, -⟩ := hat.document
      cases hd.symm.trans hdocument
    · exact fun _ ↦ .inr ⟨_, hfailure⟩
  | ok document =>
    have hload : loadFile wording files path env =
        load path.text document env (envSource files path) := by
      rw [loadFile, hd]
    rw [hload, load_settled_iff]
    constructor
    · intro h sections given hat
      obtain ⟨_, hdocument, hs⟩ := hat.document
      obtain rfl := Except.ok.inj (hd.symm.trans hdocument)
      exact h sections given hs hat.provider
    · intro h sections given hs hg
      exact h sections given ⟨⟨document, hd, hs⟩, hg⟩

/-- A path of as many bytes as a path may have, through directories with long names to a file with
a short one. -/
def deepPath : FilePath :=
  ⟨"", List.replicate 23 (String.ofList (List.replicate 177 'd')) ++ ["c"]⟩

/-- An empty manifest at this path. The path of an environment file beside it is too long. -/
def emptyAtDeepPath : FileTree := ⟨[(deepPath.steps, [])]⟩

/-- Beside an environment file that cannot be reached even an empty manifest is not settled. -/
theorem loadFile_settled_iff_emptyAtDeepPath :
    ¬ (loadFile default emptyAtDeepPath.read deepPath []).Settled := by
  have hsteps : ∀ step ∈ deepPath.steps, Text.Printable step := by
    intro step hstep
    obtain hlong | hshort := List.mem_append.mp hstep
    · rw [List.eq_of_mem_replicate hlong, Text.printable_ofList]
      intro c hc
      rw [List.eq_of_mem_replicate hc]
      decide
    · rw [List.mem_singleton.mp hshort]
      decide
  have hnull : '\x00' ∉ deepPath.text.toList :=
    (FilePath.printable_text (by decide) hsteps).not_mem (by decide)
  have hfile : emptyAtDeepPath.read deepPath = .ok [] :=
    toOption_eq_some_iff.mp (by decide +kernel)
  have hbeside : emptyAtDeepPath.read (deepPath.parent.join ".env") = .error .nameTooLong := by
    rw [FileTree.read, if_pos (by decide +kernel)]
  have hempty : Yaml.parse? [] = some .null := by with_unfolding_all rfl
  have hread : readDocument default emptyAtDeepPath.read deepPath = .ok .null := by
    simp [readDocument, hnull, hfile, hempty]
  have hat : SectionsAt default emptyAtDeepPath.read deepPath [] [] :=
    ⟨⟨.null, hread, rfl⟩, rfl⟩
  have hgathers (sections given : List (Value × Value))
      (h : SectionsAt default emptyAtDeepPath.read deepPath sections given) :
      ProviderSettings.GathersAsUsual given := by
    obtain ⟨-, rfl⟩ := hat.unique h
    exact fun _ hentry ↦ absurd hentry List.not_mem_nil
  intro h
  have hdecodable := ((loadFile_settled_iff default emptyAtDeepPath.read deepPath []
    hgathers).mp h [] [] hat).decodable
  rw [envSource, hbeside] at hdecodable
  exact not_decodable_error _ hdecodable

end Manifest
end RepoManifest
