import RepoManifest.Proofs.Config.Failure
import RepoManifest.Proofs.Config.Report

/-!
# What the provider section hides

Documents that differ in nothing but the value of their provider report the same lines for their
repositories, in the same order, as long as each value can be used: whatever is wrong with the
settings stands beside these lines. A value that cannot be used, because it is no mapping or has a
key that is no keyword, hides all of them. So two values report the same exactly if both can be used
or neither can, unless there is nothing to report.
-/

namespace RepoManifest

/-- Whether a problem is one of the repositories: of their section, of an entry or of a name. -/
def Problem.ofRepositories : Problem → Bool
  | .unknownSection _ | .provider _ => false
  | .repositoriesNotList | .entry _ _ | .duplicate _ | .violation _ => true

/-- The lines that loading reports for the repositories. -/
def LoadOutcome.repositoryLines (o : LoadOutcome) : List String :=
  match o.result with
  | .error (.config (.problems found)) => (found.filter (·.ofRepositories)).map (·.line)
  | _ => []

namespace Manifest

open ProviderSettings (NoKeyword)

variable {path : String} {document : Value} {env : Environment} {file : EnvSource}
  {sections given : List (Value × Value)}

/-! ## Problems of the repositories -/

/-- Everything that is wrong with the repositories of a document. -/
def repositoryProblems (sections : List (Value × Value)) : List Problem :=
  (repositoryItems sections).2 ++ unreadable (entries sections) ++
    duplicates (readable (entries sections)) ++ violations (readable (entries sections))

/-- Everything that is reported for the repositories of a document. -/
def repositoryReport (sections : List (Value × Value)) : List String :=
  listLines sections ++
  (listed sections).zipIdx.flatMap (fun (v, i) ↦
    (RepositoryEntry.read v).issues.map fun issue ↦
      issue.line [.name "repositories", .index i]) ++
  (Duplicate.find ((parsed (listed sections)).map fun (i, e) ↦ ((i : Int), e.name))).map
    (fun d ↦ d.line) ++
  (parsed (listed sections)).flatMap entryLines

/-- The lines of these problems are that report. -/
theorem lines_repositoryProblems (sections : List (Value × Value)) :
    (repositoryProblems sections).map Problem.line = repositoryReport sections := by
  simp only [repositoryProblems, repositoryReport, List.map_append, lines_repositoryItems,
    lines_unreadable, lines_duplicates, lines_violations]

/-- Every problem of the repositories is one. -/
theorem ofRepositories_of_mem {p : Problem} (h : p ∈ repositoryProblems sections) :
    p.ofRepositories = true := by
  simp only [repositoryProblems, List.mem_append] at h
  rcases h with ((hlist | hentry) | hname) | hviolation
  · unfold repositoryItems at hlist
    split at hlist
    · cases hlist
    · cases hlist
    · cases hlist
    · obtain rfl := List.mem_singleton.mp hlist
      rfl
  · obtain ⟨⟨i, r⟩, _, hp⟩ := List.mem_flatMap.mp hentry
    obtain ⟨issue, _, rfl⟩ := List.mem_map.mp hp
    rfl
  · obtain ⟨d, _, rfl⟩ := List.mem_map.mp hname
    rfl
  · obtain ⟨⟨i, e⟩, _, hp⟩ := List.mem_flatMap.mp hviolation
    obtain ⟨f, _, rfl⟩ := List.mem_map.mp hp
    rfl

/-- The problems are those of the keys, of the provider and of the repositories, in this order. -/
theorem problems_eq_append (sections : List (Value × Value)) (provider : Reading ProviderSettings) :
    problems sections provider =
      (unknownKeys sections).map .unknownSection ++ provider.issues.map .provider ++
        repositoryProblems sections := by
  simp only [problems, repositoryProblems, List.append_assoc]

/-- The problems of the repositories among all problems do not depend on the provider. -/
theorem filter_problems (sections : List (Value × Value)) (provider : Reading ProviderSettings) :
    (problems sections provider).filter (·.ofRepositories) = repositoryProblems sections := by
  have hunknown : ((unknownKeys sections).map Problem.unknownSection).filter (·.ofRepositories) =
      [] := by
    simp [List.filter_map, Function.comp_def, Problem.ofRepositories]
  have hprovider : (provider.issues.map Problem.provider).filter (·.ofRepositories) = [] := by
    simp [List.filter_map, Function.comp_def, Problem.ofRepositories]
  have hown : (repositoryProblems sections).filter (·.ofRepositories) =
      repositoryProblems sections :=
    List.filter_eq_self.mpr fun _ ↦ ofRepositories_of_mem
  rw [problems_eq_append, List.filter_append, List.filter_append, hunknown, hprovider, hown]
  rfl

/-- Assembling a document reports its repositories whatever the provider. -/
theorem repositoryLines_assemble {provider : Reading ProviderSettings}
    (hprovider : provider.IsExplained) :
    (assemble path sections provider).repositoryLines = repositoryReport sections := by
  have hlines := congrArg (List.map Problem.line) (filter_problems sections provider)
  rw [lines_repositoryProblems] at hlines
  by_cases hnil : problems sections provider = []
  · obtain ⟨p, rfl⟩ := exists_provider_of_problems_eq_nil hprovider hnil
    rw [← hlines, hnil, LoadOutcome.repositoryLines, assemble_of_problems_eq_nil hnil]
    rfl
  · rw [LoadOutcome.repositoryLines, assemble_of_problems_ne_nil hnil]
    exact hlines

/-! ## Loading one document -/

/-- A document whose sections can be looked at reports its repositories. -/
theorem repositoryLines_load (hs : sections? document = some sections)
    (hg : providerEntries? sections = some given) (h : Approachable sections given file) :
    (load path document env file).repositoryLines = repositoryReport sections := by
  obtain ⟨_, named, _, _, hresult⟩ := exists_named_of_approachable path env hs hg h
  rw [LoadOutcome.repositoryLines, hresult]
  exact repositoryLines_assemble (ProviderSettings.isExplained_ofNamed named env)

/-- Any other document reports none of them. -/
theorem repositoryLines_load_of_not_approachable (hs : sections? document = some sections)
    (h : ∀ given, providerEntries? sections = some given → ¬ Approachable sections given file) :
    (load path document env file).repositoryLines = [] := by
  cases hg : providerEntries? sections with
  | none => simp only [LoadOutcome.repositoryLines, load, hs, hg]
  | some given =>
    unfold LoadOutcome.repositoryLines
    split
    · next found hfailure =>
      exact absurd (approachable_of_load_settled hs hg (.inr ⟨_, hfailure⟩)) (h given hg)
    · rfl

/-! ## Another provider -/

/-- A document with a value for its provider. -/
def withProvider (sections : List (Value × Value)) (v : Value) : List (Value × Value) :=
  Value.insert sections (.str "provider") v

/-- Whether a value can be used as a provider section: a mapping whose keys are keywords, or a value
of another kind that counts as empty. -/
def ProviderUsable (v : Value) : Prop :=
  match v with
  | .map given => ∀ entry ∈ given, ¬ NoKeyword entry.1
  | other => other.truthy = false

/-- Whether a document can be looked at but for its provider: its unknown keys can be written, and
the environment file beside it can be decoded. -/
def Legible (sections : List (Value × Value)) (file : EnvSource) : Prop :=
  (∀ k ∈ unknownKeys sections, k.hasDisplay = true) ∧ Decodable file

/-- The unknown keys of a document do not depend on its provider. -/
theorem unknownKeys_withProvider (sections : List (Value × Value)) (v : Value) :
    unknownKeys (withProvider sections v) = unknownKeys sections := by
  have hknown : [Value.str "provider"].filter
      (fun k ↦ !Config.sections.any fun name ↦ k.equal (.str name)) = [] := by
    simp [Config.sections]
  unfold unknownKeys withProvider
  rcases Value.map_fst_insert sections "provider" v with hkeys | hkeys
  · rw [hkeys]
  · rw [hkeys, List.filter_append, hknown, List.append_nil]

/-- The repositories of a document do not depend on its provider. -/
theorem get?_withProvider_repositories (sections : List (Value × Value)) (v : Value) :
    Value.get? (withProvider sections v) "repositories" = Value.get? sections "repositories" :=
  Value.get?_insert_of_ne (by decide) sections v

/-- What is reported for the repositories of a document does not depend on its provider. -/
theorem repositoryReport_withProvider (sections : List (Value × Value)) (v : Value) :
    repositoryReport (withProvider sections v) = repositoryReport sections := by
  have hlisted : listed (withProvider sections v) = listed sections := by
    unfold listed
    rw [get?_withProvider_repositories]
  have hlines : listLines (withProvider sections v) = listLines sections := by
    unfold listLines
    rw [get?_withProvider_repositories]
  rw [repositoryReport, repositoryReport, hlisted, hlines]

/-- The entries of a provider section are those of its value. -/
theorem exists_approachable_withProvider_iff {v : Value} :
    (∃ given, providerEntries? (withProvider sections v) = some given ∧
      Approachable (withProvider sections v) given file) ↔
        ProviderUsable v ∧ Legible sections file := by
  have hget : Value.get? (withProvider sections v) "provider" = some v :=
    Value.get?_insert_self sections "provider" v
  have happroachable {given : List (Value × Value)} :
      Approachable (withProvider sections v) given file ↔
        (∀ entry ∈ given, ¬ NoKeyword entry.1) ∧ Legible sections file := by
    rw [Legible, ← unknownKeys_withProvider sections v]
    exact ⟨fun h ↦ ⟨h.keywords, h.writable, h.decodable⟩, fun h ↦ ⟨h.2.1, h.2.2, h.1⟩⟩
  simp only [happroachable, providerEntries?, hget]
  -- The cases of the section: a mapping, and a value of another kind that is empty or not.
  split
  · next hnone => cases hnone
  · next entries heq =>
    obtain rfl := Option.some.inj heq
    simp [ProviderUsable]
  · next w hmap heq =>
    obtain rfl := Option.some.inj heq
    have husable : ProviderUsable v ↔ v.truthy = false := by
      unfold ProviderUsable
      split
      · next given => exact absurd rfl (hmap given)
      · rfl
    rw [husable]
    cases v.truthy <;> simp

/-- A document reports its repositories if its provider can be used, and none of them if not. -/
theorem repositoryLines_load_withProvider (path : String) (env : Environment)
    (hlegible : Legible sections file) (v : Value) :
    (ProviderUsable v → (load path (.map (withProvider sections v)) env file).repositoryLines =
      repositoryReport sections) ∧
    (¬ ProviderUsable v →
      (load path (.map (withProvider sections v)) env file).repositoryLines = []) := by
  constructor
  · intro husable
    obtain ⟨given, hg, happroachable⟩ :=
      exists_approachable_withProvider_iff.mpr ⟨husable, hlegible⟩
    rw [repositoryLines_load rfl hg happroachable, repositoryReport_withProvider]
  · intro hno
    refine repositoryLines_load_of_not_approachable rfl fun given hg h ↦ hno ?_
    exact (exists_approachable_withProvider_iff.mp ⟨given, hg, h⟩).1

/-- A document that cannot be looked at for another reason reports none of its repositories. -/
theorem repositoryLines_load_of_not_legible (path : String) (env : Environment)
    (h : ¬ Legible sections file) (v : Value) :
    (load path (.map (withProvider sections v)) env file).repositoryLines = [] :=
  repositoryLines_load_of_not_approachable rfl fun given hg happroachable ↦
    h (exists_approachable_withProvider_iff.mp ⟨given, hg, happroachable⟩).2

/-- Two values for the provider of a document, both of which leave the gathering of settings as it
is, report the same lines for its repositories exactly if both can be used or neither can, unless
there is nothing to report or the document cannot be looked at for another reason. -/
theorem repositoryLines_withProvider_eq_iff (path : String) (sections : List (Value × Value))
    (env : Environment) (file : EnvSource) (p q : Value) :
    (∀ given, .map given ∈ [p, q] → ProviderSettings.GathersAsUsual given) →
    ((load path (.map (withProvider sections p)) env file).repositoryLines =
        (load path (.map (withProvider sections q)) env file).repositoryLines ↔
      (ProviderUsable p ↔ ProviderUsable q) ∨ repositoryReport sections = [] ∨
        ¬ Legible sections file) := by
  intro _
  by_cases hlegible : Legible sections file
  · obtain ⟨hp, hp'⟩ := repositoryLines_load_withProvider path env hlegible p
    obtain ⟨hq, hq'⟩ := repositoryLines_load_withProvider path env hlegible q
    by_cases husep : ProviderUsable p
    · rw [hp husep]
      by_cases huseq : ProviderUsable q
      · simp [hq huseq, husep, huseq]
      · simp [hq' huseq, husep, huseq, hlegible]
    · rw [hp' husep]
      by_cases huseq : ProviderUsable q
      · have hcomm : [] = repositoryReport sections ↔ repositoryReport sections = [] := eq_comm
        simp [hq huseq, husep, huseq, hlegible, hcomm]
      · simp [hq' huseq, husep, huseq]
  · rw [repositoryLines_load_of_not_legible path env hlegible,
      repositoryLines_load_of_not_legible path env hlegible]
    simp [hlegible]

/-- Sections with an item that is no entry. -/
def wordSections : List (Value × Value) := [(.str "repositories", .list [.str "docs"])]

/-- A provider that is a word hides that item; an unknown setting does not. -/
theorem repositoryLines_withProvider_eq_iff_wordSections :
    (load "config.yaml" (.map (withProvider wordSections (.str "github"))) []
        none).repositoryLines ≠
      (load "config.yaml" (.map (withProvider wordSections (.map [(.str "team", .str "x")]))) []
        none).repositoryLines := by
  have hgathers : ∀ given, Value.map given ∈ [.str "github", .map [(.str "team", .str "x")]] →
      ProviderSettings.GathersAsUsual given := by
    intro given hmem
    obtain rfl : given = [(.str "team", .str "x")] := by simpa using hmem
    simp [ProviderSettings.GathersAsUsual, Value.text?, ProviderSettings.gatheringKeywords]
  have hword : ¬ ProviderUsable (.str "github") := by
    simp [ProviderUsable, Value.truthy]
  have hmapping : ProviderUsable (.map [(.str "team", .str "x")]) := by
    simp [ProviderUsable, NoKeyword, Value.text?, ProviderSettings.receiver]
  have hreport : repositoryReport wordSections ≠ [] := by decide +kernel
  have hlegible : Legible wordSections none := ⟨by decide +kernel, decodable_none⟩
  intro heq
  have hcases := (repositoryLines_withProvider_eq_iff "config.yaml" wordSections [] none
    (.str "github") (.map [(.str "team", .str "x")]) hgathers).mp heq
  simp [hword, hmapping, hreport, hlegible] at hcases

end Manifest
end RepoManifest
