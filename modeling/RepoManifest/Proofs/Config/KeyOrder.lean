import RepoManifest.Proofs.Config.Outcome
import RepoManifest.Proofs.Resource.Reordered
import RepoManifest.Proofs.Settings.Spelling

/-!
# The order of keys

Documents that differ in nothing but the order of the keys of their mappings are loaded alike: both
give one configuration, or both fail for one reason, with the same lines in any order. The exception
is a provider section that leaves a setting to several spellings of its name: the first one counts.
-/

namespace RepoManifest

open Value (Reordered)

/-- Two results of loading that are one configuration, or failures of one kind with the same lines
in any order. -/
inductive SameResult : Except LoadFailure Config → Except LoadFailure Config → Prop where
  | loaded (c : Config) : SameResult (.ok c) (.ok c)
  | refused {f g : ConfigFailure} (h : f.errors.Perm g.errors) :
      SameResult (.error (.config f)) (.error (.config g))
  | failed (f : LoadFailure) : SameResult (.error f) (.error f)

/-- Only a configuration gives the same result as a configuration. -/
theorem SameResult.eq_ok {c : Config} {r : Except LoadFailure Config} (h : SameResult (.ok c) r) :
    r = .ok c := by
  cases h
  rfl

namespace Manifest

open Reading

variable {path : String} {document other : Value} {env : Environment} {file : EnvSource}
  {sections others : List (Value × Value)} {provider provider' : Reading ProviderSettings}

/-! ## Sections -/

/-- Entries are reordered entries of themselves. -/
theorem rel_self (found : Option (List (Value × Value))) :
    Option.Rel (fun es gs ↦ Reordered (.map es) (.map gs)) found found := by
  cases found with
  | none => exact .none
  | some es => exact .some (.same _)

/-- Reordered documents have reordered sections, or none. -/
theorem rel_sections? (h : Reordered document other) :
    Option.Rel (fun ss ts ↦ Reordered (.map ss) (.map ts)) (sections? document)
      (sections? other) := by
  cases h with
  | same => exact rel_self _
  | list | tuple => exact .none
  | map distinct order values => exact .some (.map distinct order values)

/-- Reordered documents have reordered provider sections, or none that can be used. -/
theorem rel_providerEntries? (h : Reordered (.map sections) (.map others)) :
    Option.Rel (fun es gs ↦ Reordered (.map es) (.map gs)) (providerEntries? sections)
      (providerEntries? others) := by
  have hvalue := h.rel_get? "provider"
  unfold providerEntries?
  generalize Value.get? sections "provider" = v at hvalue ⊢
  generalize Value.get? others "provider" = w at hvalue ⊢
  cases hvalue with
  | none => exact rel_self _
  | some hvw =>
    have htruthy := hvw.truthy_eq
    cases hvw with
    | same => exact rel_self _
    | list | tuple =>
      simp only [htruthy]
      exact rel_self _
    | map distinct order values => exact .some (.map distinct order values)

/-- Reordered documents have the same unknown keys. -/
theorem unknownKeys_perm (h : Reordered (.map sections) (.map others)) :
    (unknownKeys sections).Perm (unknownKeys others) :=
  h.keys_perm.filter _

/-- Reordered documents list reordered items, or both do not list any. -/
theorem repositoryItems_reordered (h : Reordered (.map sections) (.map others)) :
    List.Forall₂ Reordered (repositoryItems sections).1 (repositoryItems others).1 ∧
      (repositoryItems sections).2 = (repositoryItems others).2 := by
  have hvalue := h.rel_get? "repositories"
  unfold repositoryItems
  generalize Value.get? sections "repositories" = v at hvalue ⊢
  generalize Value.get? others "repositories" = w at hvalue ⊢
  cases hvalue with
  | none => exact ⟨.nil, rfl⟩
  | some hvw =>
    cases hvw with
    | same => exact ⟨List.forall₂_same.mpr fun _ _ ↦ .same _, rfl⟩
    | list items => exact ⟨items, rfl⟩
    | tuple | map => exact ⟨.nil, rfl⟩

/-! ## Entries -/

/-- Reordered items give the same entries. -/
theorem readable_of_reordered {vs ws : List Value} (h : List.Forall₂ Reordered vs ws) (n : Nat) :
    readable (readEntries n vs) = readable (readEntries n ws) := by
  induction h generalizing n with
  | nil => rfl
  | cons hvw _ ih =>
    have hread := (RepositoryEntry.ignoresOrder_read _ _ hvw).map (·.default)
    have hrest := ih (n + 1)
    simp only [readable] at hrest ⊢
    simp only [readEntries, List.filterMap_cons, hread.toOption_eq, hrest]

/-- Reordered items have the same problems. -/
theorem unreadable_of_reordered {vs ws : List Value} (h : List.Forall₂ Reordered vs ws) (n : Nat) :
    (unreadable (readEntries n vs)).Perm (unreadable (readEntries n ws)) := by
  induction h generalizing n with
  | nil => exact .refl _
  | cons hvw _ ih =>
    have hread := (RepositoryEntry.ignoresOrder_read _ _ hvw).map (·.default)
    exact (hread.issues_perm.map _).append (ih (n + 1))

/-- Reordered documents have the same problems under alike providers. -/
theorem problems_perm (h : Reordered (.map sections) (.map others))
    (hprovider : Alike provider provider') :
    (problems sections provider).Perm (problems others provider') := by
  obtain ⟨hitems, hlist⟩ := repositoryItems_reordered h
  have hentries : readable (entries sections) = readable (entries others) :=
    readable_of_reordered hitems 0
  unfold problems
  rw [hentries, hlist]
  apply List.Perm.append_right
  apply List.Perm.append_right
  apply List.Perm.append
  · apply List.Perm.append_right
    exact ((unknownKeys_perm h).map _).append (hprovider.issues_perm.map _)
  · exact unreadable_of_reordered hitems 0

/-! ## Loading -/

/-- Reordered documents are assembled alike under alike providers. -/
theorem sameResult_assemble (h : Reordered (.map sections) (.map others))
    (hprovider : Alike provider provider') :
    SameResult (assemble path sections provider).result
      (assemble path others provider').result := by
  have hproblems := problems_perm h hprovider
  have hentries : readable (entries sections) = readable (entries others) :=
    readable_of_reordered (repositoryItems_reordered h).1 0
  by_cases hnil : problems sections provider = []
  · have hnil' : problems others provider' = [] := by
      rw [hnil] at hproblems
      exact List.nil_perm.mp hproblems
    cases hprovider with
    | ok p =>
      rw [assemble_of_problems_eq_nil hnil, assemble_of_problems_eq_nil hnil', hentries]
      exact .loaded _
    | error =>
      simp only [assemble, hnil, hnil']
      exact .failed _
  · have hnil' : problems others provider' ≠ [] := by
      intro hothers
      rw [hothers] at hproblems
      exact hnil (List.perm_nil.mp hproblems)
    rw [assemble_of_problems_ne_nil hnil, assemble_of_problems_ne_nil hnil']
    exact .refused (hproblems.map _)

/-- What comes of a document whose sections are at hand: a failure at the first thing that cannot be
used, and otherwise what is assembled. -/
theorem result_load_of_sections {given : List (Value × Value)}
    (hs : sections? document = some sections) (hg : providerEntries? sections = some given) :
    (load path document env file).result =
      if (unknownKeys sections).all Value.hasDisplay then
        match envVariables env file with
        | .error e => .error (.environmentFile e)
        | .ok settings =>
          match ProviderSettings.keywordFault? (given.map (·.1)) with
          | some fault => .error (.providerKeys fault)
          | none => (assemble path sections (ProviderSettings.ofNamed
              (ProviderSettings.wordEntries (resolvedProvider given env settings.1)) env)).result
      else .error .unwritableKey := by
  unfold load
  simp only [hs, hg]
  cases (unknownKeys sections).all Value.hasDisplay with
  | false => rfl
  | true =>
    cases envVariables env file with
    | error e => rfl
    | ok settings =>
      simp only [ProviderSettings.named_eq, keywordFault?_resolvedProvider]
      cases ProviderSettings.keywordFault? (given.map (·.1)) <;> rfl

/-- Whether a document leaves no setting of its provider to several spellings. -/
def SpellsOnce (document : Value) (env : Environment) (file : EnvSource) : Prop :=
  ∀ sections given settings, sections? document = some sections →
    providerEntries? sections = some given → envVariables env file = .ok settings →
    Unambiguous given env settings.1

/-- Reordered documents whose sections are at hand are loaded alike. -/
theorem sameResult_of_sections {es gs : List (Value × Value)}
    (hs : sections? document = some sections) (ht : sections? other = some others)
    (he : providerEntries? sections = some es) (hg : providerEntries? others = some gs)
    (h : Reordered (.map sections) (.map others)) (hgiven : Reordered (.map es) (.map gs))
    (hone : SpellsOnce document env file) :
    SameResult (load path document env file).result (load path other env file).result := by
  rw [result_load_of_sections hs he, result_load_of_sections ht hg, (unknownKeys_perm h).all_eq,
    ProviderSettings.keywordFault?_perm hgiven.keys_perm]
  cases (unknownKeys others).all Value.hasDisplay with
  | false => exact .failed _
  | true =>
    cases hf : envVariables env file with
    | error e => exact .failed _
    | ok settings =>
      cases ProviderSettings.keywordFault? (gs.map (·.1)) with
      | some fault => exact .failed _
      | none =>
        exact sameResult_assemble h (alike_ofNamed hgiven (hone _ _ _ hs he hf))

/-- Documents that differ in nothing but the order of keys are loaded alike, if no setting is left
to several spellings. -/
theorem sameResult_load (path : String) (h : Reordered document other)
    (hone : SpellsOnce document env file) :
    SameResult (load path document env file).result (load path other env file).result := by
  have hsections := rel_sections? h
  generalize hs : sections? document = found at hsections
  generalize ht : sections? other = found' at hsections
  cases hsections with
  | none =>
    simp only [load, hs, ht]
    exact .failed _
  | @some sections others hmap =>
    have hgiven := rel_providerEntries? hmap
    generalize he : providerEntries? sections = given at hgiven
    generalize hg : providerEntries? others = given' at hgiven
    cases hgiven with
    | none =>
      simp only [load, hs, ht, he, hg]
      exact .failed _
    | some hentries => exact sameResult_of_sections hs ht he hg hmap hentries hone

/-- A document with an entry and a team, and an organization above the host. -/
def keysOneWay : Value :=
  .map [
    (.str "provider", .map [(.str "organization", .str "lab"), (.str "domain", .str "a.example")]),
    (.str "repositories", .list [
      .map [(.str "name", .str "core"),
        (.str "teams",
          .list [.map [(.str "name", .str "dev"), (.str "permission", .str "push")]])]])]

/-- The same document with the keys of every mapping the other way around. -/
def keysOtherWay : Value :=
  .map [
    (.str "repositories", .list [
      .map [
        (.str "teams", .list [.map [(.str "permission", .str "push"), (.str "name", .str "dev")]]),
        (.str "name", .str "core")]]),
    (.str "provider", .map [(.str "domain", .str "a.example"), (.str "organization", .str "lab")])]

/-- The two documents are reordered. -/
theorem reordered_keysOneWay : Reordered keysOneWay keysOtherWay := by
  have hteam : Reordered (.map [(.str "name", .str "dev"), (.str "permission", .str "push")])
      (.map [(.str "permission", .str "push"), (.str "name", .str "dev")]) :=
    .map (by decide) (.swap ..) (.cons ⟨_, .same _⟩ (.cons ⟨_, .same _⟩ .nil))
  have hprovider : Reordered
      (.map [(.str "organization", .str "lab"), (.str "domain", .str "a.example")])
      (.map [(.str "domain", .str "a.example"), (.str "organization", .str "lab")]) :=
    .map (by decide) (.swap ..) (.cons ⟨_, .same _⟩ (.cons ⟨_, .same _⟩ .nil))
  refine .map (by decide) (.swap ..) (.cons ⟨_, .list (.cons ?_ .nil)⟩ (.cons ⟨_, hprovider⟩ .nil))
  exact .map (by decide) (.swap ..)
    (.cons ⟨_, .list (.cons hteam .nil)⟩ (.cons ⟨_, .same _⟩ .nil))

/-- The configuration of both documents. -/
def keysEitherWay : Config where
  provider := ⟨"a.example", some "lab"⟩
  repositories := [
    { name := "core", defaultBranch := some "master", visibility := some "private",
      teams := [⟨"dev", some "push"⟩] }]

/-- Both documents give that configuration. -/
theorem sameResult_load_keysOneWay :
    Reordered keysOneWay keysOtherWay ∧ SpellsOnce keysOneWay [] none ∧
    (load "config.yaml" keysOneWay [] none).result = .ok keysEitherWay ∧
    (load "config.yaml" keysOtherWay [] none).result = .ok keysEitherWay := by
  have hone : SpellsOnce keysOneWay [] none := by
    intro sections given settings hs hg _
    obtain rfl := Option.some.inj hs
    simp only [providerEntries?, Value.get?_cons, Value.text?, if_true] at hg
    obtain rfl := Option.some.inj hg
    apply unambiguous_of_onlyNames
    simp [OnlyNames, ProviderSettings.names, Value.text?]
  have hload : (load "config.yaml" keysOneWay [] none).result.toOption = some keysEitherWay := by
    decide +kernel
  have hresult := toOption_eq_some_iff.mp hload
  have hsame := sameResult_load "config.yaml" reordered_keysOneWay hone
  rw [hresult] at hsame
  exact ⟨reordered_keysOneWay, hone, hresult, hsame.eq_ok⟩

/-- Of two other spellings of a setting the first one counts, so here the order of keys shows. -/
example :
    let host (spellings : List (Value × Value)) : Option String :=
      (load "config.yaml" (.map [(.str "provider", .map spellings)]) [] none).result.toOption.map
        (·.provider.domain)
    host [(.str "Domain", .str "a.example"), (.str "DOMAIN", .str "b.example")] =
      some "a.example" ∧
    host [(.str "DOMAIN", .str "b.example"), (.str "Domain", .str "a.example")] =
      some "b.example" := by
  decide +kernel

end Manifest
end RepoManifest
