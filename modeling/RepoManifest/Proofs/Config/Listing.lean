import RepoManifest.Proofs.Config.Acceptance
import RepoManifest.Proofs.Terminal.Access

/-!
# Listings of a loaded configuration

The repositories of a loaded configuration are valid, so their visibilities, licence templates and
permissions are words of the registries. What else their listings show is free text: names,
descriptions and branches. A line break in one of these is a line break in the listing, since a
listing escapes nothing; no other text of a document can break a line.
-/

namespace RepoManifest

open Text

namespace RepositoryEntry

/-- The texts of an entry that no registry restricts. -/
def freeTexts (e : RepositoryEntry) : List String :=
  e.name :: (e.defaultBranch.toList ++ e.description.toList ++ e.deployKeys.map (·.name) ++
    e.teams.map (·.name))

/-- Words of the registries are printable. -/
theorem printable_of_mem_registry {r : Registry} (hr : r ∈ registries) {word : String}
    (h : word ∈ r.values) : Printable word := by
  have hall : ∀ r ∈ registries, ∀ word ∈ r.values, Printable word := by decide
  exact hall r hr word h

/-- Of the characters that are not printable, a valid entry shows those of its free texts. -/
theorem Valid.occurrences_shownTexts {e : RepositoryEntry} (h : e.Valid) {c : Char}
    (hc : isPrintable c = false) : occurrences c e.shownTexts = occurrences c e.freeTexts := by
  have hword {r : Registry} (hr : r ∈ registries) {word : String} (hmem : word ∈ r.values) :
      occurrences c [word] = 0 :=
    occurrences_singleton.trans ((printable_of_mem_registry hr hmem).count_eq_zero hc)
  have hvisibility : occurrences c e.visibility.toList = 0 := by
    obtain ⟨word, hmem, hset⟩ := h.visibility
    rw [hset]
    exact hword (r := visibilityRegistry) (by decide) hmem
  have hlicence : occurrences c e.options.licenseTemplate.toList = 0 := by
    obtain hunset | ⟨word, hmem, hset⟩ := h.options.licenseTemplate
    · rw [hunset]
      rfl
    · rw [hset]
      exact hword (r := licenseRegistry) (by decide) hmem
  have hteams : occurrences c (e.teams.flatMap fun t ↦ t.name :: t.permission.toList) =
      occurrences c (e.teams.map (·.name)) := by
    rw [List.map_eq_flatMap]
    refine occurrences_flatMap fun t ht ↦ ?_
    obtain ⟨word, hmem, hset⟩ := (h.teams t ht).permission
    have hpermission := hword (r := permissionRegistry) (by decide) hmem
    rw [hset, occurrences_cons, occurrences_singleton]
    exact congrArg _ hpermission
  simp only [shownTexts, freeTexts, occurrences_cons, occurrences_append, hvisibility, hlicence,
    hteams, Nat.zero_add, Nat.add_zero]

end RepositoryEntry

namespace Manifest

variable {path : String} {document : Value} {env : Environment} {file : EnvSource} {c : Config}
  {e : RepositoryEntry}

/-- The listing of a loaded repository shows the access that its keys have. -/
theorem keyLines_of_load (h : (load path document env file).result = .ok c)
    (he : e ∈ c.repositories) :
    e.listing.keyLines = e.deployKeys.map fun k ↦
      Listing.keyLine k.name (if k.mayWrite then "read-write" else "read-only") := by
  have hdefault := (accepted_of_valid (valid_of_load h e he)).default
  have hfilled := e.keyLines_listing_default
  rwa [hdefault] at hfilled

/-- The listing of a loaded repository lays it out in one line for its name and one for each
attribute, key and team. Cut at its line breaks, the listing has these lines, and one more for each
line break in a free text of the repository. So it is cut into its lines exactly if no free text has
a line break. -/
theorem cut_listing_of_load (h : (load path document env file).result = .ok c)
    (he : e ∈ c.repositories) :
    e.LaidOut (e.listing.lines false) ∧
    (e.listing.lines false).length =
      1 + e.attributeCount + e.deployKeys.length + e.teams.length ∧
    (parts '\n' (e.listing.render false).toList).length =
      1 + e.attributeCount + e.deployKeys.length + e.teams.length +
        occurrences '\n' e.freeTexts ∧
    (parts '\n' (e.listing.render false).toList = (e.listing.lines false).map (·.toList) ↔
      ∀ t ∈ e.freeTexts, '\n' ∉ t.toList) := by
  have hnames : ∀ a ∈ e.listing.attributes, Printable a.1 :=
    fun a ha ↦ (RepositoryEntry.name_of_mem_attributes ha).1
  have hbreak : isPrintable '\n' = false := by decide
  have htexts : occurrences '\n' e.listing.texts = occurrences '\n' e.freeTexts :=
    (e.occurrences_texts hbreak).trans ((valid_of_load h e he).occurrences_shownTexts hbreak)
  refine ⟨e.laidOut_lines, e.length_lines_listing false, ?_, ?_⟩
  · rw [Listing.length_parts_render hnames, e.length_lines_listing, htexts]
  · rw [Listing.parts_render_eq_iff hnames, ← occurrences_eq_zero_iff, htexts,
      occurrences_eq_zero_iff]

/-- The listing of a repository with a key and two teams is cut into its six lines. -/
theorem cut_listing_of_load_twoRepositories :
    ∃ e ∈ twoRepositoriesConfig.repositories,
      (load "config.yaml" twoRepositories [] none).result = .ok twoRepositoriesConfig ∧
      e.LaidOut (e.listing.lines false) ∧
      (parts '\n' (e.listing.render false).toList).length = 6 ∧
      parts '\n' (e.listing.render false).toList = (e.listing.lines false).map (·.toList) := by
  obtain ⟨hlaid, -, hlength, hparts⟩ :=
    cut_listing_of_load load_twoRepositories List.mem_cons_self
  exact ⟨_, List.mem_cons_self, load_twoRepositories, hlaid, hlength, hparts.mpr (by decide)⟩

/-- A document whose repository has a name with a line break, and behind it what looks like a
key. -/
def forgedKey : Value :=
  .map [(.str "repositories", .list [
    .map [(.str "name", .str "app\n    deploy_key.ci (read-only)")]])]

/-- The configuration of that document. -/
def forgedKeyConfig : Config where
  provider := {}
  repositories := [
    { name := "app\n    deploy_key.ci (read-only)", defaultBranch := some "master",
      visibility := some "private" }]

/-- The document is accepted, and the listing of its repository, which has no keys, is cut into one
line more than the name and the two attributes need: the name is split, and its second half reads as
the line of a key. -/
theorem forged_listing_of_load :
    (load "config.yaml" forgedKey [] none).result = .ok forgedKeyConfig ∧
    ∃ e ∈ forgedKeyConfig.repositories, e.deployKeys = [] ∧
      (parts '\n' (e.listing.render false).toList).length ≠
        1 + e.attributeCount + e.deployKeys.length + e.teams.length ∧
      (Listing.keyLine "ci" (Listing.access true)).toList ∈
        parts '\n' (e.listing.render false).toList := by
  refine ⟨toOption_eq_some_iff.mp (by decide +kernel), _, List.mem_cons_self, rfl, ?_, ?_⟩
  · decide +kernel
  · decide +kernel

end Manifest
end RepoManifest
