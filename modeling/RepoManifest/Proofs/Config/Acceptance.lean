import RepoManifest.Proofs.Config.Outcome
import RepoManifest.Proofs.Resource.Filling

/-!
# What an accepted document guarantees

A configuration that was loaded holds one entry for each item of the document, in order. Each entry
is valid, so that checking it finds nothing and filling it changes nothing; and no name occurs
twice. Each field holds what its part of the document declares, and no key of the document is left
over.
-/

namespace RepoManifest
namespace Manifest

open Reading

variable {path : String} {document : Value} {env : Environment} {file : EnvSource} {c : Config}
  {sections : List (Value × Value)}

/-- The items that a document lists: those of its repositories section, none if there is none. -/
def Lists (document : Value) (items : List Value) : Prop :=
  ∃ sections, sections? document = some sections ∧
    Declared sections "repositories" (fun v found ↦ v = .list found) [] items

/-- A document whose repositories section is in order lists its items. -/
theorem lists_repositoryItems (hs : sections? document = some sections)
    (h : (repositoryItems sections).2 = []) : Lists document (repositoryItems sections).1 := by
  refine ⟨sections, hs, ?_⟩
  revert h
  unfold repositoryItems Declared
  cases Value.get? sections "repositories" with
  | none => exact fun _ ↦ rfl
  | some v =>
    cases v with
    | null => exact fun _ ↦ rfl
    | list items => exact fun _ ↦ rfl
    | _ => exact fun h ↦ absurd h (List.cons_ne_nil _ _)

/-! ## Entries of a configuration -/

/-- The repositories of a loaded configuration are the filled items of the document, in order. -/
theorem forall₂_of_load (h : (load path document env file).result = .ok c) :
    ∃ items, Lists document items ∧
      List.Forall₂ (fun v e ↦ ∃ r, RepositoryEntry.read v = .ok r ∧ e = r.default) items
        c.repositories := by
  obtain ⟨sections, hs, hproblems, hc⟩ := exists_sections_of_load h
  obtain ⟨_, _, hlist, hread, _, _⟩ := problems_eq_nil_iff.mp hproblems
  refine ⟨(repositoryItems sections).1, lists_repositoryItems hs hlist, ?_⟩
  rw [hc]
  refine forall₂_readable fun v hv ↦ ?_
  rw [exists_ok_iff (RepositoryEntry.isExplained_read v)]
  exact unreadable_readEntries_eq_nil_iff.mp hread v hv

/-- Every repository of a loaded configuration is valid. -/
theorem valid_of_load (h : (load path document env file).result = .ok c) :
    ∀ e ∈ c.repositories, e.Valid := by
  obtain ⟨sections, _, hproblems, hc⟩ := exists_sections_of_load h
  obtain ⟨_, _, _, _, _, hviolations⟩ := problems_eq_nil_iff.mp hproblems
  intro e he
  rw [hc] at he
  obtain ⟨entry, hmem, rfl⟩ := List.mem_map.mp he
  exact valid_of_violations_eq_nil hviolations entry hmem

/-- No two repositories of a loaded configuration have one name. -/
theorem nodup_names_of_load (h : (load path document env file).result = .ok c) :
    (c.repositories.map (·.name)).Nodup := by
  have hvalid := valid_of_load h
  obtain ⟨sections, _, hproblems, hc⟩ := exists_sections_of_load h
  obtain ⟨_, _, _, _, hduplicates, _⟩ := problems_eq_nil_iff.mp hproblems
  rw [hc] at hvalid ⊢
  rw [List.map_map]
  refine (duplicates_eq_nil_iff fun entry hmem ↦ ?_).mp hduplicates
  exact (hvalid entry.2 (List.mem_map_of_mem hmem)).name

/-- What holds of an accepted entry: it is valid, so checking it finds nothing and filling it
changes nothing, whether it is a resource or an object. -/
structure Accepted (e : RepositoryEntry) : Prop where
  valid : e.Valid
  checked : e.toObject.checkObject RepositoryEntry.objectType.name = .ok ()
  default : e.default = e
  filled : e.toObject.filled = (e.toObject, none)

/-- A valid entry is accepted. -/
theorem accepted_of_valid {e : RepositoryEntry} (h : e.Valid) : Accepted e := by
  obtain ⟨hfindings, hdefault⟩ := RepositoryEntry.valid_iff.mp h
  exact {
    valid := h
    checked := Value.checkObject_eq_ok_iff.mpr hfindings
    default := hdefault
    filled := RepositoryEntry.filled_toObject_of_default hdefault }

/-- A loaded configuration is sound: its repositories are the items of the document one by one, all
of them are accepted, and their names are distinct. -/
theorem sound_of_load (h : (load path document env file).result = .ok c) :
    (∃ items, Lists document items ∧
      List.Forall₂ (fun v e ↦ ∃ r, RepositoryEntry.read v = .ok r ∧ e = r.default) items
        c.repositories) ∧
    (∀ e ∈ c.repositories, Accepted e) ∧
    (c.repositories.map (·.name)).Nodup :=
  ⟨forall₂_of_load h, fun e he ↦ accepted_of_valid (valid_of_load h e he), nodup_names_of_load h⟩

/-- A document with a public repository, a key that may write and a team that may push, and with a
repository that leaves everything open. -/
def twoRepositories : Value :=
  .map [
    (.str "provider", .map [(.str "organization", .str "lab")]),
    (.str "repositories", .list [
      .map [(.str "name", .str "core"), (.str "visibility", .str "public"),
        (.str "deploy_keys", .list [.map [(.str "name", .str "ci"), (.str "key", .str "ssh-rsa A"),
          (.str "read_only", .bool false)]]),
        (.str "teams", .list [.map [(.str "name", .str "dev"), (.str "permission", .str "push")],
          .map [(.str "name", .str "all")]])],
      .map [(.str "name", .str "docs"), (.str "visibility", .null)]])]

/-- The configuration of that document. -/
def twoRepositoriesConfig : Config where
  provider := { organization := some "lab" }
  repositories := [
    { name := "core", defaultBranch := some "master", visibility := some "public",
      deployKeys := [⟨"ci", "ssh-rsa A", some false, "deploykey"⟩],
      teams := [⟨"dev", some "push"⟩, ⟨"all", some "pull"⟩] },
    { name := "docs", defaultBranch := some "master", visibility := some "private" }]

/-- The document is accepted. -/
theorem load_twoRepositories :
    (load "config.yaml" twoRepositories [] none).result = .ok twoRepositoriesConfig := by
  have h : (load "config.yaml" twoRepositories [] none).result.toOption =
      some twoRepositoriesConfig := by decide +kernel
  exact toOption_eq_some_iff.mp h

/-- Its two repositories are accepted and have different names. -/
theorem sound_of_load_twoRepositories :
    (load "config.yaml" twoRepositories [] none).result = .ok twoRepositoriesConfig ∧
    (∃ items, Lists twoRepositories items ∧
      List.Forall₂ (fun v e ↦ ∃ r, RepositoryEntry.read v = .ok r ∧ e = r.default) items
        twoRepositoriesConfig.repositories) ∧
    (∀ e ∈ twoRepositoriesConfig.repositories, Accepted e) ∧
    (twoRepositoriesConfig.repositories.map (·.name)).Nodup :=
  ⟨load_twoRepositories, sound_of_load load_twoRepositories⟩

/-! ## Fields of a configuration -/

/-- Without unknown keys every key of a document names a section. -/
theorem onlyNames_of_unknownKeys_eq_nil (h : unknownKeys sections = []) :
    OnlyNames Config.sections sections := by
  intro entry hmem
  have hkey : entry.1 ∉ unknownKeys sections := by
    rw [h]
    exact List.not_mem_nil
  simp only [unknownKeys, List.mem_filter, not_and, Bool.not_eq_true', Bool.not_eq_false,
    List.any_eq_true] at hkey
  obtain ⟨name, hname, heq⟩ := hkey (List.mem_map_of_mem hmem)
  exact ⟨name, hname, Value.equal_str_iff.mp heq⟩

/-- A loaded configuration holds what the document declares and nothing else: every key of the
document names a section, and each repository is declared by its item, in order. -/
theorem declared_of_load (h : (load path document env file).result = .ok c) :
    ∃ sections items, sections? document = some sections ∧ OnlyNames Config.sections sections ∧
      Lists document items ∧
      List.Forall₂ RepositoryEntry.DeclaredBy items c.repositories := by
  obtain ⟨sections, hs, hproblems, _⟩ := exists_sections_of_load h
  obtain ⟨items, hlists, hitems⟩ := forall₂_of_load h
  refine ⟨sections, items, hs, ?_, hlists, hitems.imp ?_⟩
  · exact onlyNames_of_unknownKeys_eq_nil (problems_eq_nil_iff.mp hproblems).1
  · rintro v e ⟨r, hr, rfl⟩
    exact RepositoryEntry.declaredBy_of_read hr

/-- The two repositories are declared by their items. -/
theorem declared_of_load_twoRepositories :
    (load "config.yaml" twoRepositories [] none).result = .ok twoRepositoriesConfig ∧
    ∃ sections items, sections? twoRepositories = some sections ∧
      OnlyNames Config.sections sections ∧ Lists twoRepositories items ∧
      List.Forall₂ RepositoryEntry.DeclaredBy items twoRepositoriesConfig.repositories :=
  ⟨load_twoRepositories, declared_of_load load_twoRepositories⟩

end Manifest
end RepoManifest
