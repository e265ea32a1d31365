import Mathlib.Data.List.Nodup
import RepoManifest.Proofs.Config.Acceptance
import RepoManifest.Proofs.Reference.Parts

/-!
# References of a configuration

Every repository of a configuration has one reference, under the segments of the provider's
organization. References fail only for a configuration with repositories: without a segment they
fail for all alike, and otherwise if the domain or a name is empty. A configuration that was loaded
has distinct names, and so its references have distinct clone addresses.
-/

namespace RepoManifest

/-! ## Organizations -/

namespace ProviderSettings

/-- The segments of the organization: its parts between slashes that are not empty. -/
def segments (p : ProviderSettings) : List String :=
  match p.organization with
  | none => []
  | some organization => (Text.nonEmptyParts '/' organization.toList).map String.ofList

/-- Why no repository has a reference under an organization without segments. -/
def organizationFault (p : ProviderSettings) : RefFault :=
  match p.organization with
  | none => .noOrganization
  | some organization =>
    if organization = "" then .noOrganization else .emptyOrganization organization

/-- Under an organization without segments there is no reference, whatever the name. -/
theorem ref_of_segments_nil {p : ProviderSettings} (h : p.segments = []) (name : Value) :
    p.ref name = .error p.organizationFault := by
  unfold segments at h
  unfold ref organizationFault
  cases horganization : p.organization with
  | none => rfl
  | some organization =>
    rw [horganization] at h
    dsimp only at h
    by_cases hempty : organization = ""
    · simp [hempty]
    · have hsome : organization.isEmpty = false := by simpa using hempty
      simp only [Option.getD_some, hsome, Bool.false_eq_true, if_false, hempty, h]

/-- Under an organization with segments a reference is made of the domain, the segments and the
name. -/
theorem ref_of_segments_cons {p : ProviderSettings} {first : String} {subs : List String}
    (h : p.segments = first :: subs) (name : Value) :
    p.ref name = (RepositoryRef.make p.domain first subs name).mapError .parts := by
  unfold segments at h
  unfold ref
  cases horganization : p.organization with
  | none =>
    rw [horganization] at h
    cases h
  | some organization =>
    rw [horganization] at h
    dsimp only at h
    have hsome : organization.isEmpty = false := by
      rw [Bool.eq_false_iff]
      intro hempty
      rw [String.isEmpty_iff.mp hempty] at h
      cases h
    simp only [Option.getD_some, hsome, Bool.false_eq_true, if_false, h]

/-- No segment is empty. -/
theorem ne_empty_of_mem_segments {p : ProviderSettings} {s : String} (h : s ∈ p.segments) :
    s ≠ "" := by
  unfold segments at h
  split at h
  · cases h
  · obtain ⟨part, hpart, rfl⟩ := List.mem_map.mp h
    intro hempty
    have hlist := congrArg String.toList hempty
    rw [String.toList_ofList] at hlist
    exact (Text.of_mem_nonEmptyParts hpart).1 hlist

/-- With a domain and a name that are not empty there is a reference. -/
theorem ref_of_ne {p : ProviderSettings} {first : String} {subs : List String}
    (h : p.segments = first :: subs) (hdomain : p.domain ≠ "") {name : String} (hname : name ≠ "") :
    p.ref (.str name) = .ok ⟨⟨p.domain, first, subs⟩, name⟩ := by
  have hfirst : first ≠ "" := ne_empty_of_mem_segments (h ▸ List.mem_cons_self ..)
  rw [ref_of_segments_cons h, RepositoryRef.make_of_ne subs hdomain hfirst hname]
  rfl

end ProviderSettings

/-! ## Clone addresses -/

namespace RepositoryRef

/-- The clone addresses of an organization's repositories differ in the name only. -/
theorem exists_cloneUrl_eq (o : OrganizationRef) (transport : Transport) :
    ∃ front ending, ∀ name : String,
      (mk o name).cloneUrl transport = front ++ name ++ ending := by
  rcases hsplit : splitDomain o.domain with ⟨scheme, host⟩
  cases transport with
  | https =>
    refine ⟨scheme ++ "://" ++ host ++ "/" ++ o.path ++ "/", ".git", fun name ↦ ?_⟩
    simp only [cloneUrl, hsplit, path, String.append_assoc]
  | git =>
    refine ⟨"git@" ++ host ++ ":" ++ o.path ++ "/", ".git", fun name ↦ ?_⟩
    simp only [cloneUrl, hsplit, path, String.append_assoc]
  | ssh =>
    refine ⟨"ssh://git@" ++ host ++ "/" ++ o.path ++ "/", "", fun name ↦ ?_⟩
    simp only [cloneUrl, hsplit, path, String.append_assoc, String.append_empty]

/-- Repositories of one organization with one clone address have one name. -/
theorem name_eq_of_cloneUrl_eq {o : OrganizationRef} {transport : Transport} {a b : String}
    (h : (mk o a).cloneUrl transport = (mk o b).cloneUrl transport) : a = b := by
  obtain ⟨front, ending, heq⟩ := exists_cloneUrl_eq o transport
  rw [heq, heq, String.append_left_inj, String.append_right_inj] at h
  exact h

end RepositoryRef

/-! ## References -/

namespace Config

variable {c : Config}

/-- The domain or the name of a repository is empty. -/
def LacksParts (c : Config) : Prop :=
  c.provider.domain = "" ∨ ∃ e ∈ c.repositories, e.name = ""

/-- The configuration with another organization. -/
def withOrganization (c : Config) (organization : Option String) : Config :=
  { c with provider := { c.provider with organization := organization } }

/-- Without segments the first repository already has no reference. -/
theorem refs_of_segments_nil (h : c.provider.segments = []) (hne : c.repositories ≠ []) :
    c.refs = .error c.provider.organizationFault := by
  obtain ⟨e, rest, he⟩ := List.exists_cons_of_ne_nil hne
  rw [refs, he, List.mapM_cons, ProviderSettings.ref_of_segments_nil h]
  rfl

/-- Repositories without empty names have references, if the domain is not empty. -/
theorem mapM_ref_of_ne {p : ProviderSettings} {first : String} {subs : List String}
    (h : p.segments = first :: subs) (hdomain : p.domain ≠ "")
    {repositories : List RepositoryEntry} (hnames : ∀ e ∈ repositories, e.name ≠ "") :
    (repositories.mapM fun e ↦ p.ref (.str e.name)) =
      .ok (repositories.map fun e ↦ ⟨⟨p.domain, first, subs⟩, e.name⟩) := by
  induction repositories with
  | nil => rfl
  | cons e rest ih =>
    have hname := hnames e (List.mem_cons_self ..)
    rw [List.mapM_cons, ProviderSettings.ref_of_ne h hdomain hname,
      ih fun d hd ↦ hnames d (List.mem_cons_of_mem _ hd)]
    rfl

/-- The references under an organization with segments, if no part is empty. -/
theorem refs_of_segments_cons {first : String} {subs : List String}
    (h : c.provider.segments = first :: subs) (hparts : ¬ c.LacksParts) :
    c.refs = .ok (c.repositories.map fun e ↦ ⟨⟨c.provider.domain, first, subs⟩, e.name⟩) := by
  obtain ⟨hdomain, hnames⟩ := not_or.mp hparts
  exact mapM_ref_of_ne h hdomain fun e he hempty ↦ hnames ⟨e, he, hempty⟩

/-- Parts of which one is empty make no reference. -/
theorem exists_issues_of_lacking {p : ProviderSettings} {first : String} {subs : List String}
    {name : String} (h : p.segments = first :: subs) (hlacking : p.domain = "" ∨ name = "") :
    ∃ issues, p.ref (.str name) = .error (.parts issues) := by
  rw [ProviderSettings.ref_of_segments_cons h]
  cases hmake : RepositoryRef.make p.domain first subs (.str name) with
  | error issues => exact ⟨issues, rfl⟩
  | ok r =>
    obtain ⟨⟨hdomain, _, hname⟩, _⟩ := RepositoryRef.make_eq_ok_iff.mp hmake
    exact absurd hlacking (not_or.mpr ⟨hdomain, hname⟩)

/-- Repositories of which one lacks a part have no references. -/
theorem exists_issues_mapM_ref {p : ProviderSettings} {first : String} {subs : List String}
    (h : p.segments = first :: subs) {repositories : List RepositoryEntry}
    (hlacking : ∃ e ∈ repositories, p.domain = "" ∨ e.name = "") :
    ∃ issues, (repositories.mapM fun e ↦ p.ref (.str e.name)) = .error (.parts issues) := by
  induction repositories with
  | nil =>
    obtain ⟨e, he, _⟩ := hlacking
    cases he
  | cons e rest ih =>
    rw [List.mapM_cons]
    by_cases hfirst : p.domain = "" ∨ e.name = ""
    · obtain ⟨issues, hissues⟩ := exists_issues_of_lacking h hfirst
      exact ⟨issues, by rw [hissues]; rfl⟩
    · -- the first repository has a reference, so a later one lacks a part
      obtain ⟨d, hd, hlacks⟩ := hlacking
      have hrest : d ∈ rest := by
        rcases List.mem_cons.mp hd with rfl | hd
        · exact absurd hlacks hfirst
        · exact hd
      obtain ⟨issues, hissues⟩ := ih ⟨d, hrest, hlacks⟩
      obtain ⟨hdomain, hname⟩ := not_or.mp hfirst
      refine ⟨issues, ?_⟩
      rw [ProviderSettings.ref_of_ne h hdomain hname, hissues]
      rfl

/-- The references fail under an organization with segments, if some part is empty. -/
theorem refs_of_lacksParts {first : String} {subs : List String}
    (h : c.provider.segments = first :: subs) (hne : c.repositories ≠ []) (hparts : c.LacksParts) :
    ∃ issues, c.refs = .error (.parts issues) := by
  obtain ⟨e, rest, he⟩ := List.exists_cons_of_ne_nil hne
  refine exists_issues_mapM_ref h ?_
  rcases hparts with hdomain | ⟨d, hd, hname⟩
  · exact ⟨e, he ▸ List.mem_cons_self .., .inl hdomain⟩
  · exact ⟨d, hd, .inr hname⟩

/-- What the references of a configuration come to: nothing without repositories, a fault of the
organization, a fault of the parts, or one reference for each repository. -/
theorem refs_cases (c : Config) :
    (c.repositories = [] ∧ c.refs = .ok []) ∨
    (c.repositories ≠ [] ∧ c.provider.segments = [] ∧
      c.refs = .error c.provider.organizationFault) ∨
    (c.repositories ≠ [] ∧ c.provider.segments ≠ [] ∧ c.LacksParts ∧
      ∃ issues, c.refs = .error (.parts issues)) ∨
    (c.repositories ≠ [] ∧ ¬ c.LacksParts ∧ ∃ first subs, c.provider.segments = first :: subs ∧
      c.refs = .ok (c.repositories.map fun e ↦ ⟨⟨c.provider.domain, first, subs⟩, e.name⟩)) := by
  by_cases hne : c.repositories = []
  · refine .inl ⟨hne, ?_⟩
    rw [refs, hne]
    rfl
  · refine .inr ?_
    cases hsegments : c.provider.segments with
    | nil => exact .inl ⟨hne, rfl, refs_of_segments_nil hsegments hne⟩
    | cons first subs =>
      by_cases hparts : c.LacksParts
      · exact .inr (.inl ⟨hne, List.cons_ne_nil _ _, hparts,
          refs_of_lacksParts hsegments hne hparts⟩)
      · exact .inr (.inr ⟨hne, hparts, first, subs, rfl, refs_of_segments_cons hsegments hparts⟩)

/-- A fault of the organization is no fault of the parts. -/
theorem organizationFault_ne_parts (p : ProviderSettings) (issues : List Issue) :
    p.organizationFault ≠ .parts issues := by
  unfold ProviderSettings.organizationFault
  split
  · simp
  · split <;> simp

/-- There are references exactly if there are no repositories, or there are segments and no part is
empty. -/
theorem refs_eq_ok_iff {refs : List RepositoryRef} :
    c.refs = .ok refs ↔
      (c.repositories = [] ∧ refs = []) ∨
      (c.repositories ≠ [] ∧ ¬ c.LacksParts ∧ ∃ first subs, c.provider.segments = first :: subs ∧
        refs = c.repositories.map fun e ↦ ⟨⟨c.provider.domain, first, subs⟩, e.name⟩) := by
  rcases refs_cases c with ⟨hnil, hrefs⟩ | ⟨hne, hsegments, hrefs⟩ |
      ⟨hne, hsegments, hparts, issues, hrefs⟩ | ⟨hne, hparts, first, subs, hsegments, hrefs⟩
  · simp [hrefs, hnil, eq_comm]
  · simp [hrefs, hne, hsegments]
  · simp [hrefs, hne, hparts]
  · simp [hrefs, hne, hparts, hsegments, eq_comm]

/-- References fail exactly if there is a repository and no segment, or a part is empty. -/
theorem refs_eq_error_iff :
    (∃ fault, c.refs = .error fault) ↔
      c.repositories ≠ [] ∧ (c.provider.segments = [] ∨ c.LacksParts) := by
  rcases refs_cases c with ⟨hnil, hrefs⟩ | ⟨hne, hsegments, hrefs⟩ |
      ⟨hne, hsegments, hparts, issues, hrefs⟩ | ⟨hne, hparts, first, subs, hsegments, hrefs⟩
  · simp [hrefs, hnil]
  · simp [hrefs, hne, hsegments]
  · simp [hrefs, hne, hparts]
  · simp [hrefs, hparts, hsegments]

/-- There are references exactly if there is no repository, or a segment and no empty part. -/
theorem exists_refs_iff :
    (∃ refs, c.refs = .ok refs) ↔
      c.repositories = [] ∨ c.provider.segments ≠ [] ∧ ¬ c.LacksParts := by
  rcases refs_cases c with ⟨hnil, hrefs⟩ | ⟨hne, hsegments, hrefs⟩ |
      ⟨hne, hsegments, hparts, issues, hrefs⟩ | ⟨hne, hparts, first, subs, hsegments, hrefs⟩
  · simp [hrefs, hnil]
  · simp [hrefs, hne, hsegments]
  · simp [hrefs, hne, hparts]
  · simp [hrefs, hparts, hsegments]

/-- The organization is at fault exactly if it has no segment, whatever else is missing. -/
theorem refs_eq_organizationFault_iff :
    c.refs = .error c.provider.organizationFault ↔
      c.repositories ≠ [] ∧ c.provider.segments = [] := by
  rcases refs_cases c with ⟨hnil, hrefs⟩ | ⟨hne, hsegments, hrefs⟩ |
      ⟨hne, hsegments, hparts, issues, hrefs⟩ | ⟨hne, hparts, first, subs, hsegments, hrefs⟩
  · simp [hrefs, hnil]
  · simp [hrefs, hne, hsegments]
  · simp [hrefs, hsegments, (organizationFault_ne_parts c.provider issues).symm]
  · simp [hrefs, hsegments]

/-- The parts are at fault exactly if one of them is empty under an organization with segments. -/
theorem refs_eq_parts_iff :
    (∃ issues, c.refs = .error (.parts issues)) ↔
      c.repositories ≠ [] ∧ c.provider.segments ≠ [] ∧ c.LacksParts := by
  rcases refs_cases c with ⟨hnil, hrefs⟩ | ⟨hne, hsegments, hrefs⟩ |
      ⟨hne, hsegments, hparts, issues, hrefs⟩ | ⟨hne, hparts, first, subs, hsegments, hrefs⟩
  · simp [hrefs, hnil]
  · simp [hrefs, hsegments, organizationFault_ne_parts]
  · simp [hrefs, hne, hsegments, hparts]
  · simp [hrefs, hparts]

/-- A reference of a repository: under the segments of the provider's organization, with the
repository's name. -/
structure References (p : ProviderSettings) (e : RepositoryEntry) (r : RepositoryRef) : Prop where
  domain : r.domain = p.domain
  name : r.name = e.name
  path : r.path = "/".intercalate p.segments ++ "/" ++ e.name

/-- There is one reference for each repository, in order. -/
theorem forall₂_of_refs {refs : List RepositoryRef} (h : c.refs = .ok refs) :
    List.Forall₂ (References c.provider) c.repositories refs := by
  rcases refs_eq_ok_iff.mp h with ⟨hnil, rfl⟩ | ⟨_, _, first, subs, hsegments, rfl⟩
  · rw [hnil]
    exact .nil
  · rw [List.forall₂_map_right_iff, List.forall₂_same]
    intro e _
    exact ⟨rfl, rfl, by rw [hsegments]; rfl⟩

/-- The references depend on the organization through its segments only. -/
theorem refs_withOrganization {a b : String} {refs : List RepositoryRef}
    (h : Text.nonEmptyParts '/' a.toList = Text.nonEmptyParts '/' b.toList) :
    (c.withOrganization (some a)).refs = .ok refs ↔
      (c.withOrganization (some b)).refs = .ok refs := by
  have hsegments : (c.withOrganization (some a)).provider.segments =
      (c.withOrganization (some b)).provider.segments := by
    simp only [withOrganization, ProviderSettings.segments, h]
  rw [refs_eq_ok_iff, refs_eq_ok_iff, hsegments]
  rfl

/-- Repositories with distinct names have references with distinct clone addresses. -/
theorem nodup_cloneUrls {refs : List RepositoryRef} (hnames : (c.repositories.map (·.name)).Nodup)
    (h : c.refs = .ok refs) (transport : Transport) :
    (refs.map (·.cloneUrl transport)).Nodup := by
  rcases refs_eq_ok_iff.mp h with ⟨_, rfl⟩ | ⟨_, _, first, subs, _, rfl⟩
  · exact List.nodup_nil
  · have hurls : (c.repositories.map fun e ↦
        RepositoryRef.mk ⟨c.provider.domain, first, subs⟩ e.name).map (·.cloneUrl transport) =
        (c.repositories.map (·.name)).map fun name ↦
          (RepositoryRef.mk ⟨c.provider.domain, first, subs⟩ name).cloneUrl transport := by
      simp only [List.map_map, Function.comp_def]
    rw [hurls]
    exact List.Nodup.map (fun a b heq ↦ RepositoryRef.name_eq_of_cloneUrl_eq heq) hnames

/-- The references of a configuration. They fail exactly if there is a repository, and the
organization has no segment or a part is empty; the organization is looked at first. Otherwise there
is one for each repository, in order, under the segments of the organization, so that organizations
with the same segments have the same references. The clone addresses in a loaded configuration are
distinct for each transport. -/
theorem refs_settled (c : Config) :
    ((∃ fault, c.refs = .error fault) ↔
      c.repositories ≠ [] ∧ (c.provider.segments = [] ∨ c.LacksParts)) ∧
    (c.refs = .error c.provider.organizationFault ↔
      c.repositories ≠ [] ∧ c.provider.segments = []) ∧
    ((∃ issues, c.refs = .error (.parts issues)) ↔
      c.repositories ≠ [] ∧ c.provider.segments ≠ [] ∧ c.LacksParts) ∧
    (¬ (c.repositories ≠ [] ∧ (c.provider.segments = [] ∨ c.LacksParts)) →
      ∃ refs, c.refs = .ok refs ∧ List.Forall₂ (References c.provider) c.repositories refs) ∧
    (∀ a b : String, Text.nonEmptyParts '/' a.toList = Text.nonEmptyParts '/' b.toList →
      ∀ refs, (c.withOrganization (some a)).refs = .ok refs ↔
        (c.withOrganization (some b)).refs = .ok refs) ∧
    (∀ path document env file refs, (Manifest.load path document env file).result = .ok c →
      c.refs = .ok refs → ∀ transport, (refs.map (·.cloneUrl transport)).Nodup) := by
  refine ⟨refs_eq_error_iff, refs_eq_organizationFault_iff, refs_eq_parts_iff, fun hnot ↦ ?_,
    fun a b h refs ↦ refs_withOrganization h, fun path document env file refs hload hrefs ↦
      nodup_cloneUrls (Manifest.nodup_names_of_load hload) hrefs⟩
  rw [← refs_eq_error_iff] at hnot
  cases hrefs : c.refs with
  | error fault => exact absurd ⟨fault, hrefs⟩ hnot
  | ok refs => exact ⟨refs, rfl, forall₂_of_refs hrefs⟩

/-- The references of a loaded configuration with two repositories exist, and have different clone
addresses. Another spelling of the organization gives the same references, and one of slashes only
gives none. -/
theorem refs_settled_twoRepositories :
    (Manifest.load "config.yaml" Manifest.twoRepositories [] none).result =
      .ok Manifest.twoRepositoriesConfig ∧
    (∃ refs, Manifest.twoRepositoriesConfig.refs = .ok refs ∧
      (Manifest.twoRepositoriesConfig.withOrganization (some "/lab//")).refs = .ok refs ∧
      ∀ transport, (refs.map (·.cloneUrl transport)).Nodup) ∧
    (Manifest.twoRepositoriesConfig.withOrganization (some "//")).refs =
      .error (.emptyOrganization "//") := by
  have hload := Manifest.load_twoRepositories
  obtain ⟨_, _, _, hrefs, hspelling, hdistinct⟩ := refs_settled Manifest.twoRepositoriesConfig
  have hparts : ¬ (Manifest.twoRepositoriesConfig.repositories ≠ [] ∧
      (Manifest.twoRepositoriesConfig.provider.segments = [] ∨
        Manifest.twoRepositoriesConfig.LacksParts)) := by
    simp [Manifest.twoRepositoriesConfig, LacksParts, ProviderSettings.segments,
      Text.nonEmptyParts, Text.parts]
  obtain ⟨refs, heq, _⟩ := hrefs hparts
  refine ⟨hload, ⟨refs, heq, ?_, hdistinct _ _ _ _ refs hload heq⟩, ?_⟩
  · exact (hspelling "lab" "/lab//" (by decide +kernel) refs).mp heq
  · exact (refs_settled _).2.1.mpr ⟨List.cons_ne_nil _ _, by decide +kernel⟩

end Config
end RepoManifest
