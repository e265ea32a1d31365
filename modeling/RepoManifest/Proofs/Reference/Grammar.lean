import Mathlib.Data.List.Basic
import Mathlib.Logic.Relation
import RepoManifest.Proofs.Reference.Reparse

/-!
# Which addresses name a repository

An address gives a reference exactly if it is a web address with an authority and at least two
segments, the last of which is more than the ending of a clone address. Any other address is refused
for the first of these that fails. A reference depends on the scheme, the authority and the segments
alone, so slashes may be repeated, and may stand in front and behind.
-/

namespace RepoManifest

open Text

/-! ## Slashes -/

/-- One more slash in a path: in front, behind, or beside another one. -/
inductive Url.AddsSlash : List Char → List Char → Prop
  | front (path : List Char) : AddsSlash path ('/' :: path)
  | back (path : List Char) : AddsSlash path (path ++ ['/'])
  | beside (before after : List Char) :
    AddsSlash (before ++ '/' :: after) (before ++ '/' :: '/' :: after)

/-- One more slash changes no segment. -/
theorem Url.AddsSlash.nonEmptyParts_eq {p q : List Char} (h : AddsSlash p q) :
    nonEmptyParts '/' p = nonEmptyParts '/' q := by
  cases h with
  | front path => exact (nonEmptyParts_cons_self '/' p).symm
  | back path =>
    rw [nonEmptyParts_append_cons]
    exact (List.append_nil _).symm
  | beside before after =>
    rw [nonEmptyParts_append_cons, nonEmptyParts_append_cons, nonEmptyParts_cons_self]

/-- Paths that differ only in such slashes have the same segments. -/
theorem Url.segments_eq_of_eqvGen {u v : Url}
    (h : Relation.EqvGen AddsSlash u.path.toList v.path.toList) : u.segments = v.segments := by
  have hparts : ∀ {p q}, Relation.EqvGen AddsSlash p q →
      nonEmptyParts '/' p = nonEmptyParts '/' q := by
    intro p q hpq
    induction hpq with
    | rel p q hslash => exact hslash.nonEmptyParts_eq
    | refl p => rfl
    | symm p q _ ih => exact ih.symm
    | trans p q r _ _ ihpq ihqr => exact ihpq.trans ihqr
  exact hparts h

/-! ## Endings -/

/-- Nothing is left of a text without an ending exactly if it is empty or the ending itself. -/
theorem Text.dropEnding_eq_nil_iff {ending text : List Char} :
    dropEnding ending text = [] ↔ text = [] ∨ text = ending := by
  constructor
  · intro h
    by_cases hsuffix : ending <:+ text
    · obtain ⟨front, rfl⟩ := hsuffix
      rw [dropEnding_append] at h
      rw [h]
      exact .inr (List.nil_append ending)
    · rw [dropEnding, if_neg (by rwa [List.isSuffixOf_iff_suffix])] at h
      exact .inl h
  · rintro (rfl | rfl)
    · rw [dropEnding]
      split <;> simp
    · simpa using dropEnding_append text []

/-- A text is what is left of it, perhaps with the ending behind. -/
theorem Text.eq_dropEnding_or (ending text : List Char) :
    (¬ ending <:+ text ∧ dropEnding ending text = text) ∨
      (ending <:+ text ∧ dropEnding ending text ++ ending = text) := by
  by_cases hsuffix : ending <:+ text
  · obtain ⟨front, rfl⟩ := hsuffix
    rw [dropEnding_append]
    exact .inr ⟨List.suffix_append _ _, rfl⟩
  · rw [dropEnding, if_neg (by rwa [List.isSuffixOf_iff_suffix])]
    exact .inl ⟨hsuffix, rfl⟩

/-! ## Addresses -/

namespace Url

/-- A web address: its scheme is one of the web, and it has an authority. -/
structure OnWeb (u : Url) : Prop where
  scheme : u.scheme = "http" ∨ u.scheme = "https"
  authority : u.authority ≠ ""

/-- The address of a repository: a web address with at least two segments, of which the last is more
than the ending of a clone address. -/
structure NamesRepository (u : Url) : Prop extends OnWeb u where
  two_le : 2 ≤ u.segments.length
  last : u.segments.getLast? ≠ some cloneEnding

/-- Web addresses are those that pass the check for them. -/
theorem onWeb_iff {u : Url} :
    u.OnWeb ↔ ¬ ((u.scheme ≠ "http" ∧ u.scheme ≠ "https") ∨ u.authority = "") := by
  constructor
  · rintro ⟨hscheme, hauthority⟩ (hneither | hempty)
    · exact not_or.mpr hneither hscheme
    · exact hauthority hempty
  · intro h
    rw [not_or] at h
    refine ⟨?_, h.2⟩
    by_contra hneither
    exact h.1 (not_or.mp hneither)

/-- Two segments are an organization and a name, with sub-organizations between. -/
theorem exists_segments_eq {u : Url} (h : 2 ≤ u.segments.length) :
    ∃ organization subs last, u.segments = organization :: (subs ++ [last]) := by
  cases hsegments : u.segments with
  | nil => simp [hsegments] at h
  | cons organization rest =>
    rcases List.eq_nil_or_concat rest with rfl | ⟨subs, last, rfl⟩
    · simp [hsegments] at h
    · exact ⟨organization, subs, last, by rw [List.concat_eq_append]⟩

end Url

namespace RepositoryRef

variable {address : String} {r : RepositoryRef} {u : Url} {last : List Char}

/-! ## Accepted addresses -/

/-- An address from which a reference is read is that of a repository. -/
theorem ParsedFrom.namesRepository (h : ParsedFrom address r u last) : u.NamesRepository where
  scheme := h.scheme
  authority := h.authority
  two_le := by
    rw [h.segments_eq]
    simp
  last := by
    have hlast : u.segments.getLast? = some last := by
      rw [h.segments_eq, ← List.cons_append, List.getLast?_concat]
    rw [hlast]
    intro heq
    apply h.name_ne
    rw [← String.toList_inj, h.name_eq]
    exact dropEnding_eq_nil_iff.mpr (.inr (Option.some.inj heq))

/-- The address of a repository gives a reference. -/
theorem exists_parsedFrom (hsplit : Url.split address = .ok u) (h : u.NamesRepository) :
    ∃ r last, ParsedFrom address r u last := by
  obtain ⟨organization, subs, last, hsegments⟩ := Url.exists_segments_eq h.two_le
  have hlast : last ≠ cloneEnding := by
    intro heq
    apply h.last
    rw [hsegments, ← List.cons_append, List.getLast?_concat, heq]
  have hmem : last ∈ u.segments := by
    rw [hsegments]
    simp
  have hname : dropEnding cloneEnding last ≠ [] := by
    intro hnil
    rcases dropEnding_eq_nil_iff.mp hnil with hempty | hending
    · exact (of_mem_nonEmptyParts hmem).1 hempty
    · exact hlast hending
  refine ⟨⟨⟨u.domain, String.ofList organization, subs.map String.ofList⟩,
    String.ofList (dropEnding cloneEnding last)⟩, last, hsplit, h.scheme, h.authority, ?_, rfl,
    String.toList_ofList, ?_⟩
  · rw [hsegments]
    simp [Function.comp_def]
  · intro hempty
    apply hname
    simpa using congrArg String.toList hempty

/-- An address gives a reference exactly if it is that of a repository. -/
theorem exists_parse_iff :
    (∃ r, parse address = .ok r) ↔ ∃ u, Url.split address = .ok u ∧ u.NamesRepository := by
  constructor
  · rintro ⟨r, hr⟩
    obtain ⟨u, last, h⟩ := parse_eq_ok_iff.mp hr
    exact ⟨u, h.split_eq, h.namesRepository⟩
  · rintro ⟨u, hsplit, hnames⟩
    obtain ⟨r, last, h⟩ := exists_parsedFrom hsplit hnames
    exact ⟨r, parse_eq_ok_iff.mpr ⟨u, last, h⟩⟩

/-! ## Refused addresses -/

/-- Why an address is refused: for the first thing that it lacks. -/
inductive Refuses (address : String) : AddressFault → Prop
  | url {fault : UrlFault} (h : Url.split address = .error fault) : Refuses address (.url fault)
  | notWeb {u : Url} (h : Url.split address = .ok u) (hweb : ¬ u.OnWeb) :
    Refuses address (.notWeb address)
  | tooShort {u : Url} (h : Url.split address = .ok u) (hweb : u.OnWeb)
    (hshort : u.segments.length < 2) : Refuses address (.tooShort address)
  | unnamed {u : Url} (h : Url.split address = .ok u) (hweb : u.OnWeb)
    (hlong : 2 ≤ u.segments.length) (hlast : u.segments.getLast? = some cloneEnding) :
    Refuses address (.parts [⟨[.name "repository_name"], .tooShort⟩])

/-- An address that is refused gives the fault. -/
theorem Refuses.parse_eq {fault : AddressFault} (h : Refuses address fault) :
    parse address = .error fault := by
  cases h with
  | url h => rw [parse, h]
  | notWeb h hweb =>
    rw [Url.onWeb_iff, not_not] at hweb
    rw [parse, h]
    exact if_pos hweb
  | @tooShort u h hweb hshort =>
    have hnone : nameSegments? u.segments = none := by
      cases hsegments : u.segments with
      | nil => rfl
      | cons first rest =>
        cases rest with
        | nil => rfl
        | cons second rest =>
          rw [hsegments, List.length_cons, List.length_cons] at hshort
          omega
    rw [parse, h]
    simp only [if_neg (Url.onWeb_iff.mp hweb), hnone]
  | @unnamed u h hweb hlong hlast =>
    obtain ⟨organization, subs, last, hsegments⟩ := Url.exists_segments_eq hlong
    obtain rfl : last = cloneEnding := by
      rw [hsegments, ← List.cons_append, List.getLast?_concat] at hlast
      exact Option.some.inj hlast
    have horganization : String.ofList organization ≠ "" := by
      have hmem : organization ∈ u.segments := by
        rw [hsegments]
        exact List.mem_cons_self ..
      intro hempty
      apply (of_mem_nonEmptyParts hmem).1
      simpa using congrArg String.toList hempty
    have hdomain : u.domain ≠ "" := Url.domain_ne_empty hweb.authority
    have hnothing : dropEnding cloneEnding cloneEnding = [] :=
      dropEnding_eq_nil_iff.mpr (.inr rfl)
    rw [parse, h]
    simp only [if_neg (Url.onWeb_iff.mp hweb), hsegments, nameSegments?_concat, hnothing]
    simp [make, Reading.nonEmptyText, Reading.ap, Reading.under, Reading.fault, hdomain,
      horganization, Except.mapError, Issue.under]

/-- An address that is not that of a repository is refused. -/
theorem exists_refuses (h : ∀ u, Url.split address = .ok u → ¬ u.NamesRepository) :
    ∃ fault, Refuses address fault := by
  cases hsplit : Url.split address with
  | error fault => exact ⟨_, .url hsplit⟩
  | ok u =>
    by_cases hweb : u.OnWeb
    · by_cases hlong : 2 ≤ u.segments.length
      · by_cases hlast : u.segments.getLast? = some cloneEnding
        · exact ⟨_, .unnamed hsplit hweb hlong hlast⟩
        · exact absurd ⟨hweb, hlong, hlast⟩ (h u hsplit)
      · exact ⟨_, .tooShort hsplit hweb (Nat.not_le.mp hlong)⟩
    · exact ⟨_, .notWeb hsplit hweb⟩

/-- The faults of an address are those it is refused for. -/
theorem parse_eq_error_iff {fault : AddressFault} :
    parse address = .error fault ↔ Refuses address fault := by
  constructor
  · intro hparse
    have hnone : ∀ u, Url.split address = .ok u → ¬ u.NamesRepository := by
      intro u hsplit hnames
      obtain ⟨r, hr⟩ := exists_parse_iff.mpr ⟨u, hsplit, hnames⟩
      rw [hr] at hparse
      cases hparse
    obtain ⟨found, hfound⟩ := exists_refuses hnone
    rw [hfound.parse_eq] at hparse
    rw [← Except.error.inj hparse]
    exact hfound
  · exact Refuses.parse_eq

/-! ## References -/

/-- What a reference that was read has to do with the parts of its address. No part of it is empty
or holds what ends a segment or a path; its parts are the segments, the last one without one ending
of a clone address; and its own address starts with the scheme and the authority. -/
structure ReadFrom (r : RepositoryRef) (u : Url) : Prop where
  parts : ∀ part ∈ r.organization :: (r.subOrganizations ++ [r.name]),
    part ≠ "" ∧ ∀ c ∈ part.toList, c ≠ '/' ∧ c ≠ '?' ∧ c ≠ '#'
  segments : ∃ last,
    u.segments = r.organization.toList :: (r.subOrganizations.map String.toList ++ [last]) ∧
    ((¬ cloneEnding <:+ last ∧ r.name.toList = last) ∨
      (cloneEnding <:+ last ∧ r.name.toList ++ cloneEnding = last))
  url_eq : r.url = u.scheme ++ "://" ++ u.authority ++ "/" ++ r.path

/-- A segment holds nothing that ends one. -/
theorem IsSegment.plain {s : String} (h : IsSegment s) :
    s ≠ "" ∧ ∀ c ∈ s.toList, c ≠ '/' ∧ c ≠ '?' ∧ c ≠ '#' := by
  refine ⟨h.nonempty, fun c hc ↦ ?_⟩
  obtain ⟨hinert, hslash⟩ := h.inert c hc
  exact ⟨hslash, hinert.query, hinert.fragment⟩

/-- A reference has to do with the parts that it was read from. -/
theorem ParsedFrom.readFrom (h : ParsedFrom address r u last) : r.ReadFrom u where
  parts := by
    intro part hpart
    rw [← List.cons_append, List.mem_append] at hpart
    rcases hpart with hpart | hpart
    · exact IsSegment.plain (h.isSegment part hpart)
    · rw [List.mem_singleton.mp hpart]
      exact IsSegment.plain h.isSegment_name
  segments := by
    refine ⟨last, h.segments_eq, ?_⟩
    rw [h.name_eq]
    exact eq_dropEnding_or cloneEnding last
  url_eq := by
    have hauthority := (Url.isSplit_of_split h.split_eq).authority
    rw [url, h.domain_eq, splitDomain_domain h.scheme hauthority]

/-- The same scheme, authority and segments give the same reference. -/
theorem parse_congr {other : String} {v : Url} (hu : Url.split address = .ok u)
    (hv : Url.split other = .ok v) (hscheme : u.scheme = v.scheme)
    (hauthority : u.authority = v.authority) (hsegments : u.segments = v.segments)
    (h : parse address = .ok r) : parse other = .ok r := by
  obtain ⟨w, last, hfrom⟩ := parse_eq_ok_iff.mp h
  obtain rfl : w = u := Except.ok.inj (hfrom.split_eq.symm.trans hu)
  refine parse_eq_ok_iff.mpr ⟨v, last, hv, ?_, ?_, ?_, ?_, hfrom.name_eq, hfrom.name_ne⟩
  · exact hscheme ▸ hfrom.scheme
  · exact hauthority ▸ hfrom.authority
  · exact hsegments ▸ hfrom.segments_eq
  · rw [hfrom.domain_eq, Url.domain, Url.domain, hscheme, hauthority]

/-- An address gives a reference exactly if it is that of a repository, and is refused for the first
thing that it lacks otherwise. The reference has to do with the parts of the address, and any other
address with the same scheme, authority and segments gives the same reference, also if it has more
or fewer slashes in its path. -/
theorem parse_grammar (address : String) :
    ((∃ r, parse address = .ok r) ↔ ∃ u, Url.split address = .ok u ∧ u.NamesRepository) ∧
    (∀ fault, parse address = .error fault ↔ Refuses address fault) ∧
    ∀ r, parse address = .ok r → ∃ u, Url.split address = .ok u ∧ r.ReadFrom u ∧
      ∀ other v, Url.split other = .ok v → u.scheme = v.scheme → u.authority = v.authority →
        u.segments = v.segments ∨ Relation.EqvGen Url.AddsSlash u.path.toList v.path.toList →
          parse other = .ok r := by
  refine ⟨exists_parse_iff, fun _ ↦ parse_eq_error_iff, fun r hr ↦ ?_⟩
  obtain ⟨u, last, hfrom⟩ := parse_eq_ok_iff.mp hr
  refine ⟨u, hfrom.split_eq, hfrom.readFrom, ?_⟩
  intro other v hv hscheme hauthority hpath
  have hsegments : u.segments = v.segments := by
    rcases hpath with hsegments | hslashes
    · exact hsegments
    · exact Url.segments_eq_of_eqvGen hslashes
  exact parse_congr hfrom.split_eq hv hscheme hauthority hsegments hr

/-- Slashes may be repeated, and one ending of a clone address is no part of the name. -/
example :
    parse "https://h//group/sub//app.git.git/" = .ok ⟨⟨"h", "group", ["sub"]⟩, "app.git"⟩ := by
  decide +kernel

end RepositoryRef
end RepoManifest
