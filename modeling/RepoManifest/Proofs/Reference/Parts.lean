import RepoManifest.Proofs.Reading.Outcome
import RepoManifest.Proofs.Url.Split
import RepoManifest.Reference.Parse

/-!
# What references are read from

Parts make a reference exactly if its domain, its organization and its name are not empty. An
address gives a reference exactly if it has the parts: a web scheme, an authority, and the segments
of the reference, the last one perhaps with the ending of a clone address.
-/

namespace RepoManifest

open Text

/-! ## Segments -/

/-- The segments of a path are the organization, the sub-organizations and the name. -/
theorem nameSegments?_concat (organization last : List Char) (subs : List (List Char)) :
    nameSegments? (organization :: (subs ++ [last])) = some (organization, subs, last) := by
  cases subs with
  | nil => rfl
  | cons s rest =>
    rw [List.cons_append, nameSegments?, ← List.cons_append, List.dropLast_concat,
      List.getLast?_concat, Option.getD_some]

/-- Segments that name a repository hold its parts and nothing else. -/
theorem nameSegments?_eq_some_iff {segments subs : List (List Char)}
    {organization last : List Char} :
    nameSegments? segments = some (organization, subs, last) ↔
      segments = organization :: (subs ++ [last]) := by
  constructor
  · intro h
    unfold nameSegments? at h
    split at h
    · next first next rest =>
      obtain ⟨rfl, rfl, rfl⟩ := by simpa only [Option.some.injEq, Prod.mk.injEq] using h
      rw [List.getLast?_eq_some_getLast (List.cons_ne_nil next rest), Option.getD_some,
        List.dropLast_concat_getLast]
    · cases h
  · rintro rfl
    exact nameSegments?_concat ..

/-- The domain of an address with an authority is not empty. -/
theorem Url.domain_ne_empty {u : Url} (h : u.authority ≠ "") : u.domain ≠ "" := by
  intro hempty
  rw [domain] at hempty
  split at hempty
  · exact h hempty
  · exact h (String.append_eq_empty_iff.mp hempty).2

namespace RepositoryRef

/-! ## References -/

/-- Parts make a reference exactly if none that has to be there is empty. -/
theorem make_eq_ok_iff {domain organization name : String} {subs : List String}
    {r : RepositoryRef} :
    make domain organization subs (.str name) = .ok r ↔
      (domain ≠ "" ∧ organization ≠ "" ∧ name ≠ "") ∧
        r = ⟨⟨domain, organization, subs⟩, name⟩ := by
  constructor
  · intro h
    simp only [make, Reading.ap_eq_ok_iff, Reading.under_eq_ok_iff,
      Reading.nonEmptyText_str_eq_ok_iff] at h
    obtain ⟨_, _, ⟨_, _, ⟨rfl⟩, horganization, rfl⟩, ⟨hn, rfl⟩, rfl⟩ := h
    obtain ⟨_, _, ⟨_, _, ⟨_, _, ⟨rfl⟩, ⟨hd, rfl⟩, rfl⟩, ⟨ho, rfl⟩, rfl⟩, ⟨rfl⟩, rfl⟩ :=
      horganization
    exact ⟨⟨hd, ho, hn⟩, rfl⟩
  · rintro ⟨⟨hd, ho, hn⟩, rfl⟩
    exact make_of_ne subs hd ho hn

/-- What a reference is read from: the parts `u` of the address, and `last`, the last segment. -/
structure ParsedFrom (address : String) (r : RepositoryRef) (u : Url) (last : List Char) :
    Prop where
  split_eq : Url.split address = .ok u
  scheme : u.scheme = "http" ∨ u.scheme = "https"
  authority : u.authority ≠ ""
  segments_eq : u.segments =
    r.organization.toList :: (r.subOrganizations.map String.toList ++ [last])
  domain_eq : r.domain = u.domain
  name_eq : r.name.toList = dropEnding cloneEnding last
  name_ne : r.name ≠ ""

/-- An organization that was read from an address is not empty: no segment is. -/
theorem ParsedFrom.organization_ne {address : String} {r : RepositoryRef} {u : Url}
    {last : List Char} (h : ParsedFrom address r u last) : r.organization ≠ "" := by
  have hmem : r.organization.toList ∈ u.segments := by
    rw [h.segments_eq]
    exact List.mem_cons_self ..
  intro hempty
  exact (of_mem_nonEmptyParts hmem).1 (by rw [hempty]; rfl)

/-- A reference is read from an address exactly if the address has its parts. -/
theorem parse_eq_ok_iff {address : String} {r : RepositoryRef} :
    parse address = .ok r ↔ ∃ u last, ParsedFrom address r u last := by
  constructor
  · intro h
    unfold parse at h
    split at h
    · cases h
    · next u hsplit =>
      split at h
      · cases h
      · next haccepted =>
        split at h
        · cases h
        · next organization subs last hsegments =>
          cases hmake : make u.domain (String.ofList organization) (subs.map String.ofList)
              (.str (String.ofList (dropEnding cloneEnding last))) with
          | error issues =>
            rw [hmake] at h
            cases h
          | ok q =>
            rw [hmake] at h
            obtain rfl := Except.ok.inj h
            obtain ⟨⟨_, _, hname⟩, rfl⟩ := make_eq_ok_iff.mp hmake
            refine ⟨u, last, hsplit, ?_, fun hempty ↦ haccepted (.inr hempty), ?_, rfl, ?_, hname⟩
            · by_contra hneither
              exact haccepted (.inl (not_or.mp hneither))
            · rw [nameSegments?_eq_some_iff.mp hsegments]
              simp [Function.comp_def]
            · exact String.toList_ofList
  · rintro ⟨u, last, h⟩
    have haccepted : ¬ ((u.scheme ≠ "http" ∧ u.scheme ≠ "https") ∨ u.authority = "") := by
      rintro (hneither | hempty)
      · exact not_or.mpr hneither h.scheme
      · exact h.authority hempty
    have hsubs : (r.subOrganizations.map String.toList).map String.ofList = r.subOrganizations := by
      simp [Function.comp_def]
    have hmake : make u.domain r.organization r.subOrganizations (.str r.name) = .ok r := by
      rw [make_eq_ok_iff, ← h.domain_eq]
      exact ⟨⟨h.domain_eq ▸ Url.domain_ne_empty h.authority, h.organization_ne, h.name_ne⟩, rfl⟩
    rw [parse, h.split_eq]
    simp only [if_neg haccepted, h.segments_eq, nameSegments?_concat, ← h.name_eq,
      String.ofList_toList, hsubs, hmake]
    rfl

end RepositoryRef
end RepoManifest
