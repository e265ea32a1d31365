import RepoManifest.Proofs.Reference.RoundTrip

/-!
# References read twice

A reference that was read from any address is put into a clone address and read again. It comes back
unchanged exactly if its name has no semicolon. An address may give a name with a semicolon, since
parameters are cut off the last segment only while the path may end with slashes; in the clone
address the name is the last segment, and is cut off there.
-/

namespace RepoManifest

open Text

/-- An authority has the domain that it was read as. -/
theorem splitDomain_domain {u : Url} (hscheme : u.scheme = "http" ∨ u.scheme = "https")
    (hauthority : Url.IsAuthority u.authority) :
    splitDomain u.domain = (u.scheme, u.authority) := by
  have hslash : '/' ∉ u.authority.toList := fun hmem ↦ (hauthority.chars _ hmem).2 rfl
  have htrimmed : dropEndWhile (· == '/') u.authority.toList = u.authority.toList := by
    have hlast : ∀ c, u.authority.toList.getLast? = some c → (c == '/') = false := by
      intro c hc
      rw [beq_eq_false_iff_ne]
      rintro rfl
      exact hslash (List.mem_of_getLast? hc)
    have hnone : ∀ c ∈ ([] : List Char), (c == '/') = true := fun c hc ↦ absurd hc List.not_mem_nil
    simpa using dropEndWhile_append hnone hlast
  rcases hscheme with hscheme | hscheme
  · have hdomain : u.domain.toList = "http".toList ++ "://".toList ++ u.authority.toList := by
      rw [Url.domain, if_neg (by rw [hscheme]; decide), String.toList_append]
      rfl
    have hcut : cutAt? "://".toList ("http".toList ++ "://".toList ++ u.authority.toList) =
        some ("http".toList, u.authority.toList) := cutAt?_append (by decide) _
    rw [splitDomain, hdomain, hcut]
    simp only [htrimmed, String.ofList_toList, hscheme]
  · have hcut : cutAt? "://".toList u.authority.toList = none := by
      refine cutAt?_eq_none fun before after heq ↦ hslash ?_
      rw [heq]
      simp
    rw [Url.domain, if_pos hscheme, splitDomain, hcut]
    simp only [htrimmed, String.ofList_toList, hscheme]

namespace RepositoryRef

variable {address : String} {r : RepositoryRef} {u : Url} {last : List Char}

/-- What was read from a segment of an address can stand in an address again. -/
theorem isSegment_of_mem_segments (h : Url.split address = .ok u) {part : List Char}
    (hpart : part ∈ u.segments) {s : String} (hne : s ≠ "") (hsub : ∀ c ∈ s.toList, c ∈ part) :
    IsSegment s := by
  obtain ⟨_, hslash, hpath⟩ := of_mem_nonEmptyParts hpart
  refine ⟨hne, fun c hc ↦ ?_⟩
  have hinert := (Url.isSplit_of_split h).path c (hpath c (hsub c hc))
  have hnot : c ≠ '/' := fun heq ↦ hslash (heq ▸ hsub c hc)
  have hkept := hinert.kept
  simp only [List.mem_cons, List.not_mem_nil, or_false, not_or] at hkept ⊢
  exact ⟨hnot, hinert.query, hinert.fragment, hkept⟩

/-- The organization and the sub-organizations that were read are segments. -/
theorem ParsedFrom.isSegment (h : ParsedFrom address r u last) :
    ∀ s ∈ r.organization :: r.subOrganizations, IsSegment s := by
  intro s hs
  have hmem : s.toList ∈ u.segments := by
    rw [h.segments_eq, ← List.cons_append, ← List.map_cons]
    exact List.mem_append_left _ (List.mem_map_of_mem hs)
  refine isSegment_of_mem_segments h.split_eq hmem (fun hempty ↦ ?_) fun c hc ↦ hc
  exact (of_mem_nonEmptyParts hmem).1 (by rw [hempty]; rfl)

/-- The name that was read is a segment. -/
theorem ParsedFrom.isSegment_name (h : ParsedFrom address r u last) : IsSegment r.name := by
  have hmem : last ∈ u.segments := by
    rw [h.segments_eq]
    exact List.mem_cons_of_mem _ (List.mem_append_right _ (List.mem_singleton_self last))
  refine isSegment_of_mem_segments h.split_eq hmem h.name_ne fun c hc ↦ ?_
  rw [h.name_eq] at hc
  exact mem_of_mem_dropEnding hc

/-- The clone address of a reference that was read is taken apart into the same scheme, authority
and segments, but for the parameters of its name. -/
theorem ParsedFrom.split_cloneUrl (h : ParsedFrom address r u last) :
    ∃ w : Url, Url.split (r.cloneUrl .https) = .ok w ∧ w.scheme = u.scheme ∧
      w.authority = u.authority ∧
      w.segments = (r.organization :: r.subOrganizations).map String.toList ++
        nonEmptyParts '/' ((r.name ++ ".git").toList.takeWhile (· != ';')) := by
  have hauthority := (Url.isSplit_of_split h.split_eq).authority
  have hclone : r.cloneUrl .https = u.scheme ++ "://" ++ u.authority ++ "/" ++
      ("/".intercalate (r.organization :: r.subOrganizations) ++ "/" ++ (r.name ++ ".git")) := by
    rw [cloneUrl_https, url, h.domain_eq, splitDomain_domain h.scheme hauthority]
    simp only [path, OrganizationRef.path, String.append_assoc]
  rw [hclone]
  exact split_segments h.scheme hauthority h.isSegment (List.cons_ne_nil _ _)
    (isSegment_ending h.isSegment_name)

/-- A reference that was read from an address is read from its clone address again exactly if its
name has no semicolon. -/
theorem parse_cloneUrl_self_iff (h : parse address = .ok r) :
    parse (r.cloneUrl .https) = .ok r ↔ ';' ∉ r.name.toList := by
  obtain ⟨u, last, hfrom⟩ := parse_eq_ok_iff.mp h
  obtain ⟨w, hsplit, hscheme, hauthority, hsegments⟩ := hfrom.split_cloneUrl
  rw [parse_eq_ok_iff]
  constructor
  · rintro ⟨v, again, hagain⟩ hmem
    obtain rfl : v = w := Except.ok.inj (hagain.split_eq.symm.trans hsplit)
    -- the name is read from what stands in front of a semicolon
    have hlast : nonEmptyParts '/' ((r.name ++ ".git").toList.takeWhile (· != ';')) = [again] := by
      have hboth := hsegments.symm.trans hagain.segments_eq
      rw [List.map_cons, List.cons_append, List.cons.injEq] at hboth
      exact List.append_cancel_left hboth.2
    have hcut : ';' ∈ (r.name ++ ".git").toList.takeWhile (· != ';') := by
      rw [hagain.name_eq] at hmem
      have hpart : again ∈ nonEmptyParts '/' ((r.name ++ ".git").toList.takeWhile (· != ';')) := by
        rw [hlast]
        exact List.mem_singleton_self again
      exact (of_mem_nonEmptyParts hpart).2.2 _ (mem_of_mem_dropEnding hmem)
    exact absurd (List.mem_takeWhile_imp hcut) (by decide)
  · intro hname
    have hparameters : ';' ∉ (r.name ++ ".git").toList := by
      rw [String.toList_append, List.mem_append, not_or]
      exact ⟨hname, by decide⟩
    rw [nonEmptyParts_segment (isSegment_ending hfrom.isSegment_name) hparameters] at hsegments
    refine ⟨w, (r.name ++ ".git").toList, hsplit, ?_, ?_, hsegments, ?_, ?_, hfrom.name_ne⟩
    · rw [hscheme]
      exact hfrom.scheme
    · rw [hauthority]
      exact hfrom.authority
    · rw [hfrom.domain_eq, Url.domain, Url.domain, hscheme, hauthority]
    · rw [String.toList_append, cloneEnding, dropEnding_append]

/-- A reference whose name has a semicolon. -/
def semicolonRef : RepositoryRef where
  domain := "h"
  organization := "a"
  name := "b;c"

/-- It is read from an address with a slash behind the name, but not from its own clone address. -/
theorem parse_cloneUrl_semicolonRef :
    parse "https://h/a/b;c/" = .ok semicolonRef ∧ ';' ∈ semicolonRef.name.toList ∧
      parse (semicolonRef.cloneUrl .https) ≠ .ok semicolonRef := by
  have hparse : parse "https://h/a/b;c/" = .ok semicolonRef := by decide +kernel
  have hmem : ';' ∈ semicolonRef.name.toList := by decide
  exact ⟨hparse, hmem, fun h ↦ (parse_cloneUrl_self_iff hparse).mp h hmem⟩

end RepositoryRef
end RepoManifest
