import RepoManifest.Proofs.Reference.Parts

/-!
# References read back from their addresses

A reference whose domain is a host in any spelling, and whose other parts are plain segments, is
read back from its clone address over https: only its domain changes, to the usual spelling of the
host. The plain address gives it back too, unless the name itself has the ending of a clone address.
-/

namespace RepoManifest

open Text

/-! ## Parts of an address -/

/-- A host that can stand in an address as it is, perhaps with a user and a port. -/
structure IsHost (host : String) : Prop where
  nonempty : host ≠ ""
  ascii : ∀ c ∈ host.toList, c.toNat < 128
  chars : ∀ c ∈ host.toList, c ∉ ['/', '?', '#', '[', ']', '\t', '\r', '\n']
  last : host.toList.getLast? ≠ some ':'

/-- A text that can stand between two slashes of an address as it is. -/
structure IsSegment (s : String) : Prop where
  nonempty : s ≠ ""
  chars : ∀ c ∈ s.toList, c ∉ ['/', '?', '#', '\t', '\r', '\n']

/-- Slashes at the end of a domain. -/
def slashes (n : Nat) : String := String.ofList (List.replicate n '/')

/-- The spellings of a host as a domain, each with the usual one: a host over https is the host
alone, and one over http has the scheme in front. -/
inductive Spells (host : String) : String → String → Prop
  | bare (n : Nat) : Spells host (host ++ slashes n) host
  | https (n : Nat) : Spells host ("https://" ++ host ++ slashes n) host
  | http (n : Nat) : Spells host ("http://" ++ host ++ slashes n) ("http://" ++ host)

/-- A reference whose parts can stand in an address as they are. Parameters could only be cut off
its name. -/
structure RepositoryRef.IsPlain (r : RepositoryRef) : Prop where
  organization : IsSegment r.organization
  subOrganizations : ∀ s ∈ r.subOrganizations, IsSegment s
  name : IsSegment r.name
  parameters : ';' ∉ r.name.toList

/-- The characters of a segment stay where they are in an address, and are no slashes. -/
theorem IsSegment.inert {s : String} (h : IsSegment s) :
    ∀ c ∈ s.toList, Url.IsInert c ∧ c ≠ '/' := by
  intro c hc
  have hchars := h.chars c hc
  simp only [List.mem_cons, List.not_mem_nil, or_false, not_or] at hchars
  obtain ⟨hslash, hquery, hfragment, htab, hreturn, hline⟩ := hchars
  exact ⟨⟨hquery, hfragment, by simp [htab, hreturn, hline]⟩, hslash⟩

/-- A segment has characters, none of which is a slash. -/
theorem IsSegment.piece {s : String} (h : IsSegment s) : '/' ∉ s.toList ∧ s.toList ≠ [] := by
  refine ⟨fun hmem ↦ (h.inert _ hmem).2 rfl, fun hnil ↦ h.nonempty ?_⟩
  rw [← String.toList_inj, hnil]
  rfl

/-- A host is the authority of an address that is not refused. -/
theorem IsHost.isAuthority {host : String} (h : IsHost host) : Url.IsAuthority host where
  chars := by
    intro c hc
    have hchars := h.chars c hc
    simp only [List.mem_cons, List.not_mem_nil, or_false, not_or] at hchars
    obtain ⟨hslash, hquery, hfragment, _, _, htab, hreturn, hline⟩ := hchars
    exact ⟨⟨hquery, hfragment, by simp [htab, hreturn, hline]⟩, hslash⟩
  brackets := Url.checkBrackets_of_not_mem (fun hmem ↦ h.chars _ hmem (by decide))
    fun hmem ↦ h.chars _ hmem (by decide)
  lookalikes := fun c hc ↦ Url.not_mem_lookalikes (h.ascii c hc)

/-! ## Domains -/

/-- A host holds no slash. -/
theorem IsHost.slash_not_mem {host : String} (h : IsHost host) : '/' ∉ host.toList :=
  fun hmem ↦ h.chars _ hmem (by decide)

/-- The slashes behind a host are dropped. -/
theorem IsHost.dropEndWhile_slashes {host : String} (h : IsHost host) (n : Nat) :
    dropEndWhile (· == '/') (host.toList ++ List.replicate n '/') = host.toList := by
  refine dropEndWhile_append (fun c hc ↦ ?_) fun c hc ↦ ?_
  · rw [List.eq_of_mem_replicate hc]
    rfl
  · rw [beq_eq_false_iff_ne]
    rintro rfl
    exact h.slash_not_mem (List.mem_of_getLast? hc)

/-- A host with slashes behind it holds no scheme: it does not end with a colon, and has no slash
inside. -/
theorem IsHost.cutAt?_slashes {host : String} (h : IsHost host) (n : Nat) :
    cutAt? "://".toList (host.toList ++ List.replicate n '/') = none := by
  refine cutAt?_eq_none fun before after heq ↦ ?_
  have hnot : host.toList ≠ before ++ [':'] := fun hhost ↦ h.last (by rw [hhost]; simp)
  have hsplit :
      host.toList ++ List.replicate n '/' = (before ++ [':']) ++ ('/' :: '/' :: after) := by
    rw [heq]
    simp
  obtain ⟨a, ha, hslashes⟩ | ⟨a, ha, hslashes⟩ := List.append_eq_append_iff.mp hsplit
  · -- the colon would be among the slashes
    rcases List.eq_nil_or_concat a with rfl | ⟨a, x, rfl⟩
    · exact hnot (by rw [ha, List.append_nil])
    · rw [List.concat_eq_append, ← List.append_assoc] at ha
      obtain rfl := (List.cons.inj (List.append_inj' ha rfl).2).1
      have hmem : ':' ∈ List.replicate n '/' := by
        rw [hslashes]
        simp
      exact absurd (List.eq_of_mem_replicate hmem) (by decide)
  · -- the slash behind the colon would be in the host
    cases a with
    | nil => exact hnot (by rw [ha, List.append_nil])
    | cons x a =>
      obtain rfl := (List.cons.inj hslashes).1
      exact h.slash_not_mem (by rw [ha]; simp)

/-- A host alone is reached over https. -/
theorem splitDomain_bare {host : String} (h : IsHost host) (n : Nat) :
    splitDomain (host ++ slashes n) = ("https", host) := by
  have hlist : (host ++ slashes n).toList = host.toList ++ List.replicate n '/' := by
    simp [slashes]
  rw [splitDomain, hlist, h.cutAt?_slashes]
  simp only [h.dropEndWhile_slashes, String.ofList_toList]

/-- A scheme in front of a host counts. -/
theorem splitDomain_scheme {scheme host : String} (hscheme : ':' ∉ scheme.toList) (h : IsHost host)
    (n : Nat) : splitDomain (scheme ++ "://" ++ host ++ slashes n) = (scheme, host) := by
  have hlist : (scheme ++ "://" ++ host ++ slashes n).toList =
      scheme.toList ++ "://".toList ++ (host.toList ++ List.replicate n '/') := by
    simp [slashes]
  have hcut : cutAt? "://".toList
      (scheme.toList ++ "://".toList ++ (host.toList ++ List.replicate n '/')) =
        some (scheme.toList, host.toList ++ List.replicate n '/') := cutAt?_append hscheme _
  rw [splitDomain, hlist, hcut]
  simp only [h.dropEndWhile_slashes, String.ofList_toList]

/-- The scheme and the host of a domain do not depend on how it is spelled, and make its usual
spelling. -/
theorem splitDomain_of_spells {host domain usual : String} (h : IsHost host)
    (hspells : Spells host domain usual) :
    ∃ scheme, (scheme = "http" ∨ scheme = "https") ∧ splitDomain domain = (scheme, host) ∧
      splitDomain usual = (scheme, host) ∧
      usual = (if scheme = "https" then host else "http://" ++ host) := by
  have hbare : splitDomain host = ("https", host) := by
    have hzero := splitDomain_bare h 0
    rwa [slashes, List.replicate_zero, String.ofList_nil, String.append_empty] at hzero
  have hweb (n : Nat) : splitDomain ("http://" ++ host ++ slashes n) = ("http", host) := by
    have hscheme : "http://" = "http" ++ "://" := rfl
    rw [hscheme]
    exact splitDomain_scheme (by decide) h n
  have hsecure (n : Nat) : splitDomain ("https://" ++ host ++ slashes n) = ("https", host) := by
    have hscheme : "https://" = "https" ++ "://" := rfl
    rw [hscheme]
    exact splitDomain_scheme (by decide) h n
  have hhttp : splitDomain ("http://" ++ host) = ("http", host) := by
    have hzero := hweb 0
    rwa [slashes, List.replicate_zero, String.ofList_nil, String.append_empty] at hzero
  cases hspells with
  | bare n => exact ⟨"https", .inr rfl, splitDomain_bare h n, hbare, (if_pos rfl).symm⟩
  | https n => exact ⟨"https", .inr rfl, hsecure n, hbare, (if_pos rfl).symm⟩
  | http n => exact ⟨"http", .inl rfl, hweb n, hhttp, (if_neg (by decide)).symm⟩

/-! ## Addresses -/

/-- The characters of joined segments stay where they are in an address. -/
theorem isInert_of_mem_joined {segments : List String} (h : ∀ s ∈ segments, IsSegment s) :
    ∀ c ∈ '/' :: ['/'].intercalate (segments.map String.toList), Url.IsInert c := by
  intro c hc
  rcases List.mem_cons.mp hc with rfl | hc
  · exact Url.isInert_slash
  · obtain hslash | ⟨p, hp, hc⟩ := mem_intercalate hc
    · rw [List.mem_singleton.mp hslash]
      exact Url.isInert_slash
    · obtain ⟨s, hs, rfl⟩ := List.mem_map.mp hp
      exact ((h s hs).inert c hc).1

/-- The segments of a path are found again. -/
theorem nonEmptyParts_joined {segments : List String} (h : ∀ s ∈ segments, IsSegment s)
    (hne : segments ≠ []) :
    nonEmptyParts '/' ('/' :: ['/'].intercalate (segments.map String.toList)) =
      segments.map String.toList := by
  have hpieces : ∀ p ∈ segments.map String.toList, '/' ∉ p ∧ p ≠ [] := by
    intro p hp
    obtain ⟨s, hs, rfl⟩ := List.mem_map.mp hp
    exact (h s hs).piece
  rw [nonEmptyParts_cons_self, nonEmptyParts_intercalate hpieces (by simpa using hne)]

namespace RepositoryRef

/-- An address that is put together from a scheme, an authority and segments is taken apart into
them, but for the parameters of the last segment. -/
theorem split_segments {scheme authority last : String} {first : List String}
    (hscheme : scheme = "http" ∨ scheme = "https") (hauthority : Url.IsAuthority authority)
    (hfirst : ∀ s ∈ first, IsSegment s) (hne : first ≠ []) (hlast : IsSegment last) :
    ∃ u : Url,
      Url.split (scheme ++ "://" ++ authority ++ "/" ++ ("/".intercalate first ++ "/" ++ last)) =
        .ok u ∧ u.scheme = scheme ∧ u.authority = authority ∧
      u.segments =
        first.map String.toList ++ nonEmptyParts '/' (last.toList.takeWhile (· != ';')) := by
  have hpath : ("/" ++ ("/".intercalate first ++ "/" ++ last)).toList =
      ('/' :: ['/'].intercalate (first.map String.toList)) ++ '/' :: last.toList := by
    simp [String.toList_intercalate]
  have hfront := isInert_of_mem_joined hfirst
  have hinert : ∀ c ∈ ("/" ++ ("/".intercalate first ++ "/" ++ last)).toList, Url.IsInert c := by
    intro c hc
    rw [hpath] at hc
    exact Url.isInert_of_mem_append hfront (fun d hd ↦ (hlast.inert d hd).1) hc
  have hweb := hauthority.isWeb hscheme hinert (by rw [hpath]; rfl)
  have hsplit := Url.split_render hweb
  rw [hpath, Url.cutPath_append hscheme hfront hlast.inert, Url.render,
    ← String.append_assoc] at hsplit
  refine ⟨_, hsplit, rfl, rfl, ?_⟩
  rw [Url.segments, String.toList_ofList, nonEmptyParts_append_cons,
    nonEmptyParts_joined hfirst hne]

/-- A segment without parameters is found as it is. -/
theorem nonEmptyParts_segment {last : String} (hlast : IsSegment last)
    (hparameters : ';' ∉ last.toList) :
    nonEmptyParts '/' (last.toList.takeWhile (· != ';')) = [last.toList] := by
  have hself : last.toList.takeWhile (· != ';') = last.toList := by
    refine List.takeWhile_eq_self_iff.mpr fun c hc ↦ ?_
    rw [bne_iff_ne]
    rintro rfl
    exact hparameters hc
  rw [hself, nonEmptyParts_of_not_mem hlast.piece.1 hlast.piece.2]

/-- Reading such an address reads the segments. -/
theorem parse_segments {scheme host organization last : String} {subs : List String}
    (hscheme : scheme = "http" ∨ scheme = "https") (hhost : IsHost host)
    (horganization : IsSegment organization) (hsubs : ∀ s ∈ subs, IsSegment s)
    (hlast : IsSegment last) (hparameters : ';' ∉ last.toList) :
    parse (scheme ++ "://" ++ host ++ "/" ++
        ("/".intercalate (organization :: subs) ++ "/" ++ last)) =
      (make (if scheme = "https" then host else "http://" ++ host) organization subs
        (.str (String.ofList (dropEnding cloneEnding last.toList)))).mapError .parts := by
  obtain ⟨u, hsplit, rfl, rfl, hsegments⟩ := split_segments hscheme hhost.isAuthority
    (List.forall_mem_cons.mpr ⟨horganization, hsubs⟩) (List.cons_ne_nil _ _) hlast
  have haccepted : ¬ ((u.scheme ≠ "http" ∧ u.scheme ≠ "https") ∨ u.authority = "") := by
    rintro (⟨hhttp, hhttps⟩ | hempty)
    · exact hscheme.elim hhttp hhttps
    · exact hhost.nonempty hempty
  have hnames : (subs.map String.toList).map String.ofList = subs := by
    simp [Function.comp_def]
  rw [nonEmptyParts_segment hlast hparameters, List.map_cons, List.cons_append] at hsegments
  rw [parse, hsplit]
  simp only [if_neg haccepted, hsegments, nameSegments?_concat, String.ofList_toList, hnames,
    Url.domain]

/-- A name with the ending of a clone address is a segment too. -/
theorem isSegment_ending {name : String} (h : IsSegment name) : IsSegment (name ++ ".git") := by
  refine ⟨fun hempty ↦ h.nonempty ?_, fun c hc ↦ ?_⟩
  · exact (String.append_eq_empty_iff.mp hempty).1
  · rw [String.toList_append, List.mem_append] at hc
    rcases hc with hc | hc
    · exact h.chars c hc
    · have hending : ∀ c ∈ ".git".toList, c ∉ ['/', '?', '#', '\t', '\r', '\n'] := by simp
      exact hending c hc

/-- A reference that was made has the name that it was given. -/
theorem name_of_make {domain organization name : String} {subs : List String} {q : RepositoryRef}
    (h : (make domain organization subs (.str name)).mapError AddressFault.parts = .ok q) :
    q.name = name := by
  cases hmake : make domain organization subs (.str name) with
  | error issues =>
    rw [hmake] at h
    cases h
  | ok p =>
    rw [hmake] at h
    obtain rfl := Except.ok.inj h
    rw [(make_eq_ok_iff.mp hmake).2]

/-- The addresses of a reference depend on its domain through the scheme and the host only. -/
theorem addresses_congr {r q : RepositoryRef}
    (hdomain : splitDomain q.domain = splitDomain r.domain) (hpath : q.path = r.path) :
    q.url = r.url ∧ ∀ transport, q.cloneUrl transport = r.cloneUrl transport := by
  refine ⟨?_, fun transport ↦ ?_⟩
  · rw [url, url, hdomain, hpath]
  · rw [cloneUrl, cloneUrl, hdomain, hpath]

/-- A plain reference is read back from its clone address over https, with the usual spelling of its
domain, and that does not change any of its addresses. It is read back from its plain address
exactly if its name does not have the ending of a clone address. -/
theorem parse_cloneUrl {host usual : String} {r : RepositoryRef} (hhost : IsHost host)
    (hdomain : Spells host r.domain usual) (hr : r.IsPlain) :
    ∃ q : RepositoryRef, q = { r with domain := usual } ∧
      parse (r.cloneUrl .https) = .ok q ∧
      q.url = r.url ∧ (∀ transport, q.cloneUrl transport = r.cloneUrl transport) ∧
      (parse r.url = .ok q ↔ ¬ ".git".toList <:+ r.name.toList) := by
  obtain ⟨scheme, hscheme, hsplit, husual, hform⟩ := splitDomain_of_spells hhost hdomain
  have hurl : r.url = scheme ++ "://" ++ host ++ "/" ++
      ("/".intercalate (r.organization :: r.subOrganizations) ++ "/" ++ r.name) := by
    rw [url, hsplit]
    rfl
  have hclone : r.cloneUrl .https = scheme ++ "://" ++ host ++ "/" ++
      ("/".intercalate (r.organization :: r.subOrganizations) ++ "/" ++ (r.name ++ ".git")) := by
    rw [cloneUrl_https, hurl]
    simp only [String.append_assoc]
  have hne : usual ≠ "" := by
    intro hempty
    rw [hform] at hempty
    split at hempty
    · exact hhost.nonempty hempty
    · exact hhost.nonempty (String.append_eq_empty_iff.mp hempty).2
  refine ⟨{ r with domain := usual }, rfl, ?_, ?_⟩
  · have hparameters : ';' ∉ (r.name ++ ".git").toList := by
      rw [String.toList_append, List.mem_append, not_or]
      exact ⟨hr.parameters, by decide⟩
    rw [hclone, parse_segments hscheme hhost hr.organization hr.subOrganizations
      (isSegment_ending hr.name) hparameters, String.toList_append, cloneEnding, dropEnding_append,
      String.ofList_toList, ← hform, make_of_ne _ hne hr.organization.nonempty hr.name.nonempty]
    rfl
  · obtain ⟨hsame, hclones⟩ := addresses_congr (r := r) (q := { r with domain := usual })
      (husual.trans hsplit.symm) rfl
    refine ⟨hsame, hclones, ?_⟩
    rw [hurl,
      parse_segments hscheme hhost hr.organization hr.subOrganizations hr.name hr.parameters,
      ← hform, ← dropEnding_eq_self_iff (by decide : ".git".toList ≠ [])]
    constructor
    · intro hread
      have hname := name_of_make hread
      dsimp only at hname
      rw [← String.toList_inj, String.toList_ofList] at hname
      exact hname.symm
    · intro hself
      rw [cloneEnding, hself, String.ofList_toList,
        make_of_ne _ hne hr.organization.nonempty hr.name.nonempty]
      rfl

/-- A reference over http, with slashes behind its host, a sub-organization and a parameter inside
an organization. -/
def nestedRef : RepositoryRef where
  domain := "http://me@git.example.com:8080//"
  organization := "a;b"
  subOrganizations := ["sub"]
  name := "tool.git"

/-- It is read back from its clone address, and not from its plain one: its name has the ending. -/
theorem parse_cloneUrl_nestedRef :
    IsHost "me@git.example.com:8080" ∧
      Spells "me@git.example.com:8080" nestedRef.domain "http://me@git.example.com:8080" ∧
      nestedRef.IsPlain ∧
      parse (nestedRef.cloneUrl .https) =
        .ok { nestedRef with domain := "http://me@git.example.com:8080" } ∧
      parse nestedRef.url ≠ .ok { nestedRef with domain := "http://me@git.example.com:8080" } := by
  have hhost : IsHost "me@git.example.com:8080" :=
    ⟨by decide, by simp, by simp, by decide⟩
  have hdomain : Spells "me@git.example.com:8080" nestedRef.domain
      "http://me@git.example.com:8080" := .http 2
  have hplain : nestedRef.IsPlain := {
    organization := ⟨by decide, by simp [nestedRef]⟩
    subOrganizations := fun s hs ↦ by
      obtain rfl := List.mem_singleton.mp hs
      exact ⟨by decide, by simp⟩
    name := ⟨by decide, by simp [nestedRef]⟩
    parameters := by decide }
  obtain ⟨q, rfl, hclone, _, _, hplainUrl⟩ := parse_cloneUrl hhost hdomain hplain
  exact ⟨hhost, hdomain, hplain, hclone, fun h ↦ hplainUrl.mp h (by decide)⟩

end RepositoryRef
end RepoManifest
