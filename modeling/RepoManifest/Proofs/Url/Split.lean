import RepoManifest.Proofs.Text.Cut
import RepoManifest.Url.Split

/-!
# Web addresses put together and taken apart

An address that is put together from a web scheme, an authority and a rooted path is taken apart
into the same scheme and authority. Its path is the same too, but for the parameters of the last
segment. The parts of any address that can be taken apart can be put together again in this way.
-/

namespace RepoManifest.Url

open Text

/-- A character that stays where it is in an address: it starts neither a query nor a fragment, and
is no tabulator and no line break. -/
structure IsInert (c : Char) : Prop where
  query : c ≠ '?'
  fragment : c ≠ '#'
  kept : c ∉ ['\t', '\r', '\n']

/-- A slash stays where it is. -/
theorem isInert_slash : IsInert '/' := ⟨by decide, by decide, by decide⟩

/-- The parts of a web address: a web scheme, an authority that the address cannot be refused for,
and a path from the root. -/
structure IsWeb (u : Url) : Prop where
  scheme : u.scheme = "http" ∨ u.scheme = "https"
  authority : ∀ c ∈ u.authority.toList, IsInert c ∧ c ≠ '/'
  brackets : checkBrackets u.authority.toList = .ok ()
  lookalikes : ∀ c ∈ u.authority.toList, c.toNat ∉ lookalikes
  path : ∀ c ∈ u.path.toList, IsInert c
  rooted : u.path.toList.head? = some '/'

/-- The authority of an address that is not refused: nothing in it starts the path, the query or the
fragment, its brackets are in order, and no character of it only looks like one of these. -/
structure IsAuthority (authority : String) : Prop where
  chars : ∀ c ∈ authority.toList, IsInert c ∧ c ≠ '/'
  brackets : checkBrackets authority.toList = .ok ()
  lookalikes : ∀ c ∈ authority.toList, c.toNat ∉ lookalikes

/-- An authority makes a web address with any rooted path. -/
theorem IsAuthority.isWeb {scheme authority path : String} (h : IsAuthority authority)
    (hscheme : scheme = "http" ∨ scheme = "https") (hpath : ∀ c ∈ path.toList, IsInert c)
    (hrooted : path.toList.head? = some '/') : IsWeb ⟨scheme, authority, path⟩ where
  scheme := hscheme
  authority := h.chars
  brackets := h.brackets
  lookalikes := h.lookalikes
  path := hpath
  rooted := hrooted

/-- The text of an address. -/
def render (u : Url) : String := u.scheme ++ "://" ++ u.authority ++ u.path

/-- An authority without brackets passes the check of brackets. -/
theorem checkBrackets_of_not_mem {authority : List Char} (hopen : '[' ∉ authority)
    (hclose : ']' ∉ authority) : checkBrackets authority = .ok () := by
  have hopen' : authority.contains '[' = false := by simpa using hopen
  have hclose' : authority.contains ']' = false := by simpa using hclose
  rw [checkBrackets, hopen', hclose']

/-- No character of ASCII is a lookalike. -/
theorem not_mem_lookalikes {n : Nat} (h : n < 128) : n ∉ lookalikes := by
  have hall : ∀ m ∈ lookalikes, 128 ≤ m := by decide
  exact fun hmem ↦ absurd (hall n hmem) (by omega)

/-- A text that starts with no blank and holds no tabulator or line break is clean. -/
theorem cleaned_eq_self {c : Char} {rest : List Char} (hc : 0x20 < c.toNat)
    (h : ∀ d ∈ c :: rest, d ∉ ['\t', '\r', '\n']) : cleaned (c :: rest) = c :: rest := by
  have hfirst : ¬ decide (c.toNat ≤ 0x20) = true := by simpa using hc
  rw [cleaned, List.dropWhile_cons, if_neg hfirst]
  refine List.filter_eq_self.mpr fun d hd ↦ ?_
  simpa [and_assoc] using h d hd

/-- The scheme of a web address is cut off. -/
theorem cutScheme_of_web {scheme : String} (h : scheme = "http" ∨ scheme = "https")
    (rest : List Char) : cutScheme (scheme.toList ++ ':' :: rest) = (scheme.toList, rest) := by
  have hcut {before : List Char} (hbefore : ':' ∉ before) :
      cutAt? [':'] (before ++ ':' :: rest) = some (before, rest) := by
    have happend : cutAt? [':'] (before ++ [':'] ++ rest) = some (before, rest) :=
      cutAt?_append hbefore rest
    rwa [List.append_assoc] at happend
  rcases h with rfl | rfl
  · have hlist : "http".toList = ['h', 't', 't', 'p'] := rfl
    rw [cutScheme, hlist, hcut (by decide)]
    rfl
  · have hlist : "https".toList = ['h', 't', 't', 'p', 's'] := rfl
    rw [cutScheme, hlist, hcut (by decide)]
    rfl

/-- The authority ends where a rooted path starts. -/
theorem cutAuthority_append {authority path : List Char}
    (hauthority : ∀ c ∈ authority, IsInert c ∧ c ≠ '/') (hpath : path.head? = some '/') :
    cutAuthority ('/' :: '/' :: (authority ++ path)) = (authority, path) := by
  obtain ⟨rest, rfl⟩ := List.head?_eq_some_iff.mp hpath
  have hinside : ∀ c ∈ authority, (c != '/' && c != '?' && c != '#') = true := by
    intro c hc
    obtain ⟨hinert, hslash⟩ := hauthority c hc
    simp [hslash, hinert.query, hinert.fragment]
  rw [cutAuthority]
  simp [List.takeWhile_append_of_pos hinside, List.dropWhile_append_of_pos hinside]

/-- The text of a web address is clean. -/
theorem cleaned_render {u : Url} (h : u.IsWeb) : cleaned u.render.toList = u.render.toList := by
  have hscheme : ∃ rest, u.scheme.toList = 'h' :: rest ∧
      ∀ c ∈ u.scheme.toList, c ∉ ['\t', '\r', '\n'] := by
    rcases h.scheme with hs | hs
    · exact ⟨['t', 't', 'p'], by rw [hs]; rfl, by simp [hs]⟩
    · exact ⟨['t', 't', 'p', 's'], by rw [hs]; rfl, by simp [hs]⟩
  obtain ⟨rest, hrest, hkept⟩ := hscheme
  have hrender : u.render.toList =
      'h' :: (rest ++ "://".toList ++ u.authority.toList ++ u.path.toList) := by
    simp [render, hrest]
  rw [hrender]
  refine cleaned_eq_self (by decide) fun c hc ↦ ?_
  rw [← List.cons_append, ← List.cons_append, ← List.cons_append, ← hrest] at hc
  simp only [List.mem_append] at hc
  rcases hc with ((hc | hc) | hc) | hc
  · exact hkept c hc
  · have hseparator : ∀ c ∈ "://".toList, c ∉ ['\t', '\r', '\n'] := by simp
    exact hseparator c hc
  · exact (h.authority c hc).1.kept
  · exact (h.path c hc).kept

/-- The text of a web address is taken apart into its parts, but for the parameters of the path. -/
theorem split_render {u : Url} (h : u.IsWeb) :
    split u.render = .ok { u with
      path := String.ofList (cutPath u.scheme.toList u.path.toList) } := by
  have hrender : u.render.toList =
      u.scheme.toList ++ ':' :: '/' :: '/' :: (u.authority.toList ++ u.path.toList) := by
    simp [render]
  have hlookalikes : (u.authority.toList.any fun c ↦ lookalikes.contains c.toNat) = false := by
    rw [List.any_eq_false]
    intro c hc
    simpa using h.lookalikes c hc
  rw [split, cleaned_render h, hrender, cutScheme_of_web h.scheme]
  simp only [cutAuthority_append h.authority h.rooted, h.brackets, hlookalikes]
  simp [bind, Except.bind, pure, Except.pure]

/-- The characters of a path are inert if those before and behind its last slash are. -/
theorem isInert_of_mem_append {front last : List Char} {c : Char}
    (hfront : ∀ c ∈ front, IsInert c) (hlast : ∀ c ∈ last, IsInert c)
    (hc : c ∈ front ++ '/' :: last) : IsInert c := by
  rcases List.mem_append.mp hc with hc | hc
  · exact hfront c hc
  · rcases List.mem_cons.mp hc with rfl | hc
    · exact isInert_slash
    · exact hlast c hc

/-- From the path of a web address only the parameters of the last segment are cut off. -/
theorem cutPath_append {scheme : String} (hscheme : scheme = "http" ∨ scheme = "https")
    {front last : List Char} (hfront : ∀ c ∈ front, IsInert c)
    (hlast : ∀ c ∈ last, IsInert c ∧ c ≠ '/') :
    cutPath scheme.toList (front ++ '/' :: last) = front ++ '/' :: last.takeWhile (· != ';') := by
  have hinert : ∀ c ∈ front ++ '/' :: last, IsInert c :=
    fun c hc ↦ isInert_of_mem_append hfront (fun d hd ↦ (hlast d hd).1) hc
  have hquery : (front ++ '/' :: last).takeWhile (· != '?') = front ++ '/' :: last := by
    refine List.takeWhile_eq_self_iff.mpr fun c hc ↦ ?_
    simpa using (hinert c hc).query
  have hfragment : (front ++ '/' :: last).takeWhile (· != '#') = front ++ '/' :: last := by
    refine List.takeWhile_eq_self_iff.mpr fun c hc ↦ ?_
    simpa using (hinert c hc).fragment
  have hfinal : ((front ++ '/' :: last).reverse.takeWhile (· != '/')).reverse = last := by
    have hsegment : ∀ c ∈ last.reverse, (c != '/') = true := by
      intro c hc
      simpa using (hlast c (List.mem_reverse.mp hc)).2
    rw [List.reverse_append, List.reverse_cons, List.append_assoc,
      List.takeWhile_append_of_pos hsegment]
    simp
  have hweb : ["", "http", "https"].contains scheme = true := by
    rcases hscheme with rfl | rfl <;> rfl
  rw [cutPath, hfragment, hquery, hfinal, String.ofList_toList, hweb, Bool.true_and]
  split
  · have hlength : (front ++ '/' :: last).length - last.length = (front ++ ['/']).length := by
      simp only [List.length_append, List.length_cons, List.length_nil]
      omega
    rw [hlength, List.append_cons front '/' last, List.take_left, ← List.append_cons]
  · next hnone =>
    have hself : last.takeWhile (· != ';') = last := by
      refine List.takeWhile_eq_self_iff.mpr fun c hc ↦ ?_
      rw [bne_iff_ne]
      rintro rfl
      exact hnone (List.contains_iff_mem.mpr hc)
    rw [hself]

/-! ## Addresses that were taken apart -/

/-- The parts of an address: its authority is in order, and nothing in its path starts a query or a
fragment. -/
structure IsSplit (u : Url) : Prop where
  authority : IsAuthority u.authority
  path : ∀ c ∈ u.path.toList, IsInert c

/-- No tabulator or line break is left in a clean text. -/
theorem kept_of_mem_cleaned {text : List Char} {c : Char} (h : c ∈ cleaned text) :
    c ∉ ['\t', '\r', '\n'] := by
  have hkept := (List.mem_filter.mp h).2
  simpa [and_assoc] using hkept

/-- What follows the scheme is a part of the text. -/
theorem mem_of_mem_cutScheme {text : List Char} {c : Char} (h : c ∈ (cutScheme text).2) :
    c ∈ text := by
  unfold cutScheme at h
  split at h
  · next first scheme rest hcut =>
    split at h
    · rw [eq_of_cutAt? hcut]
      exact List.mem_append_right _ h
    · exact h
  · exact h

/-- The authority is a part of the text in which no path, no query and no fragment starts. -/
theorem of_mem_cutAuthority {text : List Char} {c : Char} (h : c ∈ (cutAuthority text).1) :
    c ∈ text ∧ c ≠ '/' ∧ c ≠ '?' ∧ c ≠ '#' := by
  unfold cutAuthority at h
  split at h
  · next rest =>
    refine ⟨?_, ?_⟩
    · exact List.mem_cons_of_mem _ (List.mem_cons_of_mem _ (List.takeWhile_prefix _ |>.subset h))
    · have hinside := List.mem_takeWhile_imp h
      simpa [and_assoc] using hinside
  · cases h

/-- What follows the authority is a part of the text. -/
theorem mem_of_mem_cutAuthority {text : List Char} {c : Char} (h : c ∈ (cutAuthority text).2) :
    c ∈ text := by
  unfold cutAuthority at h
  split at h
  · exact List.mem_cons_of_mem _ (List.mem_cons_of_mem _ ((List.dropWhile_suffix _).subset h))
  · exact h

/-- The path is a part of the text in which neither a query nor a fragment starts. -/
theorem of_mem_cutPath {scheme rest : List Char} {c : Char} (h : c ∈ cutPath scheme rest) :
    c ∈ rest ∧ c ≠ '?' ∧ c ≠ '#' := by
  have hpath : c ∈ (rest.takeWhile (· != '#')).takeWhile (· != '?') := by
    unfold cutPath at h
    dsimp only at h
    split at h
    · rcases List.mem_append.mp h with h | h
      · exact List.mem_of_mem_take h
      · have hfinal := (List.takeWhile_prefix _).subset h
        exact List.mem_reverse.mp ((List.takeWhile_prefix _).subset (List.mem_reverse.mp hfinal))
    · exact h
  have hfront := (List.takeWhile_prefix _).subset hpath
  have hquery := List.mem_takeWhile_imp hpath
  have hfragment := List.mem_takeWhile_imp hfront
  exact ⟨(List.takeWhile_prefix _).subset hfront, by simpa using hquery, by simpa using hfragment⟩

/-- The parts of an address that can be taken apart are in order. -/
theorem isSplit_of_split {text : String} {u : Url} (h : split text = .ok u) : u.IsSplit := by
  have hclean (c : Char) (hc : c ∈ (cutScheme (cleaned text.toList)).2) : c ∉ ['\t', '\r', '\n'] :=
    kept_of_mem_cleaned (mem_of_mem_cutScheme hc)
  unfold split at h
  simp only [bind, Except.bind, pure, Except.pure, throw, throwThe, MonadExceptOf.throw] at h
  split at h
  · cases h
  · next hbrackets =>
    split at h
    · cases h
    · next hlookalikes =>
      obtain rfl := Except.ok.inj h
      refine ⟨⟨fun c hc ↦ ?_, ?_, fun c hc ↦ ?_⟩, fun c hc ↦ ?_⟩
      · rw [String.toList_ofList] at hc
        obtain ⟨hmem, hslash, hquery, hfragment⟩ := of_mem_cutAuthority hc
        exact ⟨⟨hquery, hfragment, hclean c hmem⟩, hslash⟩
      · rw [String.toList_ofList]
        exact hbrackets
      · rw [String.toList_ofList] at hc
        rw [Bool.not_eq_true, List.any_eq_false] at hlookalikes
        simpa using hlookalikes c hc
      · rw [String.toList_ofList] at hc
        obtain ⟨hmem, hquery, hfragment⟩ := of_mem_cutPath hc
        exact ⟨hquery, hfragment, hclean c (mem_of_mem_cutAuthority hmem)⟩

end RepoManifest.Url
