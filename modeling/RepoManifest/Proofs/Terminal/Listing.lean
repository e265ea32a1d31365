import Mathlib.Data.List.Forall2
import RepoManifest.Proofs.Text.Printable
import RepoManifest.Terminal.Listing

/-!
# Lines of a listing

A listing has a line for its name, then one for each attribute, key and team, in this order. Keys
of attributes are padded, so that the equals signs stand in one column. Texts stand in the lines as
they are: of the characters that are not printable, a listing has exactly those of the texts that it
shows. So the text of a listing has one line more than the listing for each line break in them.
-/

namespace RepoManifest

open Text

/-! ## Columns -/

namespace Terminal

/-- No key is longer than the width of the keys. -/
theorem length_le_keyWidth {items : List (String × String)} {item : String × String}
    (h : item ∈ items) : item.1.length ≤ keyWidth items := by
  have hmem : item.1.length ∈ items.map (·.1.length) := List.mem_map.mpr ⟨item, h, rfl⟩
  rw [keyWidth, List.foldl_max]
  exact Nat.le_trans (List.le_max?_getD_of_mem hmem) (Nat.le_max_right ..)

/-- A padded key is the key and blanks behind it. -/
theorem toList_padRight (width : Nat) (key : String) :
    (padRight width key).toList = key.toList ++ List.replicate (width - key.length) ' ' := by
  rw [padRight, String.toList_append, String.toList_ofList]

/-- A key is padded to the width, if it is not longer. -/
theorem length_padRight {width : Nat} {key : String} (h : key.length ≤ width) :
    (padRight width key).length = width := by
  rw [padRight, String.length_append, String.length_ofList, List.length_replicate]
  omega

/-- A line shows an attribute with its first equals sign in a column: the name with blanks around
it, the equals sign, and the value. -/
def ShowsAt (column : Nat) (a : String × String) (line : String) : Prop :=
  ∃ blanks, (∀ c ∈ blanks.toList, c = ' ') ∧
    let front := "    " ++ a.1 ++ blanks
    line = front ++ " = " ++ a.2 ∧ front.length = column ∧ '=' ∉ front.toList

end Terminal

namespace Listing

open Terminal

/-! ## Parts -/

/-- The line of a listing's name. -/
def header (l : Listing) (colour : Bool) : String :=
  Style.applyIf { bold := true } colour ("repository." ++ l.name)

/-- The lines of a listing's attributes. -/
def attributeLines (l : Listing) : List String :=
  (align l.attributes).map fun (k, v) ↦ "    " ++ k ++ " = " ++ v

/-- The line of a key with a name and an access. -/
def keyLine (name access : String) : String := "    deploy_key." ++ name ++ " (" ++ access ++ ")"

/-- The lines of a listing's keys. -/
def keyLines (l : Listing) : List String := l.keys.map fun (name, readOnly) ↦
  keyLine name (access readOnly)

/-- The line of a team with a name and a permission. -/
def teamLine (name permission : String) : String := "    team." ++ name ++ " (" ++ permission ++ ")"

/-- The lines of a listing's teams. -/
def teamLines (l : Listing) : List String := l.teams.map fun (name, permission) ↦
  teamLine name permission

/-- The lines of a listing in order. Only that of the name can be coloured. -/
theorem lines_eq (l : Listing) (colour : Bool) :
    l.lines colour = l.header colour :: (l.attributeLines ++ l.keyLines ++ l.teamLines) := rfl

/-- A listing has a line for its name and one for each attribute, key and team. -/
theorem length_lines (l : Listing) (colour : Bool) :
    (l.lines colour).length =
      1 + l.attributes.length + l.keys.length + l.teams.length := by
  simp only [lines_eq, attributeLines, keyLines, teamLines, align, List.length_cons,
    List.length_append, List.length_map]
  omega

/-- The attributes are shown in order with their equals signs in one column, if there are none in
their names. -/
theorem forall₂_attributeLines {l : Listing} (hnames : ∀ a ∈ l.attributes, '=' ∉ a.1.toList) :
    List.Forall₂ (ShowsAt (4 + keyWidth l.attributes)) l.attributes l.attributeLines := by
  rw [attributeLines, align, List.map_map, List.forall₂_map_right_iff, List.forall₂_same]
  intro a ha
  have hlength := length_padRight (length_le_keyWidth ha)
  refine ⟨String.ofList (List.replicate (keyWidth l.attributes - a.1.length) ' '), ?_, ?_, ?_, ?_⟩
  · rw [String.toList_ofList]
    exact fun _ ↦ List.eq_of_mem_replicate
  · simp only [Function.comp_apply, padRight, String.append_assoc]
  · rw [String.append_assoc, ← padRight, String.length_append, hlength]
    rfl
  · simp only [String.toList_append, String.toList_ofList, List.mem_append, not_or]
    exact ⟨⟨by decide, hnames a ha⟩, fun h ↦ absurd (List.eq_of_mem_replicate h) (by decide)⟩

/-! ## What a listing shows -/

/-- The texts that a listing shows. -/
def texts (l : Listing) : List String :=
  l.name :: (l.attributes.flatMap (fun (_, value) ↦ [value]) ++
    l.keys.flatMap (fun (name, _) ↦ [name]) ++
    l.teams.flatMap fun (name, permission) ↦ [name, permission])

variable {l : Listing} {c : Char}

/-- Blanks hold no character that is not printable. -/
theorem count_replicate_blank (hc : isPrintable c = false) (n : Nat) :
    (List.replicate n ' ').count c = 0 := by
  refine List.count_eq_zero.mpr fun h ↦ ?_
  rw [List.eq_of_mem_replicate h] at hc
  exact absurd hc (by decide)

/-- The line of an attribute with a printable name shows its value. -/
theorem count_attributeLine (hc : isPrintable c = false) {name : String} (hname : Printable name)
    (width : Nat) (value : String) :
    ("    " ++ padRight width name ++ " = " ++ value).toList.count c = value.toList.count c := by
  have hindent : Printable "    " := by decide
  have hequals : Printable " = " := by decide
  simp only [String.toList_append, toList_padRight, List.count_append, hindent.count_eq_zero hc,
    hname.count_eq_zero hc, count_replicate_blank hc, hequals.count_eq_zero hc, Nat.zero_add]

/-- The line of a key with a printable access shows its name. -/
theorem count_keyLine (hc : isPrintable c = false) (name : String) {access : String}
    (haccess : Printable access) : (keyLine name access).toList.count c = name.toList.count c := by
  have hfront : Printable "    deploy_key." := by decide
  have hopening : Printable " (" := by decide
  have hclosing : Printable ")" := by decide
  unfold keyLine
  simp only [String.toList_append, List.count_append, hfront.count_eq_zero hc,
    hopening.count_eq_zero hc, haccess.count_eq_zero hc, hclosing.count_eq_zero hc, Nat.zero_add,
    Nat.add_zero]

/-- The line of a team shows its name and its permission. -/
theorem count_teamLine (hc : isPrintable c = false) (name permission : String) :
    (teamLine name permission).toList.count c =
      name.toList.count c + permission.toList.count c := by
  have hfront : Printable "    team." := by decide
  have hopening : Printable " (" := by decide
  have hclosing : Printable ")" := by decide
  unfold teamLine
  simp only [String.toList_append, List.count_append, hfront.count_eq_zero hc,
    hopening.count_eq_zero hc, hclosing.count_eq_zero hc, Nat.zero_add, Nat.add_zero]

/-- An access is worded in printable characters. -/
theorem printable_access (readOnly : Bool) : Printable (access readOnly) := by
  unfold access
  split <;> decide

/-- Of the characters that are not printable, a listing has those of the texts that it shows. -/
theorem occurrences_lines (hnames : ∀ a ∈ l.attributes, Printable a.1)
    (hc : isPrintable c = false) :
    occurrences c (l.lines false) = occurrences c l.texts := by
  have hheader : (l.header false).toList.count c = l.name.toList.count c := by
    have hfront : Printable "repository." := by decide
    rw [header, Style.applyIf, if_neg Bool.false_ne_true, String.toList_append, List.count_append,
      hfront.count_eq_zero hc, Nat.zero_add]
  have hattributes : occurrences c l.attributeLines =
      occurrences c (l.attributes.flatMap fun (_, value) ↦ [value]) := by
    rw [attributeLines, align, List.map_map]
    exact occurrences_map fun (name, value) ha ↦
      (count_attributeLine hc (hnames _ ha) _ value).trans occurrences_singleton.symm
  have hkeys : occurrences c l.keyLines =
      occurrences c (l.keys.flatMap fun (name, _) ↦ [name]) :=
    occurrences_map fun (name, readOnly) _ ↦
      (count_keyLine hc name (printable_access readOnly)).trans occurrences_singleton.symm
  have hteams : occurrences c l.teamLines =
      occurrences c (l.teams.flatMap fun (name, permission) ↦ [name, permission]) :=
    occurrences_map fun (name, permission) _ ↦ by
      rw [occurrences_cons, occurrences_singleton]
      exact count_teamLine hc name permission
  rw [lines_eq, texts, occurrences_cons, occurrences_append, occurrences_append, hheader,
    hattributes, hkeys, hteams, occurrences_cons, occurrences_append, occurrences_append]

/-- A listing holds a character that is not printable exactly if a text that it shows holds it. -/
theorem not_mem_lines_iff (hnames : ∀ a ∈ l.attributes, Printable a.1)
    (hc : isPrintable c = false) :
    (∀ line ∈ l.lines false, c ∉ line.toList) ↔ ∀ t ∈ l.texts, c ∉ t.toList := by
  rw [← occurrences_eq_zero_iff, occurrences_lines hnames hc, occurrences_eq_zero_iff]

/-! ## Cutting at line breaks -/

/-- The characters of a listing are those of its lines with a line break between each two. -/
theorem toList_render (l : Listing) (colour : Bool) :
    (l.render colour).toList = ['\n'].intercalate ((l.lines colour).map (·.toList)) := by
  rw [render, String.toList_intercalate]
  rfl

/-- Cut at its line breaks, a listing has its lines, and one more for each line break in a text that
it shows. -/
theorem length_parts_render (hnames : ∀ a ∈ l.attributes, Printable a.1) :
    (parts '\n' (l.render false).toList).length =
      (l.lines false).length + occurrences '\n' l.texts := by
  have hne : (l.lines false).map (·.toList) ≠ [] := List.cons_ne_nil _ _
  rw [length_parts, toList_render, count_intercalate hne, List.length_map,
    ← occurrences_lines hnames (by decide), occurrences, List.flatMap_def]

/-- Cutting a listing at its line breaks gives its lines back exactly if no text that it shows has
one. -/
theorem parts_render_eq_iff (hnames : ∀ a ∈ l.attributes, Printable a.1) :
    parts '\n' (l.render false).toList = (l.lines false).map (·.toList) ↔
      ∀ t ∈ l.texts, '\n' ∉ t.toList := by
  have hne : (l.lines false).map (·.toList) ≠ [] := List.cons_ne_nil _ _
  rw [toList_render, parts_intercalate_eq_iff hne, List.forall_mem_map,
    not_mem_lines_iff hnames (by decide)]

end Listing

/-! ## Entries -/

/-- A text that may be unset is shown as itself, or by a mark that is printable. -/
theorem Value.count_shown_ofText? {c : Char} (hc : isPrintable c = false) (x : Option String) :
    (ofText? x).shown.toList.count c = occurrences c x.toList := by
  cases x with
  | none =>
    have hunset : Printable "(unset)" := by decide
    exact hunset.count_eq_zero hc
  | some text =>
    have hquote : Printable "\"" := by decide
    exact (count_between hquote hquote hc).trans occurrences_singleton.symm

/-- A flag is shown in printable characters. -/
theorem Value.printable_shown_bool (b : Bool) : Printable (bool b).shown := by
  unfold shown unwrapped
  cases b <;> decide

namespace RepositoryEntry

open Listing Terminal

/-- The names under which a listing shows attributes of an entry. -/
def attributeNames : List String :=
  ["visibility", "default_branch", "description", "license_template", "auto_init"]

/-- The number of attributes of an entry that a listing shows: two, and those that are set among the
description, the licence template and the flag for a first commit. -/
def attributeCount (e : RepositoryEntry) : Nat :=
  2 + [e.description.isSome, e.options.licenseTemplate.isSome, e.options.autoInit.isSome].count true

/-- The texts of an entry that a listing shows. -/
def shownTexts (e : RepositoryEntry) : List String :=
  e.name :: (e.visibility.toList ++ e.defaultBranch.toList ++ e.description.toList ++
    e.options.licenseTemplate.toList ++ e.deployKeys.map (·.name) ++
    e.teams.flatMap fun t ↦ t.name :: t.permission.toList)

variable (e : RepositoryEntry)

/-- The attributes that a listing shows of an entry. -/
theorem attributes_listing :
    e.listing.attributes =
      [("visibility", (Value.ofText? e.visibility).shown),
        ("default_branch", (Value.ofText? e.defaultBranch).shown)] ++
      e.description.toList.map (fun text ↦ ("description", (Value.str text).shown)) ++
      e.options.licenseTemplate.toList.map
        (fun word ↦ ("license_template", (Value.str word).shown)) ++
      e.options.autoInit.toList.map (fun flag ↦ ("auto_init", (Value.bool flag).shown)) := by
  obtain ⟨⟨name, description, branch, visibility⟩, ⟨autoInit, license⟩, keys, teams⟩ := e
  cases description <;> cases license <;> cases autoInit <;> rfl

/-- A listing shows as many attributes of an entry as there are to show. -/
theorem length_attributes : e.listing.attributes.length = e.attributeCount := by
  rw [attributes_listing, attributeCount]
  cases e.description <;> cases e.options.licenseTemplate <;> cases e.options.autoInit <;> rfl

/-- Attributes are shown under their names. -/
theorem name_mem_attributeNames {e : RepositoryEntry} {a : String × String}
    (h : a ∈ e.listing.attributes) : a.1 ∈ attributeNames := by
  simp only [attributes_listing, List.mem_append, List.mem_cons, List.not_mem_nil, or_false,
    List.mem_map] at h
  rcases h with (((rfl | rfl) | ⟨_, _, rfl⟩) | ⟨_, _, rfl⟩) | ⟨_, _, rfl⟩ <;> simp [attributeNames]

/-- The names of attributes are printable and hold no equals sign. -/
theorem name_of_mem_attributes {e : RepositoryEntry} {a : String × String}
    (h : a ∈ e.listing.attributes) : Printable a.1 ∧ '=' ∉ a.1.toList := by
  have hnames : ∀ name ∈ attributeNames, Printable name ∧ '=' ∉ name.toList := by decide
  exact hnames a.1 (name_mem_attributeNames h)

/-- Of the characters that are not printable, the listing of an entry shows those of its texts. -/
theorem occurrences_texts {c : Char} (hc : isPrintable c = false) :
    occurrences c e.listing.texts = occurrences c e.shownTexts := by
  have hset (name : String) (x : Option String) :
      occurrences c ((x.toList.map fun text ↦ (name, (Value.str text).shown)).flatMap
        fun (_, value) ↦ [value]) = occurrences c x.toList := by
    cases x with
    | none => rfl
    | some text => exact occurrences_singleton.trans (Value.count_shown_ofText? hc (some text))
  have hflag : occurrences c ((e.options.autoInit.toList.map fun flag ↦
      ("auto_init", (Value.bool flag).shown)).flatMap fun (_, value) ↦ [value]) = 0 := by
    cases e.options.autoInit with
    | none => rfl
    | some flag =>
      exact occurrences_singleton.trans ((Value.printable_shown_bool flag).count_eq_zero hc)
  have hattributes : occurrences c (e.listing.attributes.flatMap fun (_, value) ↦ [value]) =
      occurrences c (e.visibility.toList ++ e.defaultBranch.toList ++ e.description.toList ++
        e.options.licenseTemplate.toList) := by
    simp only [attributes_listing, List.flatMap_append, occurrences_append, hset, hflag,
      List.flatMap_cons, List.flatMap_nil, List.append_nil, occurrences_singleton,
      Value.count_shown_ofText? hc, Nat.add_zero]
  have hkeys : occurrences c (e.listing.keys.flatMap fun (name, _) ↦ [name]) =
      occurrences c (e.deployKeys.map (·.name)) := by
    rw [listing, List.flatMap_map, List.map_eq_flatMap]
  have hteams : occurrences c
      (e.listing.teams.flatMap fun (name, permission) ↦ [name, permission]) =
      occurrences c (e.teams.flatMap fun t ↦ t.name :: t.permission.toList) := by
    rw [listing, List.flatMap_map]
    refine occurrences_flatMap fun t _ ↦ ?_
    simp only [occurrences_cons, occurrences_nil, Value.count_shown_ofText? hc, Nat.add_zero]
  rw [texts, shownTexts]
  simp only [occurrences_cons, occurrences_append, hattributes, hkeys, hteams]
  rfl

/-- Lines lay out an entry: its name, its attributes with their equals signs in one column, its keys
and its teams, each in order. -/
def LaidOut (e : RepositoryEntry) (lines : List String) : Prop :=
  ∃ attributes column,
    lines = ("repository." ++ e.name) :: (attributes ++
      e.deployKeys.map (fun k ↦ keyLine k.name (access (k.readOnly.getD false))) ++
      e.teams.map fun t ↦ teamLine t.name (Value.ofText? t.permission).shown) ∧
    attributes.length = e.attributeCount ∧
    List.Forall₂ (ShowsAt column) e.listing.attributes attributes

/-- The lines of its listing lay out an entry. -/
theorem laidOut_lines : e.LaidOut (e.listing.lines false) := by
  have hattributes := forall₂_attributeLines fun a ha ↦ (name_of_mem_attributes (e := e) ha).2
  refine ⟨e.listing.attributeLines, _, ?_, ?_, hattributes⟩
  · rw [lines_eq, header, Style.applyIf, if_neg Bool.false_ne_true, keyLines, teamLines, listing,
      List.map_map, List.map_map]
    rfl
  · rw [← hattributes.length_eq, length_attributes]

/-- A listing has a line for the name of an entry, one for each attribute to show, and one for each
key and team. -/
theorem length_lines_listing (colour : Bool) :
    (e.listing.lines colour).length =
      1 + e.attributeCount + e.deployKeys.length + e.teams.length := by
  rw [length_lines, length_attributes, listing, List.length_map, List.length_map]

end RepositoryEntry
end RepoManifest
