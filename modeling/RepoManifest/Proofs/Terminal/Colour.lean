import RepoManifest.Proofs.Terminal.Listing
import RepoManifest.Proofs.Terminal.Style

/-!
# Coloured text

With colour, what the command line prints has styled parts: the name of a listing, the whole
summary, the names of the vocabularies and the mark of those that are not validated. Each styled
part is styled after it was padded. `Colours` relates a text to what it is without colour; since the
relation goes through whatever stands behind a text, texts put together are related if their parts
are.
-/

namespace RepoManifest

open Text

namespace Terminal

/-! ## Coloured parts -/

/-- A text is another one with colour: that one has no escape character, and it is what is left of
the text without its sequences, in front of whatever follows. -/
structure Colours (coloured plain : String) : Prop where
  clean : '\x1b' ∉ plain.toList
  strip : ∀ rest, stripChars (coloured.toList ++ rest) = plain.toList ++ stripChars rest

namespace Colours

/-- Text without the escape character is itself without colour. -/
theorem refl {text : String} (h : '\x1b' ∉ text.toList) : Colours text text :=
  ⟨h, stripChars_append_of_not_mem h⟩

/-- Styled text is the text without colour. -/
theorem applyIf (style : Style) {text : String} (h : '\x1b' ∉ text.toList) :
    Colours (style.applyIf true text) (style.applyIf false text) :=
  ⟨h, stripChars_apply_append style h⟩

/-- Texts are coloured one behind the other. -/
theorem append {s t s' t' : String} (hs : Colours s s') (ht : Colours t t') :
    Colours (s ++ t) (s' ++ t') where
  clean := by
    rw [String.toList_append, List.mem_append, not_or]
    exact ⟨hs.clean, ht.clean⟩
  strip rest := by
    rw [String.toList_append, String.toList_append, List.append_assoc, List.append_assoc, hs.strip,
      ht.strip]

/-- Texts are coloured one by one between separators without the escape character. -/
theorem intercalate {separator : String} (hseparator : '\x1b' ∉ separator.toList) :
    ∀ {texts texts' : List String}, List.Forall₂ Colours texts texts' →
      Colours (separator.intercalate texts) (separator.intercalate texts')
  | _, _, .nil => refl List.not_mem_nil
  | _, _, .cons h .nil => h
  | _, _, .cons h (.cons hnext hrest) => by
    rw [String.intercalate_cons_cons, String.intercalate_cons_cons]
    exact (h.append (refl hseparator)).append (intercalate hseparator (.cons hnext hrest))

/-- Without its sequences, a coloured text is the text without colour. -/
theorem stripStyles_eq {coloured plain : String} (h : Colours coloured plain) :
    stripStyles coloured = plain := by
  have hchars := h.strip []
  rw [List.append_nil, stripChars, List.append_nil] at hchars
  rw [stripStyles, hchars, String.ofList_toList]

end Colours

/-! ## Rows -/

/-- Rows have the same names, without the escape character, and coloured words. -/
def RowColours (coloured plain : String × String) : Prop :=
  coloured.1 = plain.1 ∧ '\x1b' ∉ plain.1.toList ∧ Colours coloured.2 plain.2

variable {coloured plain : List (String × String)}

/-- Rows with the same names have keys of the same width. -/
theorem keyWidth_eq (h : List.Forall₂ RowColours coloured plain) :
    keyWidth coloured = keyWidth plain := by
  have hnames : coloured.map (·.1.length) = plain.map (·.1.length) := by
    rw [← List.forall₂_eq_eq_eq, List.forall₂_map_left_iff, List.forall₂_map_right_iff]
    exact h.imp fun _ _ hrow ↦ congrArg String.length hrow.1
  rw [keyWidth, keyWidth, hnames]

/-- Padding keeps a name without the escape character. -/
theorem not_mem_padRight {key : String} (h : '\x1b' ∉ key.toList) (width : Nat) :
    '\x1b' ∉ (padRight width key).toList := by
  rw [toList_padRight, List.mem_append, not_or]
  exact ⟨h, fun hblank ↦ absurd (List.eq_of_mem_replicate hblank) (by decide)⟩

/-- Aligned rows have the same names and coloured words. -/
theorem forall₂_align (h : List.Forall₂ RowColours coloured plain) :
    List.Forall₂ RowColours (align coloured) (align plain) := by
  rw [align, align, keyWidth_eq h, List.forall₂_map_left_iff, List.forall₂_map_right_iff]
  exact h.imp fun _ _ hrow ↦
    ⟨congrArg (padRight _) hrow.1, not_mem_padRight hrow.2.1 _, hrow.2.2⟩

/-! ## What the command line prints -/

/-- The summary is coloured, whatever the count is. -/
theorem colours_summary (count : Int) :
    Colours (summary (.int count) true) (summary (.int count) false) := by
  have hfront : Printable "Configuration is valid: " := by decide
  have hblank : Printable " " := by decide
  have hnoun : Printable
      (if (Value.int count).equal (.int 1) then "repository" else "repositories") := by
    split <;> decide
  have hend : Printable "." := by decide
  have htext := printable_append.mpr ⟨printable_append.mpr ⟨printable_append.mpr
    ⟨printable_append.mpr ⟨hfront, printable_toString_int count⟩, hblank⟩, hnoun⟩, hend⟩
  exact .applyIf _ (htext.not_mem (by decide))

/-- The rows of the vocabularies have the same names, and coloured words. -/
theorem forall₂_vocabularyRows :
    List.Forall₂ RowColours (vocabularyRows true) (vocabularyRows false) := by
  have hregistry : ∀ r ∈ registries, '\x1b' ∉ r.name.toList ∧
      '\x1b' ∉ (", ".intercalate r.values).toList := by decide +kernel
  have htransports : '\x1b' ∉ transports.name.toList ∧
      '\x1b' ∉ (", ".intercalate (Transport.all.map Transport.text)).toList := by decide +kernel
  refine List.rel_append ?_ (.cons ⟨rfl, htransports.1, ?_⟩ .nil)
  · rw [List.forall₂_map_left_iff, List.forall₂_map_right_iff, List.forall₂_same]
    exact fun r hr ↦ ⟨rfl, (hregistry r hr).1, .refl (hregistry r hr).2⟩
  · exact (Colours.refl htransports.2).append (.applyIf _ (by decide))

/-- The vocabularies are coloured. -/
theorem colours_vocabulary : Colours (vocabulary true) (vocabulary false) := by
  refine .intercalate (by decide) ?_
  rw [List.forall₂_map_left_iff, List.forall₂_map_right_iff]
  refine (forall₂_align forall₂_vocabularyRows).imp
    fun (name, _) (name', _) ⟨hname, hclean, hwords⟩ ↦ ?_
  obtain rfl : name = name' := hname
  exact ((Colours.applyIf _ hclean).append (.refl (by decide))).append hwords

end Terminal

/-- The listing of an entry is coloured, if no text that it shows has the escape character. -/
theorem RepositoryEntry.colours_render {e : RepositoryEntry}
    (h : ∀ t ∈ e.shownTexts, '\x1b' ∉ t.toList) :
    Terminal.Colours (e.listing.render true) (e.listing.render false) := by
  have hescape : isPrintable '\x1b' = false := by decide
  have hnames : ∀ a ∈ e.listing.attributes, Printable a.1 :=
    fun a ha ↦ (name_of_mem_attributes ha).1
  have hlines : ∀ line ∈ e.listing.lines false, '\x1b' ∉ line.toList := by
    rw [Listing.not_mem_lines_iff hnames hescape, ← occurrences_eq_zero_iff,
      e.occurrences_texts hescape, occurrences_eq_zero_iff]
    exact h
  rw [Listing.lines_eq, List.forall_mem_cons] at hlines
  obtain ⟨hheader, hrest⟩ := hlines
  refine .intercalate (by decide) (.cons (.applyIf _ hheader) ?_)
  exact List.forall₂_same.mpr fun line hline ↦ .refl (hrest line hline)

namespace Terminal

/-- A text with and without colour differs in escape sequences only: without them it is the text
without colour, which has no escape character. -/
def OnlyStyled (text : Bool → String) : Prop :=
  stripStyles (text true) = text false ∧ '\x1b' ∉ (text false).toList

/-- A coloured text differs in escape sequences only. -/
theorem Colours.onlyStyled {text : Bool → String} (h : Colours (text true) (text false)) :
    OnlyStyled text := ⟨h.stripStyles_eq, h.clean⟩

end Terminal

open Terminal

/-- Colour adds escape sequences to the listing of an entry, to every summary and to the
vocabularies, and changes nothing else. All lines of a listing but that of the name are the same,
and so are the padded names of the vocabularies. -/
theorem RepositoryEntry.onlyStyled_output {e : RepositoryEntry}
    (h : ∀ t ∈ e.shownTexts, '\x1b' ∉ t.toList) (count : Int) :
    OnlyStyled e.listing.render ∧ OnlyStyled (summary (.int count)) ∧ OnlyStyled vocabulary ∧
    (e.listing.lines true).tail = (e.listing.lines false).tail ∧
    (align (vocabularyRows true)).map (·.1) = (align (vocabularyRows false)).map (·.1) := by
  refine ⟨(colours_render h).onlyStyled, (colours_summary count).onlyStyled,
    colours_vocabulary.onlyStyled, rfl, ?_⟩
  rw [← List.forall₂_eq_eq_eq, List.forall₂_map_left_iff, List.forall₂_map_right_iff]
  exact (forall₂_align forall₂_vocabularyRows).imp fun _ _ hrow ↦ hrow.1

/-- An entry with a text of two lines, a key and a team. -/
def RepositoryEntry.twoLinesOfText : RepositoryEntry where
  name := "docs"
  description := some "Manual\npages"
  defaultBranch := some "main"
  deployKeys := [⟨"ci", "ssh-rsa A", some true, "deploykey"⟩]
  teams := [⟨"dev", none⟩]

/-- No text of that entry has the escape character, so colour changes nothing else in its
listing. -/
theorem RepositoryEntry.onlyStyled_output_twoLinesOfText :
    (∀ t ∈ twoLinesOfText.shownTexts, '\x1b' ∉ t.toList) ∧
    OnlyStyled twoLinesOfText.listing.render ∧ OnlyStyled (summary (.int 1)) ∧
    OnlyStyled vocabulary ∧
    (twoLinesOfText.listing.lines true).tail = (twoLinesOfText.listing.lines false).tail ∧
    (align (vocabularyRows true)).map (·.1) = (align (vocabularyRows false)).map (·.1) := by
  have h : ∀ t ∈ twoLinesOfText.shownTexts, '\x1b' ∉ t.toList := by decide +kernel
  exact ⟨h, onlyStyled_output h 1⟩

end RepoManifest
