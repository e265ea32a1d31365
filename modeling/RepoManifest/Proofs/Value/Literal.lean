import RepoManifest.Proofs.Value.Numeral
import RepoManifest.Proofs.Value.Plain
import RepoManifest.Value.Text

/-!
# Source forms are printable

Numbers, days and times are written in printable characters, and texts and bytes are quoted. What a
source form holds as it is are the names inside a value: of types, of fields and of members. So the
source form of plain data is printable, whatever words are in it.
-/

namespace RepoManifest

open Text

/-! ## Days and times -/

/-- A padded number is printable. -/
theorem printable_paddedNat (width n : Nat) : Printable (paddedNat width n) := by
  rw [paddedNat, printable_ofList]
  exact fun _ ↦ isPrintable_of_mem_padded (by decide) (by decide)

/-- Days are printable. -/
theorem Date.printable_display (d : Date) : Printable d.display := by
  have hdash : Printable "-" := by decide
  simp only [display, printable_append, printable_paddedNat, hdash, and_self]

/-- The numbers of a day are printable. -/
theorem Date.printable_of_mem_arguments (d : Date) : ∀ t ∈ d.arguments, Printable t := by
  simp only [arguments, List.forall_mem_cons, printable_toString_nat, List.not_mem_nil,
    false_implies, implies_true, and_self]

/-- Times are printable. -/
theorem TimeOfDay.printable_display (t : TimeOfDay) : Printable t.display := by
  have hcolon : Printable ":" := by decide
  have hpoint : Printable "." := by decide
  unfold display
  split <;> simp only [printable_append, printable_paddedNat, hcolon, hpoint, and_self]

/-- The numbers of a time are printable. -/
theorem TimeOfDay.printable_of_mem_arguments (t : TimeOfDay) :
    ∀ s ∈ t.arguments, Printable s := by
  unfold arguments
  split_ifs <;>
    simp only [List.forall_mem_append, List.forall_mem_cons, printable_toString_nat,
      List.not_mem_nil, false_implies, implies_true, and_self]

/-! ## Values -/

/-- Whether the names that a type declares are printable: its own, those of its fields, and the
words of their registries. -/
def ObjectType.PrintableNames (type : ObjectType) : Prop :=
  Printable type.name ∧ ∀ f ∈ type.fields, Printable f.name ∧
    ∀ r ∈ f.registry, ∀ word ∈ r.values, Printable word

instance (type : ObjectType) : Decidable type.PrintableNames :=
  inferInstanceAs (Decidable (_ ∧ ∀ f ∈ type.fields, _ ∧ ∀ r ∈ f.registry, ∀ word ∈ r.values, _))

namespace Value

mutual

/-- Whether the names inside a value are printable: of types, of fields and of members. -/
def PrintableNames : Value → Prop
  | .tuple items | .list items | .set items => AllPrintableNames items
  | .map entries => EntriesPrintableNames entries
  | .member type name value => Printable type ∧ Printable name ∧ PrintableNames value
  | .object type _ values => type.PrintableNames ∧ AllPrintableNames values
  | _ => True

/-- Whether the names inside all values of a list are printable. -/
def AllPrintableNames : List Value → Prop
  | [] => True
  | v :: rest => PrintableNames v ∧ AllPrintableNames rest

/-- Whether the names inside all keys and values of a mapping are printable. -/
def EntriesPrintableNames : List (Value × Value) → Prop
  | [] => True
  | (k, v) :: rest => PrintableNames k ∧ PrintableNames v ∧ EntriesPrintableNames rest

end

/-- The names in a list are printable exactly if those in each value are. -/
theorem allPrintableNames_iff {items : List Value} :
    AllPrintableNames items ↔ ∀ v ∈ items, v.PrintableNames := by
  induction items with
  | nil => simp [AllPrintableNames]
  | cons v rest ih => rw [AllPrintableNames, ih, List.forall_mem_cons]

mutual

/-- Plain data holds no names. -/
theorem printableNames_of_isPlain : ∀ {v : Value}, v.isPlain = true → v.PrintableNames
  | .tuple items, h | .list items, h | .set items, h => by
    rw [PrintableNames]
    exact allPrintableNames_of_arePlain h
  | .map entries, h => by
    rw [PrintableNames]
    exact entriesPrintableNames_of_arePlain h
  | .member _ _ _, h => by cases h
  | .object _ _ _, h => by cases h
  | .null, _ | .bool _, _ | .int _, _ | .double _, _ | .str _, _ | .bytes _, _ | .date _, _
  | .datetime _ _, _ => trivial

/-- Lists of plain data hold no names. -/
theorem allPrintableNames_of_arePlain :
    ∀ {items : List Value}, arePlain items = true → AllPrintableNames items
  | [], _ => trivial
  | v :: rest, h => by
    rw [arePlain, Bool.and_eq_true] at h
    exact ⟨printableNames_of_isPlain h.1, allPrintableNames_of_arePlain h.2⟩

/-- Mappings of plain data hold no names. -/
theorem entriesPrintableNames_of_arePlain :
    ∀ {entries : List (Value × Value)}, entriesArePlain entries = true →
      EntriesPrintableNames entries
  | [], _ => trivial
  | (k, v) :: rest, h => by
    rw [entriesArePlain, Bool.and_eq_true, Bool.and_eq_true] at h
    exact ⟨printableNames_of_isPlain h.1.1, printableNames_of_isPlain h.1.2,
      entriesPrintableNames_of_arePlain h.2⟩

end

/-- Printable texts are printable in brackets. -/
theorem printable_bracketed {opening closing : String} {items : List String}
    (hopening : Printable opening) (hclosing : Printable closing)
    (h : ∀ t ∈ items, Printable t) : Printable (bracketed opening closing items) := by
  simp only [bracketed, printable_append]
  exact ⟨⟨hopening, printable_intercalate (by decide) h⟩, hclosing⟩

/-- Printable texts are printable as a tuple. -/
theorem printable_tupleText {items : List String} (h : ∀ t ∈ items, Printable t) :
    Printable (tupleText items) := by
  unfold tupleText
  split
  · next item =>
    simp only [printable_append]
    exact ⟨⟨by decide, h item (List.mem_singleton_self item)⟩, by decide⟩
  · exact printable_bracketed (by decide) (by decide) h

mutual

/-- The source form of a value with printable names is printable. -/
theorem printable_literal : ∀ {v : Value}, v.PrintableNames → Printable v.literal
  | .null, _ => by decide
  | .bool b, _ => by cases b <;> decide
  | .int n, _ => printable_toString_int n
  | .double d, _ => d.printable_text
  | .str s, _ => printable_quote s
  | .bytes b, _ => printable_quoteBytes b
  | .date d, _ => printable_bracketed (by decide) (by decide) d.printable_of_mem_arguments
  | .datetime d t, _ =>
    printable_bracketed (by decide) (by decide) (List.forall_mem_append.mpr
      ⟨d.printable_of_mem_arguments, t.printable_of_mem_arguments⟩)
  | .tuple items, h => by
    rw [PrintableNames] at h
    exact printable_tupleText (printable_of_mem_literals h)
  | .list items, h => by
    rw [PrintableNames] at h
    exact printable_bracketed (by decide) (by decide) (printable_of_mem_literals h)
  | .set [], _ => by decide
  | .set (_ :: _), h => by
    rw [PrintableNames] at h
    exact printable_bracketed (by decide) (by decide) (printable_of_mem_literals h)
  | .map entries, h => by
    rw [PrintableNames] at h
    exact printable_bracketed (by decide) (by decide) (printable_of_mem_entryLiterals h)
  | .member type name value, h => by
    rw [PrintableNames] at h
    obtain ⟨htype, hname, hvalue⟩ := h
    simp only [literal, printable_append]
    exact ⟨⟨⟨⟨⟨⟨by decide, htype⟩, by decide⟩, hname⟩, by decide⟩, printable_literal hvalue⟩,
      by decide⟩
  | .object type _ values, h => by
    rw [PrintableNames] at h
    obtain ⟨⟨htype, hfields⟩, hvalues⟩ := h
    refine printable_bracketed (printable_append.mpr ⟨htype, by decide⟩) (by decide) ?_
    refine printable_of_mem_fieldLiterals (fun name hname ↦ ?_) hvalues
    obtain ⟨f, hf, rfl⟩ := List.mem_map.mp hname
    exact (hfields f hf).1

/-- The source forms of a list of values are printable. -/
theorem printable_of_mem_literals :
    ∀ {items : List Value}, AllPrintableNames items → ∀ t ∈ literals items, Printable t
  | [], _ => fun _ ht ↦ absurd ht List.not_mem_nil
  | _ :: _, ⟨hv, hrest⟩ =>
    List.forall_mem_cons.mpr ⟨printable_literal hv, printable_of_mem_literals hrest⟩

/-- The source forms of the entries of a mapping are printable. -/
theorem printable_of_mem_entryLiterals :
    ∀ {entries : List (Value × Value)}, EntriesPrintableNames entries →
      ∀ t ∈ entryLiterals entries, Printable t
  | [], _ => fun _ ht ↦ absurd ht List.not_mem_nil
  | (k, v) :: rest, ⟨hk, hv, hrest⟩ => by
    refine List.forall_mem_cons.mpr ⟨?_, printable_of_mem_entryLiterals hrest⟩
    simp only [printable_append]
    exact ⟨⟨printable_literal hk, by decide⟩, printable_literal hv⟩

/-- The source forms of named fields are printable. -/
theorem printable_of_mem_fieldLiterals :
    ∀ {names : List String} {values : List Value}, (∀ n ∈ names, Printable n) →
      AllPrintableNames values → ∀ t ∈ fieldLiterals names values, Printable t
  | [], _, _, _ => fun _ ht ↦ absurd ht (by simp [fieldLiterals])
  | _ :: _, [], _, _ => fun _ ht ↦ absurd ht (by simp [fieldLiterals])
  | name :: names, v :: rest, hnames, ⟨hv, hrest⟩ => by
    obtain ⟨hname, hnames⟩ := List.forall_mem_cons.mp hnames
    refine List.forall_mem_cons.mpr ⟨?_, printable_of_mem_fieldLiterals hnames hrest⟩
    simp only [printable_append]
    exact ⟨⟨hname, by decide⟩, printable_literal hv⟩

end

end Value
end RepoManifest
