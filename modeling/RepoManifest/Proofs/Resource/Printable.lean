import RepoManifest.Proofs.Resource.Finding
import RepoManifest.Proofs.Validation.Printable

/-!
# Findings are printable

The names on the path of a finding are those of declared fields, and the words that its error lists
are those of a registry. So what is said about a finding is printable, whatever texts the resource
holds.
-/

namespace RepoManifest

open Text

namespace Value

/-! ## Findings -/

/-- What is said about an empty required field is printable. -/
theorem printable_requiredFindings {path : FieldPath} {fields : List (FieldDecl × Value)}
    (hpath : path.PrintableNames) (hfields : ∀ entry ∈ fields, Printable entry.1.name) :
    ∀ f ∈ requiredFindings path fields, Printable f.violation.line := by
  have hempty : Printable FieldError.empty.message := by decide
  intro f hf
  obtain ⟨entry, hmem, hentry⟩ := List.mem_filterMap.mp hf
  obtain ⟨_, hfinding⟩ := Option.ite_none_right_eq_some.mp hentry
  cases hfinding
  exact Violation.printable_line (hpath.name (hfields entry hmem)) trivial hempty

/-- What is said about a restricted field is printable. -/
theorem printable_registryFindings {path : FieldPath} {fields : List (FieldDecl × Value)}
    (hpath : path.PrintableNames) (hfields : ∀ entry ∈ fields, Printable entry.1.name ∧
      (∀ r ∈ entry.1.registry, ∀ word ∈ r.values, Printable word) ∧ entry.2.PrintableNames) :
    ∀ f ∈ registryFindings path fields, Printable f.violation.line := by
  intro f hf
  obtain ⟨⟨d, v⟩, hmem, hentry⟩ := List.mem_filterMap.mp hf
  obtain ⟨hname, hwords, hvalue⟩ := hfields _ hmem
  simp only [registryFinding?] at hentry
  split at hentry
  · cases hentry
  · cases hentry
  · next r hregistry _ =>
    obtain ⟨e, he, rfl⟩ := Option.map_eq_some_iff.mp hentry
    obtain ⟨_, hrefused⟩ := Option.ite_none_left_eq_some.mp he
    cases hrefused
    exact Violation.printable_line (hpath.name hname) hvalue
      (FieldError.printable_notAllowed (hwords r hregistry))

mutual

/-- What is said about the findings of a value with printable names is printable. -/
theorem printable_findings : ∀ {v : Value} {path : FieldPath}, v.PrintableNames →
    path.PrintableNames → ∀ f ∈ findings path v, Printable f.violation.line
  | .object type _ values, path, h, hpath => by
    rw [PrintableNames] at h
    obtain ⟨⟨_, hfields⟩, hvalues⟩ := h
    have hentries : ∀ entry ∈ type.fields.zip values, Printable entry.1.name ∧
        (∀ r ∈ entry.1.registry, ∀ word ∈ r.values, Printable word) ∧
          entry.2.PrintableNames := by
      intro entry hmem
      obtain ⟨hfield, hvalue⟩ := List.of_mem_zip hmem
      obtain ⟨hname, hwords⟩ := hfields _ hfield
      exact ⟨hname, hwords, allPrintableNames_iff.mp hvalues _ hvalue⟩
    simp only [findings, List.forall_mem_append]
    exact ⟨⟨printable_requiredFindings hpath fun entry hmem ↦ (hentries entry hmem).1,
      printable_registryFindings hpath hentries⟩,
      printable_fieldFindings (fun f hf ↦ (hfields f hf).1) hvalues hpath⟩
  | .null, _, _, _ | .bool _, _, _, _ | .int _, _, _, _ | .double _, _, _, _ | .str _, _, _, _
  | .bytes _, _, _, _ | .date _, _, _, _ | .datetime _ _, _, _, _ | .tuple _, _, _, _
  | .list _, _, _, _ | .set _, _, _, _ | .map _, _, _, _ | .member _ _ _, _, _, _ =>
    fun _ hf ↦ absurd hf List.not_mem_nil

/-- What is said about the objects in fields is printable. -/
theorem printable_fieldFindings : ∀ {fields : List FieldDecl} {values : List Value}
    {path : FieldPath}, (∀ f ∈ fields, Printable f.name) → AllPrintableNames values →
      path.PrintableNames → ∀ f ∈ fieldFindings path fields values, Printable f.violation.line
  | [], _, _, _, _, _ => by simp [fieldFindings]
  | _ :: _, [], _, _, _, _ => by simp [fieldFindings]
  | d :: fields, v :: values, path, hfields, ⟨hv, hvalues⟩, hpath => by
    obtain ⟨hd, hfields⟩ := List.forall_mem_cons.mp hfields
    have hrest := printable_fieldFindings hfields hvalues hpath
    have hown := printable_findings hv (hpath.name hd)
    cases v with
    | list items =>
      rw [PrintableNames] at hv
      have hitems := printable_itemFindings (i := 0) hv (hpath.name hd)
      simp only [fieldFindings, List.forall_mem_append]
      exact ⟨hitems, hrest⟩
    | _ =>
      simp only [fieldFindings, List.forall_mem_append]
      exact ⟨hown, hrest⟩

/-- What is said about the objects in a list is printable. -/
theorem printable_itemFindings : ∀ {items : List Value} {path : FieldPath} {i : Nat},
    AllPrintableNames items → path.PrintableNames →
      ∀ f ∈ itemFindings path i items, Printable f.violation.line
  | [], _, _, _, _ => fun _ hf ↦ absurd hf List.not_mem_nil
  | _ :: _, _, i, ⟨hv, hrest⟩, hpath => by
    rw [itemFindings, List.forall_mem_append]
    exact ⟨printable_findings hv (hpath.index i), printable_itemFindings hrest hpath⟩

end

end Value

/-! ## Resources -/

/-- A text that may be unset holds no names. -/
theorem Value.printableNames_ofText? (s : Option String) : (ofText? s).PrintableNames := by
  cases s <;> trivial

/-- A flag that may be unset holds no names. -/
theorem Value.printableNames_ofFlag? (b : Option Bool) : (ofFlag? b).PrintableNames := by
  cases b <;> trivial

/-- The names in a deploy key are printable. -/
theorem DeployKey.printableNames_toObject (k : DeployKey) : k.toObject.PrintableNames :=
  ⟨by decide, trivial, trivial, Value.printableNames_ofFlag? _, trivial, trivial⟩

/-- The names in a team grant are printable. -/
theorem TeamAccess.printableNames_toObject (t : TeamAccess) : t.toObject.PrintableNames :=
  ⟨by decide, trivial, Value.printableNames_ofText? _, trivial⟩

/-- The names in creation options are printable. -/
theorem CreateOptions.printableNames_toObject (o : CreateOptions) : o.toObject.PrintableNames :=
  ⟨by decide, Value.printableNames_ofFlag? _, Value.printableNames_ofText? _, trivial⟩

/-- The names in an entry are printable. -/
theorem RepositoryEntry.printableNames_toObject (e : RepositoryEntry) :
    e.toObject.PrintableNames := by
  have hkeys : Value.AllPrintableNames (e.deployKeys.map (·.toObject)) :=
    Value.allPrintableNames_iff.mpr
      (List.forall_mem_map.mpr fun k _ ↦ k.printableNames_toObject)
  have hteams : Value.AllPrintableNames (e.teams.map (·.toObject)) :=
    Value.allPrintableNames_iff.mpr
      (List.forall_mem_map.mpr fun t _ ↦ t.printableNames_toObject)
  refine ⟨by decide, ?_⟩
  simp only [Repository.values, List.cons_append, List.nil_append, Value.AllPrintableNames,
    Value.PrintableNames, Value.printableNames_ofText?, e.options.printableNames_toObject, hkeys,
    hteams, and_self]

/-- What is said about the findings of an entry is printable. -/
theorem RepositoryEntry.printable_findings (e : RepositoryEntry) :
    ∀ f ∈ e.toObject.findings [], Printable f.violation.line :=
  Value.printable_findings e.printableNames_toObject FieldPath.printableNames_nil

end RepoManifest
