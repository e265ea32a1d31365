import RepoManifest.Proofs.Config.Outcome
import RepoManifest.Proofs.Resource.Filling
import RepoManifest.Proofs.Resource.Walk
import RepoManifest.Proofs.Validation.FieldPath

/-!
# The report of a document

All problems of a document are reported at once, in one order: unknown keys, the provider, a section
that is no list, items that cannot be read, names that occur again, and last what each entry is
reported for when it is filled and checked for itself, seen from the document. A document is loaded
exactly if its report is empty, unless an unknown key cannot be written: then nothing is reported.
-/

namespace RepoManifest

/-! ## Entries for themselves -/

namespace RepositoryEntry

/-- The error texts of filling and checking an entry for itself. -/
def ownErrors (e : RepositoryEntry) (assigned : List String := []) : List String :=
  match (Value.fillAndCheck objectType.name (e.toObject assigned)).check with
  | .ok () => []
  | .error invalid => invalid.errors

/-- Filling and checking an entry for itself checks the filled entry. -/
theorem check_fillAndCheck (e : RepositoryEntry) (name : String) (assigned : List String) :
    (Value.fillAndCheck name (e.toObject assigned)).check =
      e.default.toObject.checkObject name := by
  have hfillable : (e.toObject assigned).fillable = true := by
    simp [Value.fillable, Value.kind?, toObject_eq, ofType?_objectType, ResourceKind.fillable]
  obtain ⟨hstopped, hfindings⟩ := e.findings_filled assigned
  have hpair : (e.toObject assigned).filled = ((e.toObject assigned).filled.1, none) := by
    rw [← hstopped]
  rw [Value.fillAndCheck, if_pos hfillable, hpair]
  simp only [Value.checkObject, hfindings]

/-- What an entry is reported for are the violations of the filled entry, whatever it was given
explicitly. -/
theorem ownErrors_eq (e : RepositoryEntry) (assigned : List String) :
    e.ownErrors assigned =
      (e.default.toObject.findings []).map fun f ↦ f.violation.line := by
  rw [ownErrors, check_fillAndCheck]
  by_cases h : e.default.toObject.findings [] = []
  · rw [Value.checkObject_eq_ok_iff.mpr h, h]
    rfl
  · rw [Value.checkObject_of_findings_ne_nil h]
    simp only [InvalidObject.errors, List.map_map]
    rfl

/-- Every finding of an entry is at or below a field with a name. -/
theorem exists_path_of_mem_findings {e : RepositoryEntry} {f : Finding}
    (h : f ∈ e.toObject.findings []) : ∃ n rest, n ≠ "" ∧ f.path = .name n :: rest := by
  obtain ⟨d, hd, rest, hpath⟩ := Value.exists_field_of_mem_findings h
  have hnames : ∀ d ∈ objectType.fields, d.name ≠ "" := by decide
  exact ⟨d.name, rest, hnames d hd, hpath⟩

end RepositoryEntry

namespace Manifest

/-! ## The report -/

/-- The items of the repositories section. -/
def listed (sections : List (Value × Value)) : List Value :=
  match Value.get? sections "repositories" with
  | some (.list items) => items
  | _ => []

/-- The line of a repositories section that is neither a list nor null. -/
def listLines (sections : List (Value × Value)) : List String :=
  match Value.get? sections "repositories" with
  | none | some .null | some (.list _) => []
  | some _ => ["repositories: Input should be a valid list"]

/-- The entries that items are read as, with their positions; items that cannot be read are left
out. -/
def parsed (items : List Value) : List (Nat × RepositoryEntry) :=
  items.zipIdx.filterMap fun (v, i) ↦ (RepositoryEntry.read v).toOption.map fun e ↦ (i, e)

/-- The lines of an entry: its own errors, behind its position. -/
def entryLines (entry : Nat × RepositoryEntry) : List String :=
  entry.2.ownErrors.map fun line ↦ "repositories[" ++ toString entry.1 ++ "]." ++ line

/-- Everything that is reported for a document under a provider that is already read. -/
def report (sections : List (Value × Value)) (provider : Reading ProviderSettings) :
    List String :=
  (unknownKeys sections).map (fun k ↦ k.display ++ ": Extra inputs are not permitted") ++
  provider.issues.map (fun issue ↦ issue.line [.name "provider"]) ++
  listLines sections ++
  (listed sections).zipIdx.flatMap (fun (v, i) ↦
    (RepositoryEntry.read v).issues.map fun issue ↦
      issue.line [.name "repositories", .index i]) ++
  (Duplicate.find ((parsed (listed sections)).map fun (i, e) ↦ ((i : Int), e.name))).map
    (fun d ↦ d.line) ++
  (parsed (listed sections)).flatMap entryLines

/-- The items that are looked at are the listed ones. -/
theorem repositoryItems_fst (sections : List (Value × Value)) :
    (repositoryItems sections).1 = listed sections := by
  unfold repositoryItems listed
  cases Value.get? sections "repositories" with
  | none => rfl
  | some v => cases v <;> rfl

/-- A section that is no list has its line. -/
theorem lines_repositoryItems (sections : List (Value × Value)) :
    (repositoryItems sections).2.map Problem.line = listLines sections := by
  unfold repositoryItems listLines
  cases Value.get? sections "repositories" with
  | none => rfl
  | some v => cases v <;> rfl

/-- The entries of a document are the filled ones among those its items are read as. -/
theorem readable_entries (sections : List (Value × Value)) :
    readable (entries sections) = (parsed (listed sections)).map fun (i, e) ↦ (i, e.default) := by
  rw [entries, readable_readEntries, repositoryItems_fst, parsed, List.map_filterMap]
  congr 1
  funext entry
  obtain ⟨v, i⟩ := entry
  rw [Option.map_map]
  rfl

/-- Items that cannot be read have the lines of their issues. -/
theorem lines_unreadable (sections : List (Value × Value)) :
    (unreadable (entries sections)).map Problem.line =
      (listed sections).zipIdx.flatMap fun (v, i) ↦
        (RepositoryEntry.read v).issues.map fun issue ↦
          issue.line [.name "repositories", .index i] := by
  rw [entries, unreadable_readEntries, repositoryItems_fst, List.map_flatMap]
  congr 1
  funext entry
  obtain ⟨v, i⟩ := entry
  rw [List.map_map]
  rfl

/-- Names that occur again have the lines of the names that were read. -/
theorem lines_duplicates (sections : List (Value × Value)) :
    (duplicates (readable (entries sections))).map Problem.line =
      (Duplicate.find ((parsed (listed sections)).map fun (i, e) ↦ ((i : Int), e.name))).map
        fun d ↦ d.line := by
  rw [readable_entries, duplicates, List.map_map, List.map_map]
  rfl

/-- The written path of an entry. -/
theorem join_entryPath (i : Nat) :
    (Problem.entryPath i).join = "repositories[" ++ toString i ++ "]" := by
  have hbracket : "repositories" ++ "[" = "repositories[" := by decide
  calc (Problem.entryPath i).join
      = "repositories" ++ ("[" ++ toString i ++ "]") := rfl
    _ = "repositories" ++ "[" ++ toString i ++ "]" := by simp only [String.append_assoc]
    _ = "repositories[" ++ toString i ++ "]" := by rw [hbracket]

/-- The violations of an entry of the document are those it has for itself, behind its position. -/
theorem lines_violations_entry (i : Nat) (e : RepositoryEntry) :
    (e.default.toObject.findings (Problem.entryPath i)).map (fun f ↦ f.violation.line) =
      entryLines (i, e) := by
  have hne : (Problem.entryPath i).join ≠ "" := by simp [join_entryPath]
  have hdot : "]" ++ "." = "]." := by decide
  rw [entryLines, Value.findings_eq_map_under, RepositoryEntry.ownErrors_eq, List.map_map,
    List.map_map]
  refine List.map_congr_left fun f hf ↦ ?_
  obtain ⟨n, rest, hn, hpath⟩ := RepositoryEntry.exists_path_of_mem_findings hf
  calc (f.under (Problem.entryPath i)).violation.line
      = (Problem.entryPath i).join ++ "." ++ f.violation.line :=
        Finding.line_under hne hn hpath
    _ = "repositories[" ++ toString i ++ ("]" ++ ".") ++ f.violation.line := by
        simp only [join_entryPath, String.append_assoc]
    _ = "repositories[" ++ toString i ++ "]." ++ f.violation.line := by rw [hdot]

/-- The violations of the entries have the lines of each entry for itself, behind its position. -/
theorem lines_violations (sections : List (Value × Value)) :
    (violations (readable (entries sections))).map Problem.line =
      (parsed (listed sections)).flatMap entryLines := by
  rw [readable_entries, violations, List.map_flatMap, List.flatMap_map]
  congr 1
  funext entry
  obtain ⟨i, e⟩ := entry
  show List.map Problem.line (List.map _ (e.default.toObject.findings (Problem.entryPath i))) = _
  rw [List.map_map]
  exact lines_violations_entry i e

/-- The lines of the problems of a document are its report. -/
theorem lines_problems (sections : List (Value × Value)) (provider : Reading ProviderSettings) :
    (problems sections provider).map Problem.line = report sections provider := by
  have hunknown : ((unknownKeys sections).map Problem.unknownSection).map Problem.line =
      (unknownKeys sections).map fun k ↦ k.display ++ ": Extra inputs are not permitted" := by
    rw [List.map_map]
    refine List.map_congr_left fun k _ ↦ ?_
    simp only [Function.comp, Problem.line, String.append_assoc]
    rfl
  have hprovider : (provider.issues.map Problem.provider).map Problem.line =
      provider.issues.map fun issue ↦ issue.line [.name "provider"] := by
    rw [List.map_map]
    rfl
  simp only [problems, report, List.map_append, hunknown, hprovider, lines_repositoryItems,
    lines_unreadable, lines_duplicates, lines_violations]

/-! ## Loading by the report -/

/-- Nothing is reported exactly if there are no problems. -/
theorem report_eq_nil_iff {sections : List (Value × Value)} {provider : Reading ProviderSettings} :
    report sections provider = [] ↔ problems sections provider = [] := by
  rw [← lines_problems, List.map_eq_nil_iff]

/-- Assembling a document fails exactly if something is reported, with exactly the report. -/
theorem assemble_report {path : String} {sections : List (Value × Value)}
    {provider : Reading ProviderSettings} (hprovider : provider.IsExplained) :
    ((∃ failure, (assemble path sections provider).result = .error (.config failure)) ↔
      report sections provider ≠ []) ∧
    (∀ failure, (assemble path sections provider).result = .error (.config failure) →
      failure.errors = report sections provider ∧
      failure.message = "\n".intercalate (report sections provider)) ∧
    (report sections provider = [] → ∃ c, (assemble path sections provider).result = .ok c) := by
  by_cases hnil : problems sections provider = []
  · obtain ⟨p, rfl⟩ := exists_provider_of_problems_eq_nil hprovider hnil
    have hreport := report_eq_nil_iff.mpr hnil
    rw [assemble_of_problems_eq_nil hnil]
    refine ⟨⟨?_, fun hne ↦ absurd hreport hne⟩, ?_, fun _ ↦ ⟨_, rfl⟩⟩
    · rintro ⟨_, h⟩
      cases h
    · intro _ h
      cases h
  · have hreport : report sections provider ≠ [] := fun h ↦ hnil (report_eq_nil_iff.mp h)
    rw [assemble_of_problems_ne_nil hnil]
    refine ⟨⟨fun _ ↦ hreport, fun _ ↦ ⟨_, rfl⟩⟩, ?_, fun h ↦ absurd h hreport⟩
    intro failure h
    obtain rfl : ConfigFailure.problems (problems sections provider) = failure :=
      LoadFailure.config.inj (Except.error.inj h)
    have hmessage : (ConfigFailure.problems (problems sections provider)).message =
        "\n".intercalate ((problems sections provider).map Problem.line) := rfl
    rw [errors_problems, hmessage, lines_problems]
    exact ⟨rfl, rfl⟩

/-- A document whose provider section is in order, beside an environment file that can be decoded,
fails exactly if its report is not empty, and then with exactly the report; otherwise it is loaded.
The exception is an unknown key that cannot be written: it stops the report itself. -/
theorem load_report {path : String} {document : Value} {env : Environment} {file : EnvSource}
    {sections given : List (Value × Value)} (hs : sections? document = some sections)
    (hg : providerEntries? sections = some given)
    (hkeys : ∀ entry ∈ given, ¬ ProviderSettings.NoKeyword entry.1) (hfile : Decodable file) :
    ∃ settings provider, envVariables env file = .ok settings ∧
      Config.readProvider (.map (resolvedProvider given env settings.1)) env = .ok provider ∧
      ((∃ k ∈ unknownKeys sections, k.hasDisplay = false) →
        (load path document env file).result = .error .unwritableKey) ∧
      ((∀ k ∈ unknownKeys sections, k.hasDisplay = true) →
        ((∃ failure, (load path document env file).result = .error (.config failure)) ↔
          report sections provider ≠ []) ∧
        (∀ failure, (load path document env file).result = .error (.config failure) →
          failure.errors = report sections provider ∧
          failure.message = "\n".intercalate (report sections provider)) ∧
        (report sections provider = [] → ∃ c, (load path document env file).result = .ok c)) := by
  obtain ⟨settings, hf⟩ := (exists_envVariables_iff env).mpr hfile
  obtain ⟨provider, hp⟩ := (exists_readProvider_iff env settings.1).mpr hkeys
  refine ⟨settings, provider, hf, hp, load_of_unwritable hs hg, fun hall ↦ ?_⟩
  have hk : (unknownKeys sections).all Value.hasDisplay = true := List.all_eq_true.mpr hall
  rw [load_eq_assemble hs hg hk hf hp]
  exact assemble_report (isExplained_of_readProvider hp)

/-- Sections with a fault of every kind. -/
def faultySections : List (Value × Value) := [
  (.str "extra", .int 1),
  (.str "provider", .map [(.str "team", .str "x")]),
  (.str "repositories", .list [
    .map [(.str "name", .str "core"), (.str "visibility", .str "secret")],
    .str "docs",
    .map [(.str "name", .str "core"),
      (.str "teams", .list [.map [(.str "permission", .str "push")]])]])]

/-- The lines of these faults, in the order of the report. -/
def faultyLines : List String := [
  "extra: Extra inputs are not permitted",
  "provider.team: Extra inputs are not permitted",
  "repositories[1]: Input should be a valid dictionary or instance of RepositoryEntry",
  "Duplicate repository name 'core': found in both repositories[0] and repositories[2]",
  "repositories[0].visibility: field value isn't among the allowed enum values " ++
    "(public, internal, private) (got 'secret')",
  "repositories[2].teams[0].name: field is required"]

/-- All of these faults are reported at once. -/
theorem load_report_faultySections :
    ∃ failure, (load "config.yaml" (.map faultySections) [] none).result =
        .error (.config failure) ∧
      failure.errors = faultyLines ∧ failure.message = "\n".intercalate faultyLines := by
  have hg : providerEntries? faultySections = some [(.str "team", .str "x")] := by
    simp [providerEntries?, faultySections, Value.get?, Value.lookup?]
  have hkeys : ∀ entry ∈ [(Value.str "team", Value.str "x")],
      ¬ ProviderSettings.NoKeyword entry.1 := by
    simp [ProviderSettings.NoKeyword, Value.text?, ProviderSettings.receiver]
  have hfile : Decodable none := by
    intro bytes h
    cases h
  have hunknown : ∀ k ∈ unknownKeys faultySections, k.hasDisplay = true := by decide +kernel
  obtain ⟨settings, provider, hf, hp, -, hreport⟩ :=
    @load_report "config.yaml" (.map faultySections) [] none _ _ rfl hg hkeys hfile
  obtain rfl := Except.ok.inj hf
  have hprovider : Config.readProvider
      (.map (resolvedProvider [(.str "team", .str "x")] [] [])) [] =
        .ok (.error [⟨[.name "team"], .extra⟩]) := by decide +kernel
  obtain rfl := Except.ok.inj (hprovider.symm.trans hp)
  obtain ⟨hfails, hlines, _⟩ := hreport hunknown
  have hvalue : report faultySections (.error [⟨[.name "team"], .extra⟩]) = faultyLines := by
    decide +kernel
  rw [hvalue] at hfails hlines
  obtain ⟨failure, hfailure⟩ := hfails.mpr (List.cons_ne_nil _ _)
  exact ⟨failure, hfailure, hlines failure hfailure⟩

end Manifest
end RepoManifest
