import RepoManifest.Proofs.CommandLine.Report
import RepoManifest.Proofs.Config.Duplicates
import RepoManifest.Proofs.Config.Failure
import RepoManifest.Proofs.Config.Report
import RepoManifest.Proofs.Resource.Printable
import RepoManifest.Proofs.Resource.Shown

/-!
# What a report does not escape

Values are reported in source form, which is printable. Two kinds of words are reported as they are:
keys that are not permitted, at any depth, and names that occur again. So the characters of a report
that are not printable, line breaks among them, are those of these words.
-/

namespace RepoManifest

open Text

/-! ## Issues -/

/-- The lines of issues show the words that the issues show. -/
theorem Issue.ShowWords.lines {issues : List Issue} {words : List String}
    (h : ShowWords issues words) {root : FieldPath} (hroot : root.PrintableNames) :
    Text.ShowWords (issues.map (·.line root)) words := by
  intro c hc
  rw [← h c hc]
  simp only [List.mem_map, exists_exists_and_eq_and, mem_line_iff hroot hc]

namespace Manifest

open Reading (strayWords)
open ProviderSettings (Known)

variable {sections given : List (Value × Value)}

/-! ## Keys of the document -/

/-- The plain form of plain data that is no word is printable. -/
theorem printable_display {v : Value} (h : v.isPlain = true) (htext : v.text? = none) :
    Printable v.display := by
  cases v with
  | str => cases htext
  | member => cases h
  | object => cases h
  | date d => exact d.printable_display
  | datetime d t =>
    exact printable_append.mpr
      ⟨printable_append.mpr ⟨d.printable_display, by decide⟩, t.printable_display⟩
  | _ => exact Value.printable_literal (Value.printableNames_of_isPlain h)

/-- The plain form of a plain word is the word. -/
theorem display_of_text? {v : Value} {word : String} (h : v.isPlain = true)
    (htext : v.text? = some word) : v.display = word := by
  cases v with
  | str => exact Option.some.inj htext
  | member => cases h
  | _ => cases htext

/-- The unknown keys of a document are the keys whose text is the name of no section. -/
theorem mem_unknownKeys_iff {k : Value} :
    k ∈ unknownKeys sections ↔
      (∃ entry ∈ sections, entry.1 = k) ∧ ∀ name ∈ Config.sections, k.text? ≠ some name := by
  simp only [unknownKeys, List.mem_filter, List.mem_map, Bool.not_eq_true', List.any_eq_false,
    Value.equal_str_iff, ne_eq]

/-- The lines of unknown keys show their words. -/
theorem showWords_unknownKeys (h : ∀ entry ∈ sections, Value.PlainEntry entry) :
    ShowWords ((unknownKeys sections).map fun k ↦ k.display ++ ": Extra inputs are not permitted")
      (strayWords Config.sections sections) := by
  have hextra : Printable ": Extra inputs are not permitted" := by decide
  intro c hc
  simp only [List.mem_map, exists_exists_and_eq_and, String.toList_append, List.mem_append,
    hextra.not_mem hc, or_false, mem_unknownKeys_iff, strayWords, List.mem_filter, Value.words,
    List.mem_filterMap, decide_eq_true_eq]
  constructor
  · rintro ⟨k, ⟨⟨entry, hmem, rfl⟩, hunknown⟩, hchar⟩
    have hplain := (h entry hmem).1
    cases htext : entry.1.text? with
    | none => exact absurd hchar ((printable_display hplain htext).not_mem hc)
    | some word =>
      rw [display_of_text? hplain htext] at hchar
      exact ⟨word, ⟨⟨entry, hmem, htext⟩, fun hw ↦ hunknown word hw htext⟩, hchar⟩
  · rintro ⟨word, ⟨⟨entry, hmem, htext⟩, hunknown⟩, hchar⟩
    refine ⟨entry.1, ⟨⟨entry, hmem, rfl⟩, fun name hname hsome ↦ hunknown ?_⟩, ?_⟩
    · rwa [Option.some.inj (htext.symm.trans hsome)]
    · rwa [display_of_text? (h entry hmem).1 htext]

/-! ## Provider -/

/-- A setting with a silent reader shows no words. -/
theorem showWords_setting {α : Type} {read : Value → Reading α} (h : Reading.Silent read)
    (named : List (String × Value)) (env : Environment) {name : String} (hname : Printable name)
    (default : α) :
    Issue.ShowWords (ProviderSettings.setting named env name read default).issues [] := by
  unfold ProviderSettings.setting
  split
  · exact Reading.showWords_under (h _) (FieldPath.printableNames_nil.name hname)
  · exact Reading.showWords_ok default

/-- The issues of names that are not permitted show these names. -/
theorem showWords_extra (names : List String) :
    Issue.ShowWords (names.map fun n ↦ ⟨[.name n], .extra⟩) names := by
  intro c hc
  have hextra : c ∉ ReadFault.extra.message.toList :=
    (ReadFault.printable_message (by simp)).not_mem hc
  simp [Issue.Shows, FieldPath.Shows, hextra]

/-- The issues of provider settings show their unknown names. -/
theorem showWords_ofNamed (named : List (String × Value)) (env : Environment) :
    Issue.ShowWords (ProviderSettings.ofNamed named env).issues
      (ProviderSettings.unknownNames named) := by
  have hdomain : Printable "domain" := by decide
  have horganization : Printable "organization" := by decide
  have hsettings := Reading.showWords_ap (Reading.showWords_ap
    (Reading.showWords_ok ProviderSettings.mk)
    (showWords_setting Reading.silent_text named env hdomain "github.com"))
    (showWords_setting (Reading.silent_optional Reading.silent_text) named env horganization none)
  rw [ProviderSettings.ofNamed, Reading.issues_withIssues]
  exact hsettings.append (showWords_extra _)

/-! ## Repositories -/

/-- The path of an entry has printable names. -/
theorem printableNames_entryPath (i : Nat) : (Problem.entryPath i).PrintableNames := by
  have hname : Printable "repositories" := by decide
  exact (FieldPath.printableNames_nil.name hname).index i

/-- The line of a section that is no list is printable. -/
theorem printable_listLines (sections : List (Value × Value)) :
    ∀ line ∈ listLines sections, Printable line := by
  have hline : Printable "repositories: Input should be a valid list" := by decide
  intro line hmem
  unfold listLines at hmem
  split at hmem
  · cases hmem
  · cases hmem
  · cases hmem
  · rwa [List.mem_singleton.mp hmem]

/-- The lines of items that cannot be read show their keys that name no field. -/
theorem showWords_items {items : List Value} (h : ∀ v ∈ items, v.isPlain = true) :
    ShowWords (items.zipIdx.flatMap fun (v, i) ↦ (RepositoryEntry.read v).issues.map fun issue ↦
        issue.line [.name "repositories", .index i])
      (items.flatMap RepositoryEntry.strayKeys) := by
  have hwords : items.flatMap RepositoryEntry.strayKeys =
      items.zipIdx.flatMap fun entry ↦ RepositoryEntry.strayKeys entry.1 := by
    conv_lhs => rw [← List.zipIdx_map_fst 0 items]
    rw [List.flatMap_map]
  rw [hwords]
  refine .flatMap fun entry hmem ↦ ?_
  have hplain := h entry.1 (List.fst_mem_of_mem_zipIdx hmem)
  exact (RepositoryEntry.showWords_read hplain).lines (printableNames_entryPath entry.2)

/-- The names that more than one of some entries has. -/
def repeatedNames (entries : List (Nat × RepositoryEntry)) : List String :=
  let names := entries.map fun entry ↦ entry.2.name
  names.filter fun name ↦ name ≠ "" ∧ 2 ≤ names.count name

/-- The line of a name that occurs again shows the name. -/
theorem mem_duplicate_line_iff {d : Duplicate} {c : Char} (hc : isPrintable c = false) :
    c ∈ d.line.toList ↔ c ∈ d.name.toList := by
  have hfront : Printable "Duplicate repository name '" := by decide
  have hback : Printable ("': found in both repositories[" ++ (toString d.first ++
      ("] and repositories[" ++ (toString d.again ++ "]")))) := by
    simp only [printable_append]
    exact ⟨by decide, printable_toString_int _, by decide, printable_toString_int _, by decide⟩
  unfold Duplicate.line
  rw [String.append_assoc, String.append_assoc, String.append_assoc, String.append_assoc]
  exact mem_between_iff hfront hback hc

/-- The lines of names that occur again show these names. -/
theorem showWords_duplicates (entries : List (Nat × RepositoryEntry)) :
    ShowWords ((Duplicate.find (entries.map fun (i, e) ↦ ((i : Int), e.name))).map
        fun d ↦ d.line) (repeatedNames entries) := by
  have hnames : (entries.map fun (i, e) ↦ ((i : Int), e.name)).map (·.2) =
      entries.map fun entry ↦ entry.2.name := List.map_map
  intro c hc
  simp only [List.mem_map, exists_exists_and_eq_and, mem_duplicate_line_iff hc]
  constructor
  · rintro ⟨d, hd, hchar⟩
    obtain ⟨hne, hcount⟩ := Duplicate.exists_mem_find_iff.mp ⟨d, hd, rfl⟩
    rw [hnames] at hcount
    have hmem := List.count_pos_iff.mp (Nat.lt_of_lt_of_le Nat.zero_lt_two hcount)
    exact ⟨d.name, List.mem_filter.mpr ⟨hmem, by simpa using ⟨hne, hcount⟩⟩, hchar⟩
  · rintro ⟨name, hname, hchar⟩
    have hrepeated := (List.mem_filter.mp hname).2
    rw [decide_eq_true_eq, ← hnames] at hrepeated
    obtain ⟨d, hd, rfl⟩ := Duplicate.exists_mem_find_iff.mpr hrepeated
    exact ⟨d, hd, hchar⟩

/-- The own lines of an entry are printable. -/
theorem printable_entryLines (entry : Nat × RepositoryEntry) :
    ∀ line ∈ entryLines entry, Printable line := by
  intro line hmem
  obtain ⟨own, hown, rfl⟩ := List.mem_map.mp hmem
  rw [RepositoryEntry.ownErrors_eq] at hown
  obtain ⟨f, hf, rfl⟩ := List.mem_map.mp hown
  simp only [printable_append]
  exact ⟨⟨⟨by decide, printable_toString_nat _⟩, by decide⟩,
    RepositoryEntry.printable_findings _ f hf⟩

/-! ## Documents -/

/-- The words of a document that its report shows as they are: the keys that name no section, the
keys of the provider that are not known, the keys of its items that name no field where they stand,
and the names that more than one entry has. -/
def unescapedIn (sections given : List (Value × Value)) : List String :=
  strayWords Config.sections sections ++
  (Value.words given).filter (fun n ↦ ¬ Known n) ++
  (listed sections).flatMap RepositoryEntry.strayKeys ++
  repeatedNames (parsed (listed sections))

/-- The items of a plain document are plain. -/
theorem isPlain_of_mem_listed (h : ∀ entry ∈ sections, Value.PlainEntry entry) :
    ∀ v ∈ listed sections, v.isPlain = true := by
  intro v hv
  unfold listed at hv
  split at hv
  · next items hget => exact Value.isPlain_list.mp (Value.isPlain_of_get? h hget) v hv
  · cases hv

/-- The report of a document shows its words that are not escaped. -/
theorem showWords_report (h : ∀ entry ∈ sections, Value.PlainEntry entry) {env : Environment}
    {settings : List (String × Option String)} {named : List (String × Value)}
    (hn : ProviderSettings.named (resolvedProvider given env settings) = .ok named) :
    ShowWords (report sections (ProviderSettings.ofNamed named env))
      (unescapedIn sections given) := by
  have hunknown : ProviderSettings.unknownNames named =
      (Value.words given).filter fun n ↦ ¬ Known n := by
    rw [ProviderSettings.eq_wordEntries_of_named hn, unknownNames_resolvedProvider]
  have hname : Printable "provider" := by decide
  have hprovider := (showWords_ofNamed named env).lines (FieldPath.printableNames_nil.name hname)
  rw [hunknown] at hprovider
  have hlist := ShowWords.of_printable (printable_listLines sections)
  have hown : ShowWords ((parsed (listed sections)).flatMap entryLines) [] :=
    ShowWords.of_printable fun line hline ↦ by
      obtain ⟨entry, _, hentry⟩ := List.mem_flatMap.mp hline
      exact printable_entryLines entry line hentry
  -- The parts of the report in order; two of them show nothing as it is.
  have hall := (((((showWords_unknownKeys h).append hprovider).append hlist).append
    (showWords_items (isPlain_of_mem_listed h))).append
    (showWords_duplicates (parsed (listed sections)))).append hown
  simp only [List.append_nil] at hall
  exact hall

/-- The words of a document that its report shows as they are; a document without sections has no
report. -/
def unescapedWords (document : Value) : List String :=
  match sections? document with
  | none => []
  | some sections => ((providerEntries? sections).map (unescapedIn sections)).getD []

variable {path : String} {document : Value} {env : Environment} {file : EnvSource}
  {failure : ConfigFailure}

/-- The entries of a plain document are plain. -/
theorem plain_of_sections? (hplain : document.isPlain = true)
    (hs : sections? document = some sections) : ∀ entry ∈ sections, Value.PlainEntry entry := by
  unfold sections? at hs
  split at hs
  · obtain rfl := Option.some.inj hs
    exact fun _ hmem ↦ absurd hmem List.not_mem_nil
  · obtain rfl := Option.some.inj hs
    exact Value.isPlain_map.mp hplain
  · cases hs

/-- A document whose sections can be looked at fails with its report, which is not empty. -/
theorem exists_report_of_load (hs : sections? document = some sections)
    (hg : providerEntries? sections = some given)
    (h : (load path document env file).result = .error (.config failure)) :
    ∃ settings named,
      ProviderSettings.named (resolvedProvider given env settings) = .ok named ∧
      failure.errors = report sections (ProviderSettings.ofNamed named env) ∧
      failure.errors ≠ [] := by
  have happroachable := approachable_of_load_settled hs hg (.inr ⟨failure, h⟩)
  obtain ⟨settings, named, _, hn, hresult⟩ :=
    exists_named_of_approachable path env hs hg happroachable
  obtain ⟨hfails, hlines, _⟩ := @assemble_report path sections _
    (ProviderSettings.isExplained_ofNamed named env)
  rw [hresult] at h
  have herrors := (hlines failure h).1
  exact ⟨settings.1, named, hn, herrors, herrors ▸ hfails.mp ⟨failure, h⟩⟩

/-- The lines of a failure show the words of the document that are not escaped, and the path. -/
theorem exists_line_of_load_iff (hplain : document.isPlain = true)
    (h : (load path document env file).result = .error (.config failure)) {c : Char}
    (hc : isPrintable c = false) (hpath : c ∉ path.toList) :
    (∃ line ∈ failure.errors, c ∈ line.toList) ↔
      ∃ word ∈ unescapedWords document, c ∈ word.toList := by
  have hone {text : String} (htext : Printable text) :
      ¬ ∃ line ∈ [path ++ text], c ∈ line.toList := by
    simp only [List.mem_singleton, exists_eq_left, String.toList_append, List.mem_append, not_or]
    exact ⟨hpath, htext.not_mem hc⟩
  -- Without sections or settings to look at, the one line is the path with a fixed wording.
  cases hs : sections? document with
  | none =>
    have hwords : unescapedWords document = [] := by simp only [unescapedWords, hs]
    simp only [load, hs] at h
    cases h
    rw [hwords]
    exact iff_of_false (hone (by decide)) (by simp)
  | some sections =>
    cases hg : providerEntries? sections with
    | none =>
      have hwords : unescapedWords document = [] := by
        simp only [unescapedWords, hs, hg, Option.map_none, Option.getD_none]
      simp only [load, hs, hg] at h
      cases h
      rw [hwords]
      exact iff_of_false (hone (by decide)) (by simp)
    | some given =>
      have hwords : unescapedWords document = unescapedIn sections given := by
        simp only [unescapedWords, hs, hg, Option.map_some, Option.getD_some]
      obtain ⟨_, _, hn, herrors, _⟩ := exists_report_of_load hs hg h
      rw [hwords, herrors]
      exact showWords_report (plain_of_sections? hplain hs) hn c hc

/-- A failure has a line. -/
theorem errors_ne_nil_of_load
    (h : (load path document env file).result = .error (.config failure)) :
    failure.errors ≠ [] := by
  cases hs : sections? document with
  | none =>
    simp only [load, hs] at h
    cases h
    exact List.cons_ne_nil _ _
  | some sections =>
    cases hg : providerEntries? sections with
    | none =>
      simp only [load, hs, hg] at h
      cases h
      exact List.cons_ne_nil _ _
    | some given =>
      obtain ⟨_, _, _, _, hne⟩ := exists_report_of_load hs hg h
      exact hne

/-- A failure with a line shows its lines in a report, each in one line, under a heading if there
are several. -/
theorem length_lines_of_errors_ne_nil (h : failure.errors ≠ []) :
    (Report.config failure.message failure.errors).shown = failure.errors ∧
    (Report.config failure.message failure.errors).lines.length =
      failure.errors.length + if 1 < failure.errors.length then 1 else 0 := by
  rw [Report.shown, Report.lines]
  split
  · exact ⟨rfl, by rw [List.length_cons, List.length_map]⟩
  · next hmany =>
    obtain ⟨line, hline⟩ : ∃ line, failure.errors = [line] := by
      refine List.length_eq_one_iff.mp ?_
      have hpos := List.length_pos_of_ne_nil h
      omega
    rw [ConfigFailure.message_eq_intercalate, hline, String.intercalate_singleton]
    exact ⟨rfl, rfl⟩

/-- The lines of a failure hold, of the characters that are not printable, those of the words of the
document that are not escaped. So if none of these words has a line break, no line has one, the
message cut at its line breaks gives the lines back, and a command without colour writes one line
for each, under a heading if there are several. If one of them has a line break, all of it fails. -/
theorem load_lines_iff (hplain : document.isPlain = true) (hpath : '\n' ∉ path.toList)
    (h : (load path document env file).result = .error (.config failure)) :
    (∀ c, isPrintable c = false → c ∉ path.toList →
      ((∃ line ∈ failure.errors, c ∈ line.toList) ↔
        ∃ word ∈ unescapedWords document, c ∈ word.toList)) ∧
    ((∀ line ∈ failure.errors, '\n' ∉ line.toList) ↔
      ∀ word ∈ unescapedWords document, '\n' ∉ word.toList) ∧
    (Text.parts '\n' failure.message.toList = failure.errors.map (·.toList) ↔
      ∀ word ∈ unescapedWords document, '\n' ∉ word.toList) ∧
    (∀ terminal, ((Report.config failure.message failure.errors).handled terminal
        false).stderr.toList.count '\n' =
          failure.errors.length + (if 1 < failure.errors.length then 1 else 0) ↔
      ∀ word ∈ unescapedWords document, '\n' ∉ word.toList) := by
  have hne := errors_ne_nil_of_load h
  have hlines : (∀ line ∈ failure.errors, '\n' ∉ line.toList) ↔
      ∀ word ∈ unescapedWords document, '\n' ∉ word.toList := by
    have hiff := not_congr (exists_line_of_load_iff hplain h (by decide) hpath)
    push Not at hiff
    exact hiff
  have hmessage : failure.message.toList = ['\n'].intercalate (failure.errors.map (·.toList)) := by
    rw [ConfigFailure.message_eq_intercalate, String.toList_intercalate]
    rfl
  have hpieces : failure.errors.map (·.toList) ≠ [] := fun hnil ↦ hne (List.map_eq_nil_iff.mp hnil)
  obtain ⟨hshown, hlength⟩ := length_lines_of_errors_ne_nil hne
  refine ⟨fun c hc hpath ↦ exists_line_of_load_iff hplain h hc hpath, hlines, ?_, fun terminal ↦ ?_⟩
  · rw [hmessage, Text.parts_intercalate_eq_iff hpieces, List.forall_mem_map, hlines]
  · rw [← hlength, Report.count_newline_handled_eq_length_iff, hshown, hlines]

/-- The lines that loading reports if the manifest is at fault. -/
def reported? (o : LoadOutcome) : Option (List String) :=
  match o.result with
  | .error (.config failure) => some failure.errors
  | _ => none

/-- Reported lines are those of a failure. -/
theorem exists_failure_of_reported? {o : LoadOutcome} {lines : List String}
    (h : reported? o = some lines) :
    ∃ failure, o.result = .error (.config failure) ∧ failure.errors = lines := by
  unfold reported? at h
  split at h
  · next failure hresult => exact ⟨failure, hresult, Option.some.inj h⟩
  · cases h

/-- A document with a line break in a key that is not permitted. -/
def brokenKey : Value := .map [(.str "a\nb", .int 1)]

/-- A document with a line break in a value that is not allowed. -/
def brokenValue : Value :=
  .map [(.str "repositories",
    .list [.map [(.str "name", .str "core"), (.str "visibility", .str "a\nb")]])]

/-- The key breaks its line, the value does not. -/
theorem load_lines_iff_brokenKey :
    (∃ failure, (load "config.yaml" brokenKey [] none).result = .error (.config failure) ∧
      failure.errors = ["a\nb: Extra inputs are not permitted"] ∧
      Text.parts '\n' failure.message.toList ≠ failure.errors.map (·.toList)) ∧
    (∃ failure, (load "config.yaml" brokenValue [] none).result = .error (.config failure) ∧
      failure.errors = ["repositories[0].visibility: field value isn't among the allowed enum " ++
        "values (public, internal, private) (got 'a\\nb')"] ∧
      Text.parts '\n' failure.message.toList = failure.errors.map (·.toList)) := by
  have hpath : '\n' ∉ "config.yaml".toList := by decide
  constructor
  · have hreported : reported? (load "config.yaml" brokenKey [] none) =
        some ["a\nb: Extra inputs are not permitted"] := by decide +kernel
    obtain ⟨failure, hfailure, herrors⟩ := exists_failure_of_reported? hreported
    obtain ⟨-, -, hparts, -⟩ := load_lines_iff (by decide) hpath hfailure
    refine ⟨failure, hfailure, herrors, fun heq ↦ ?_⟩
    have hbroken : "a\nb" ∈ unescapedWords brokenKey := by decide +kernel
    exact hparts.mp heq _ hbroken (by decide)
  · have hreported : reported? (load "config.yaml" brokenValue [] none) =
        some ["repositories[0].visibility: field value isn't among the allowed enum " ++
          "values (public, internal, private) (got 'a\\nb')"] := by decide +kernel
    obtain ⟨failure, hfailure, herrors⟩ := exists_failure_of_reported? hreported
    obtain ⟨-, -, hparts, -⟩ := load_lines_iff (by decide) hpath hfailure
    have hnone : unescapedWords brokenValue = [] := by decide +kernel
    refine ⟨failure, hfailure, herrors, hparts.mpr ?_⟩
    rw [hnone]
    exact fun _ hmem ↦ absurd hmem List.not_mem_nil

end Manifest
end RepoManifest
