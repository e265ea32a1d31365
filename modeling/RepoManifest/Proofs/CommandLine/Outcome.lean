import RepoManifest.CommandLine.Run
import RepoManifest.Proofs.Config.References
import RepoManifest.Proofs.Terminal.Echo

/-!
# Commands report all or nothing

A command first computes all it has to say, and only then writes. So it either ends well and prints
a line for everything, or fails, prints nothing and reports everything that is wrong. How much is
logged has no part in that.
-/

namespace RepoManifest

/-! ## Reports of failures -/

namespace CommandFailure

/-- All that a failure has to say: the lines of a configuration's problems, or the wording of
another cause. -/
def entries (wording : Wording) : CommandFailure → List String
  | load (.config failure) => failure.errors
  | load other => [other.message]
  | refs fault => [fault.message wording]

/-- The texts of a failure's report, each with its style. -/
def texts (f : CommandFailure) (wording : Wording) (colour : Bool) : List String :=
  (f.report wording).lines.map (Report.style colour).apply

/-- The texts of a report are written one by one. -/
theorem echo_render (f : CommandFailure) (wording : Wording) (terminal colour : Bool) :
    Terminal.echo terminal ((f.report wording).render colour) =
      Terminal.echoLines terminal (f.texts wording colour) := by
  rw [← Terminal.echo_join_lines, texts, List.map_map]
  rfl

/-- A failure of a configuration that has one problem is worded like that problem. -/
theorem message_of_mem_errors {failure : ConfigFailure} {entry : String}
    (hmem : entry ∈ failure.errors) (hone : ¬ 1 < failure.errors.length) :
    failure.message = entry := by
  obtain ⟨line, hline⟩ : ∃ line, failure.errors = [line] := by
    refine List.length_eq_one_iff.mp ?_
    have hpos := List.length_pos_of_mem hmem
    omega
  rw [hline, List.mem_singleton] at hmem
  rw [failure.message_eq_intercalate, hline, String.intercalate_singleton, hmem]

/-- Every entry of a failure ends a line of its report. -/
theorem exists_line_of_mem_entries {f : CommandFailure} {wording : Wording} {entry : String}
    (h : entry ∈ f.entries wording) : ∃ front, front ++ entry ∈ (f.report wording).lines := by
  match f with
  | load (.config failure) =>
    rw [report, Report.lines]
    by_cases hmany : 1 < failure.errors.length
    · rw [if_pos hmany]
      exact ⟨"  - ", List.mem_cons_of_mem _ (List.mem_map_of_mem h)⟩
    · rw [if_neg hmany, message_of_mem_errors h hmany]
      exact ⟨"Configuration error: ", List.mem_singleton_self _⟩
  | load .unwritableKey | load (.providerKeys _) | load (.environmentFile _) | refs _ =>
    rw [List.mem_singleton.mp h]
    exact ⟨"Error: ", List.mem_singleton_self _⟩

/-- Every entry of a failure stands in a text of its report. -/
theorem exists_text_of_mem_entries {f : CommandFailure} {wording : Wording} {entry : String}
    (h : entry ∈ f.entries wording) (colour : Bool) :
    ∃ front behind, front ++ entry ++ behind ∈ f.texts wording colour := by
  obtain ⟨front, hline⟩ := exists_line_of_mem_entries h
  obtain ⟨start, hstyle⟩ : ∃ start, ∀ line,
      (Report.style colour).apply line = start ++ line ++ Terminal.reset := ⟨_, fun _ ↦ rfl⟩
  refine ⟨start ++ front, Terminal.reset, List.mem_map.mpr ⟨_, hline, ?_⟩⟩
  rw [hstyle, ← String.append_assoc]

end CommandFailure

/-! ## Clone addresses -/

namespace ProviderSettings

/-- The address from which a repository of the provider's organization is cloned. -/
def cloneUrl (p : ProviderSettings) (transport : Transport) (name : String) : String :=
  let (scheme, host) := splitDomain p.domain
  let path := "/".intercalate p.segments ++ "/" ++ name
  match transport with
  | .https => scheme ++ "://" ++ host ++ "/" ++ path ++ ".git"
  | .git => "git@" ++ host ++ ":" ++ path ++ ".git"
  | .ssh => "ssh://git@" ++ host ++ "/" ++ path

/-- The line of a repository: its name and its clone address. -/
def cloneLine (p : ProviderSettings) (transport : Transport) (e : RepositoryEntry) : String :=
  e.name ++ "\t" ++ p.cloneUrl transport e.name

end ProviderSettings

/-- The references of a configuration have one line for each repository. -/
theorem Config.cloneUrls_of_refs {c : Config} {refs : List RepositoryRef} (h : c.refs = .ok refs)
    (transport : Transport) :
    Invocation.cloneUrls refs transport =
      c.repositories.map (c.provider.cloneLine transport) := by
  obtain ⟨hnil, rfl⟩ | ⟨-, -, first, subs, hsegments, rfl⟩ := refs_eq_ok_iff.mp h
  · rw [hnil]
    rfl
  · rw [Invocation.cloneUrls, List.map_map]
    refine List.map_congr_left fun e _ ↦ ?_
    rw [ProviderSettings.cloneLine, ProviderSettings.cloneUrl, hsegments]
    rfl

/-! ## Outcomes of commands -/

namespace CommandResult

/-- A command that ended well and printed some texts. -/
structure Prints (r : CommandResult) (terminal : Bool) (texts : List String) : Prop where
  exit_eq : r.exit = 0
  stdout_eq : r.stdout = Terminal.echoLines terminal texts

/-- A command that failed: it printed nothing, and behind what was logged its error output has the
texts of a report in which every entry of the failure stands. -/
structure Fails (r : CommandResult) (s : Surroundings) (colour : Bool) (failure : CommandFailure) :
    Prop where
  exit_eq : r.exit = 1
  stdout_eq : r.stdout = ""
  stderr_eq : ∃ logged,
    r.stderr = logged ++ Terminal.echoLines s.terminal (failure.texts s.wording colour)
  reported : ∀ entry ∈ failure.entries s.wording,
    ∃ front behind, front ++ entry ++ behind ∈ failure.texts s.wording colour

/-- A command that failed did not end well. -/
theorem Fails.exit_ne_zero {r : CommandResult} {s : Surroundings} {colour : Bool}
    {failure : CommandFailure} (h : r.Fails s colour failure) : r.exit ≠ 0 := by
  rw [h.exit_eq]
  exact Nat.one_ne_zero

end CommandResult

/-- What loading the manifest at a path gives. -/
def Surroundings.loaded (s : Surroundings) (path : FilePath) : Except LoadFailure Config :=
  (Manifest.loadFile s.wording s.files path s.env).result

namespace Invocation

variable {i : Invocation} {s : Surroundings} {path : FilePath} {transport : Transport}

/-- A command with all its lines prints them. -/
theorem prints_of_lines {texts : List String} (h : (i.lines s).2 = .ok texts) :
    (i.run s).Prints s.terminal texts := by
  have hrun : (i.run s).exit = 0 ∧ (i.run s).stdout =
      Terminal.echo s.terminal (String.join (texts.map (· ++ "\n"))) := by
    simp only [run, h, and_self]
  exact ⟨hrun.1, by rw [hrun.2, Terminal.echo_join_lines]⟩

/-- A command without its lines fails. -/
theorem fails_of_lines {failure : CommandFailure} (h : (i.lines s).2 = .error failure) :
    (i.run s).Fails s (i.colour s.env) failure := by
  refine ⟨?_, ?_, ?_, fun entry hentry ↦ CommandFailure.exists_text_of_mem_entries hentry _⟩
  · simp only [run, h]
  · simp only [run, h]
  · simp only [run, h, CommandFailure.echo_render]
    exact ⟨_, rfl⟩

/-- What is printed and how a command ends has nothing to do with how much is logged. -/
theorem exit_stdout_run_of_verbose (i : Invocation) (s : Surroundings) (verbose : Nat) :
    ({ i with verbose := verbose }.run s).exit = (i.run s).exit ∧
      ({ i with verbose := verbose }.run s).stdout = (i.run s).stdout := by
  have hlines : Invocation.lines { i with verbose := verbose } s = i.lines s := rfl
  simp only [run, hlines]
  cases (i.lines s).2 <;> exact ⟨rfl, rfl⟩

/-- What `validate` makes of a configuration that was or was not loaded. -/
structure Validates (i : Invocation) (s : Surroundings) (loaded : Except LoadFailure Config)
    (r : CommandResult) : Prop where
  exit_eq_zero_iff : r.exit = 0 ↔ ∃ c, loaded = .ok c
  printed : ∀ c, loaded = .ok c → r.stdout = Terminal.echoLines s.terminal
    (c.repositories.flatMap (fun e ↦ [e.listing.render (i.colour s.env), ""]) ++
      [Terminal.summary (.int c.repositories.length) (i.colour s.env)])
  failed : ∀ failure, loaded = .error failure →
    r.Fails s (i.colour s.env) (.load failure)

/-- What `clone-urls` makes of a configuration that was or was not loaded. There are references
exactly if there are no repositories, or the organization has a segment and no part is empty. -/
structure ListsCloneUrls (i : Invocation) (s : Surroundings) (transport : Transport)
    (loaded : Except LoadFailure Config) (r : CommandResult) : Prop where
  exit_eq_zero_iff : r.exit = 0 ↔ ∃ c refs, loaded = .ok c ∧ c.refs = .ok refs
  exists_refs_iff : ∀ c, loaded = .ok c →
    ((∃ refs, c.refs = .ok refs) ↔
      c.repositories = [] ∨ c.provider.segments ≠ [] ∧ ¬ c.LacksParts)
  printed : ∀ c refs, loaded = .ok c → c.refs = .ok refs → r.stdout =
    Terminal.echoLines s.terminal (c.repositories.map (c.provider.cloneLine transport))
  failed_load : ∀ failure, loaded = .error failure →
    r.Fails s (i.colour s.env) (.load failure)
  failed_refs : ∀ c fault, loaded = .ok c → c.refs = .error fault →
    r.Fails s (i.colour s.env) (.refs fault)

/-- A command that is about a manifest fails if the manifest cannot be loaded. -/
theorem fails_of_loaded_error {use : Config → Except CommandFailure (List String)}
    {failure : LoadFailure} (hlines : i.lines s = withConfig s path use)
    (h : s.loaded path = .error failure) : (i.run s).Fails s (i.colour s.env) (.load failure) := by
  refine fails_of_lines ?_
  rw [Surroundings.loaded] at h
  rw [hlines, withConfig, h]
  rfl

/-- A command that is about a manifest has the lines that it makes of the configuration. -/
theorem snd_lines_of_loaded {use : Config → Except CommandFailure (List String)} {c : Config}
    (hlines : i.lines s = withConfig s path use) (h : s.loaded path = .ok c) :
    (i.lines s).2 = use c := by
  rw [Surroundings.loaded] at h
  rw [hlines, withConfig, h]
  rfl

/-- `validate` prints the listing of every repository, or fails. -/
theorem validates_run (h : i.command = .validate path) (s : Surroundings) :
    i.Validates s (s.loaded path) (i.run s) := by
  have hlines : i.lines s = withConfig s path fun c ↦ .ok (validated c (i.colour s.env)) := by
    simp only [lines, h]
  have hprints (c : Config) (hc : s.loaded path = .ok c) :
      (i.run s).Prints s.terminal (validated c (i.colour s.env)) :=
    prints_of_lines (snd_lines_of_loaded hlines hc)
  have hfails (failure : LoadFailure) (hf : s.loaded path = .error failure) :
      (i.run s).Fails s (i.colour s.env) (.load failure) := fails_of_loaded_error hlines hf
  refine ⟨⟨fun hexit ↦ ?_, fun ⟨c, hc⟩ ↦ (hprints c hc).exit_eq⟩,
    fun c hc ↦ (hprints c hc).stdout_eq, hfails⟩
  cases hload : s.loaded path with
  | ok c => exact ⟨c, rfl⟩
  | error failure => exact absurd hexit (hfails failure hload).exit_ne_zero

/-- `clone-urls` prints the clone address of every repository, or fails. -/
theorem listsCloneUrls_run (h : i.command = .cloneUrls path transport) (s : Surroundings) :
    i.ListsCloneUrls s transport (s.loaded path) (i.run s) := by
  have hlines : i.lines s = withConfig s path fun c ↦
      (c.refs.mapError .refs).map (cloneUrls · transport) := by simp only [lines, h]
  have hprints (c : Config) (refs : List RepositoryRef) (hc : s.loaded path = .ok c)
      (hrefs : c.refs = .ok refs) : (i.run s).Prints s.terminal
        (c.repositories.map (c.provider.cloneLine transport)) := by
    refine prints_of_lines ?_
    rw [snd_lines_of_loaded hlines hc, hrefs, ← Config.cloneUrls_of_refs hrefs]
    rfl
  have hload_fails (failure : LoadFailure) (hf : s.loaded path = .error failure) :
      (i.run s).Fails s (i.colour s.env) (.load failure) := fails_of_loaded_error hlines hf
  have hrefs_fails (c : Config) (fault : RefFault) (hc : s.loaded path = .ok c)
      (hf : c.refs = .error fault) : (i.run s).Fails s (i.colour s.env) (.refs fault) := by
    refine fails_of_lines ?_
    rw [snd_lines_of_loaded hlines hc, hf]
    rfl
  refine ⟨⟨fun hexit ↦ ?_, fun ⟨c, refs, hc, hrefs⟩ ↦ (hprints c refs hc hrefs).exit_eq⟩,
    fun c _ ↦ c.exists_refs_iff, fun c refs hc hrefs ↦ (hprints c refs hc hrefs).stdout_eq,
    hload_fails, hrefs_fails⟩
  cases hload : s.loaded path with
  | ok c =>
    cases hrefs : c.refs with
    | ok refs => exact ⟨c, refs, rfl, hrefs⟩
    | error fault => exact absurd hexit (hrefs_fails c fault hload hrefs).exit_ne_zero
  | error failure => exact absurd hexit (hload_fails failure hload).exit_ne_zero

end Invocation

/-! ## Command lines -/

namespace Request

/-- The same request with more logging. -/
def louder (more : Nat) : Request → Request
  | run i => run { i with verbose := i.verbose + more }
  | other => other

/-- A flag in front of a command line is one more option. -/
theorem split?_verbose (arguments : List String) :
    OptionSpec.split? globalOptions true ("-v" :: arguments) =
      (OptionSpec.split? globalOptions true arguments).map fun (given, others) ↦
        (⟨"verbose", ""⟩ :: given, others) := by
  have hflag : OptionSpec.ofArgument globalOptions "-v" =
      some (some ([⟨"verbose", ""⟩], false)) := by decide +kernel
  rw [OptionSpec.split?, if_neg (by decide), hflag]
  simp only [List.singleton_append]

/-- Logging more changes nothing else about a command. -/
theorem ofCommand_louder (verbose more : Nat) (name : String) (arguments : List String) :
    ofCommand (verbose + more) name arguments = (ofCommand verbose name arguments).louder more := by
  unfold ofCommand
  split
  · rfl
  · split
    · rfl
    · split
      · rfl
      · split <;> rfl

/-- A flag in front of a command line raises how much is logged by one. -/
theorem ofArguments_verbose (arguments : List String) :
    ofArguments ("-v" :: arguments) = (ofArguments arguments).louder 1 := by
  rw [ofArguments, ofArguments, split?_verbose]
  cases OptionSpec.split? globalOptions true arguments with
  | none => rfl
  | some options =>
    obtain ⟨given, others⟩ := options
    have hfind : (GivenOption.mk "verbose" "" :: given).find?
        (fun g ↦ g.name == "version" || g.name == "help") =
          given.find? fun g ↦ g.name == "version" || g.name == "help" :=
      List.find?_cons_of_neg (by decide)
    have hcount : ((GivenOption.mk "verbose" "" :: given).filter (·.name == "verbose")).length =
        (given.filter (·.name == "verbose")).length + 1 := by
      rw [List.filter_cons_of_pos (by rfl), List.length_cons]
    simp only [Option.map_some, hfind, hcount]
    split
    · split <;> rfl
    · split
      · rfl
      · exact ofCommand_louder _ 1 _ _

/-- Flags in front of a command line raise how much is logged by their number. -/
theorem ofArguments_replicate_verbose (flags : Nat) (arguments : List String) :
    ofArguments (List.replicate flags "-v" ++ arguments) =
      (ofArguments arguments).louder flags := by
  induction flags with
  | zero =>
    rw [List.replicate_zero, List.nil_append]
    cases ofArguments arguments <;> rfl
  | succ n ih =>
    rw [List.replicate_succ, List.cons_append, ofArguments_verbose, ih]
    cases ofArguments arguments <;> rfl

/-- How a request ends and what it prints has nothing to do with how much is logged. -/
theorem exit_stdout_serve_louder (r : Request) (more : Nat) (s : Surroundings) :
    ((r.louder more).serve s).exit = (r.serve s).exit ∧
      ((r.louder more).serve s).stdout = (r.serve s).stdout := by
  cases r with
  | run i => exact i.exit_stdout_run_of_verbose s _
  | usage | help | version => exact ⟨rfl, rfl⟩

/-- The commands report all or nothing. `validate` ends well exactly if a configuration is loaded,
and then prints the listing of each repository, with an empty line behind it, and the summary;
`clone-urls` ends well exactly if there are references too, and then prints the name and the clone
address of each. Otherwise a command ends with one, prints nothing, and reports every problem. Flags
for more logging change neither the exit code nor what is printed. -/
theorem serve_settled {arguments : List String} {i : Invocation}
    (h : ofArguments arguments = run i) (s : Surroundings) :
    (∀ path, i.command = .validate path →
      i.Validates s (s.loaded path) ((ofArguments arguments).serve s)) ∧
    (∀ path transport, i.command = .cloneUrls path transport →
      i.ListsCloneUrls s transport (s.loaded path) ((ofArguments arguments).serve s)) ∧
    (∀ flags, ((ofArguments (List.replicate flags "-v" ++ arguments)).serve s).exit =
        ((ofArguments arguments).serve s).exit ∧
      ((ofArguments (List.replicate flags "-v" ++ arguments)).serve s).stdout =
        ((ofArguments arguments).serve s).stdout) ∧
    (∀ verbose, ({ i with verbose := verbose }.run s).exit =
        ((ofArguments arguments).serve s).exit ∧
      ({ i with verbose := verbose }.run s).stdout = ((ofArguments arguments).serve s).stdout) := by
  refine ⟨fun path hc ↦ ?_, fun path transport hc ↦ ?_, fun flags ↦ ?_, fun verbose ↦ ?_⟩
  · rw [h]
    exact Invocation.validates_run hc s
  · rw [h]
    exact Invocation.listsCloneUrls_run hc s
  · rw [ofArguments_replicate_verbose]
    exact exit_stdout_serve_louder _ flags s
  · rw [h]
    exact i.exit_stdout_run_of_verbose s verbose

/-- A manifest with two repositories, one of them with a team. -/
def labManifest : String :=
  "provider: \x7borganization: lab\x7d\n" ++
    "repositories: [\x7bname: core\x7d, \x7bname: docs, teams: [\x7bname: ops\x7d]\x7d]\n"

/-- A manifest with a repository but without an organization. -/
def bareManifest : String := "repositories: [\x7bname: core\x7d]\n"

/-- A terminal in a directory with these two manifests. -/
def twoManifests : Surroundings where
  files :=
    let bytes (text : String) := text.toList.map fun c ↦ c.toNat.toUInt8
    (FileTree.ofPaths [("lab.yaml", bytes labManifest), ("bare.yaml", bytes bareManifest)]).read
  env := []
  terminal := true
  wording := default

/-- The configuration in the first of these manifests. -/
def labConfig : Config where
  provider := { organization := some "lab" }
  repositories := [
    { name := "core", defaultBranch := some "master", visibility := some "private" },
    { name := "docs", defaultBranch := some "master", visibility := some "private",
      teams := [⟨"ops", some "pull"⟩] }]

/-- Of the first manifest `validate` prints the listing of both repositories and the summary, and
`clone-urls` a line for each of them, however much is logged. Of the second one `clone-urls` prints
nothing. -/
theorem serve_settled_twoManifests :
    ((ofArguments ["validate", "-c", "lab.yaml", "--no-color"]).serve twoManifests).exit = 0 ∧
    ((ofArguments ["validate", "-c", "lab.yaml", "--no-color"]).serve twoManifests).stdout =
      "repository.core\n    visibility     = \"private\"\n    default_branch = \"master\"\n\n" ++
      "repository.docs\n    visibility     = \"private\"\n    default_branch = \"master\"\n" ++
      "    team.ops (\"pull\")\n\nConfiguration is valid: 2 repositories.\n" ∧
    ((ofArguments ["-v", "-v", "clone-urls", "-tssh", "--config=lab.yaml"]).serve
      twoManifests).exit = 0 ∧
    ((ofArguments ["-v", "-v", "clone-urls", "-tssh", "--config=lab.yaml"]).serve
      twoManifests).stdout =
      "core\tssh://git@github.com/lab/core\ndocs\tssh://git@github.com/lab/docs\n" ∧
    ((ofArguments ["clone-urls", "--config=bare.yaml"]).serve twoManifests).exit = 1 ∧
    ((ofArguments ["clone-urls", "--config=bare.yaml"]).serve twoManifests).stdout = "" := by
  have hvalidate : ofArguments ["validate", "-c", "lab.yaml", "--no-color"] =
      run ⟨0, true, .validate (FilePath.ofText "lab.yaml")⟩ := by decide +kernel
  have hclone : ofArguments ["clone-urls", "-tssh", "--config=lab.yaml"] =
      run ⟨0, false, .cloneUrls (FilePath.ofText "lab.yaml") .ssh⟩ := by decide +kernel
  have hbare : ofArguments ["clone-urls", "--config=bare.yaml"] =
      run ⟨0, false, .cloneUrls (FilePath.ofText "bare.yaml") .https⟩ := by decide +kernel
  have hlab : twoManifests.loaded (FilePath.ofText "lab.yaml") = .ok labConfig :=
    Manifest.toOption_eq_some_iff.mp (by decide +kernel)
  have hload : twoManifests.loaded (FilePath.ofText "bare.yaml") = .ok ⟨{}, [
      { name := "core", defaultBranch := some "master", visibility := some "private" }]⟩ :=
    Manifest.toOption_eq_some_iff.mp (by decide +kernel)
  obtain ⟨hvalidates, -, -, -⟩ := serve_settled hvalidate twoManifests
  obtain ⟨-, hlists, hflags, -⟩ := serve_settled hclone twoManifests
  obtain ⟨-, hfails, -, -⟩ := serve_settled hbare twoManifests
  have hrefs : labConfig.refs = .ok [⟨⟨"github.com", "lab", []⟩, "core"⟩,
      ⟨⟨"github.com", "lab", []⟩, "docs"⟩] := by decide +kernel
  have hfailed := (hfails _ _ rfl).failed_refs _ .noOrganization hload (by decide +kernel)
  exact ⟨(hvalidates _ rfl).exit_eq_zero_iff.mpr ⟨_, hlab⟩,
    ((hvalidates _ rfl).printed _ hlab).trans (by decide +kernel),
    (hflags 2).1.trans ((hlists _ _ rfl).exit_eq_zero_iff.mpr ⟨_, _, hlab, hrefs⟩),
    (hflags 2).2.trans (((hlists _ _ rfl).printed _ _ hlab hrefs).trans (by decide +kernel)),
    hfailed.exit_eq, hfailed.stdout_eq⟩

end Request
end RepoManifest
