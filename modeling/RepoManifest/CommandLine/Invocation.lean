import RepoManifest.CommandLine.Options
import RepoManifest.Files.Path
import RepoManifest.Vocabulary

/-!
# Invocations

What a command line asks for: a command with its settings, the version, or help. Everything else is
a usage error.
-/

namespace RepoManifest

/-- A command and where its manifest is. -/
inductive Command where
  | validate (config : FilePath)
  | enums
  | cloneUrls (config : FilePath) (transport : Transport)
  deriving DecidableEq, Repr

/-- A command, how much it logs, and whether its output has colours. -/
structure Invocation where
  verbose : Nat
  noColour : Bool
  command : Command
  deriving DecidableEq, Repr

/-- What a command line asks for. -/
inductive Request where
  | usage
  | help
  | version
  | run (invocation : Invocation)
  deriving DecidableEq, Repr

namespace Request

/-- The options in front of the command. -/
def globalOptions : List OptionSpec :=
  [{ name := "version", letter := some 'V' }, { name := "verbose", letter := some 'v' },
    { name := "help" }]

/-- The option for the manifest. -/
def configOption : OptionSpec := { name := "config", letter := some 'c', takesValue := true }

/-- The option for the transport. -/
def transportOption : OptionSpec := { name := "transport", letter := some 't', takesValue := true }

/-- The options that every command has. -/
def commonOptions : List OptionSpec := [{ name := "no-color" }, { name := "help" }]

/-- The options of a command; unknown commands have none. -/
def commandOptions? (name : String) : Option (List OptionSpec) :=
  if name = "validate" then some (configOption :: commonOptions)
  else if name = "enums" then some commonOptions
  else if name = "clone-urls" then some (configOption :: transportOption :: commonOptions)
  else none

/-- The manifest of a command that names none. -/
def defaultConfig : String := "git-providers.yaml"

/-- A command with the options given to it. -/
def commandOf? (name : String) (given : List GivenOption) : Option Command :=
  let config := FilePath.ofText ((lastValue? given "config").getD defaultConfig)
  if name = "validate" then some (.validate config)
  else if name = "enums" then some .enums
  else
    (Transport.ofText? ((lastValue? given "transport").getD Transport.https.text)).map
      (.cloneUrls config)

/-- The request of a command and its arguments. -/
def ofCommand (verbose : Nat) (name : String) (arguments : List String) : Request :=
  match (commandOptions? name).bind fun specs ↦ OptionSpec.split? specs false arguments with
  | none => usage
  | some (given, others) =>
    if isGiven given "help" then help
    else if !others.isEmpty then usage
    else match commandOf? name given with
      | some command => run ⟨verbose, isGiven given "no-color", command⟩
      | none => usage

/-- The request of a command line. The version and help are asked for by the first option that names
one of them. -/
def ofArguments (arguments : List String) : Request :=
  match OptionSpec.split? globalOptions true arguments with
  | none => usage
  | some (given, others) =>
    match given.find? fun g ↦ g.name == "version" || g.name == "help" with
    | some g => if g.name = "version" then version else help
    | none =>
      match others with
      | [] => usage
      | name :: rest => ofCommand ((given.filter (·.name == "verbose")).length) name rest

end Request
end RepoManifest
