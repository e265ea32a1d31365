import RepoManifest.Text.Cut

/-!
# Command-line options

Options have a long name behind two dashes and perhaps a letter behind one. Letters may stand
together; the value of an option follows an equals sign after its long name, or stands right after
its letter, or is the next argument. Two dashes alone end the options.
-/

namespace RepoManifest

/-- An option: its long name, its letter, and whether it takes a value. -/
structure OptionSpec where
  name : String
  letter : Option Char := none
  takesValue : Bool := false
  deriving DecidableEq, Repr

/-- An option that was given, with its value; an option without a value has the empty one. -/
structure GivenOption where
  name : String
  value : String := ""
  deriving DecidableEq, Repr

namespace OptionSpec

/-- What an argument with a long name gives: the options, and whether the value is the next
argument. Unknown names, missing dashes and values of options that take none are refused. -/
def ofLong? (specs : List OptionSpec) (body : List Char) : Option (GivenOption × Bool) :=
  let (name, value) := match Text.cutAt? ['='] body with
    | some (name, value) => (String.ofList name, some (String.ofList value))
    | none => (String.ofList body, none)
  match specs.find? (·.name == name), value with
  | some spec, some value => if spec.takesValue then some (⟨name, value⟩, false) else none
  | some spec, none => some (⟨name, ""⟩, spec.takesValue)
  | none, _ => none

/-- What letters behind one dash give: the options, and whether the value of the last one is the
next argument. -/
def ofLetters? (specs : List OptionSpec) : List Char → Option (List GivenOption × Bool)
  | [] => some ([], false)
  | c :: rest =>
    match specs.find? (·.letter == some c) with
    | none => none
    | some spec =>
      if spec.takesValue then
        some ([⟨spec.name, String.ofList rest⟩], rest.isEmpty)
      else (ofLetters? specs rest).map fun (given, pending) ↦ (⟨spec.name, ""⟩ :: given, pending)

/-- What one argument gives: `none` if it is no option, otherwise the options or a refusal. -/
def ofArgument (specs : List OptionSpec) (argument : String) :
    Option (Option (List GivenOption × Bool)) :=
  match argument.toList with
  | '-' :: '-' :: body => some ((ofLong? specs body).map fun (g, pending) ↦ ([g], pending))
  | '-' :: c :: rest => some (ofLetters? specs (c :: rest))
  | _ => none

/-- Give the last option its value. -/
def withValue (given : List GivenOption) (value : String) : List GivenOption :=
  given.dropLast ++ (given.getLast?.map fun g ↦ { g with value := value }).toList

/-- Take arguments apart into options and other arguments. Where options have to stand in front, the
first other argument ends them. Refused arguments give nothing. -/
def split? (specs : List OptionSpec) (inFront : Bool) (arguments : List String) :
    Option (List GivenOption × List String) :=
  match arguments with
  | [] => some ([], [])
  | argument :: rest =>
    if argument = "--" then some ([], rest)
    else match ofArgument specs argument with
      | none =>
        if inFront then some ([], argument :: rest)
        else (split? specs inFront rest).map fun (given, others) ↦ (given, argument :: others)
      | some none => none
      | some (some (given, false)) =>
        (split? specs inFront rest).map fun (more, others) ↦ (given ++ more, others)
      | some (some (given, true)) =>
        match rest with
        | [] => none
        | value :: rest =>
          (split? specs inFront rest).map fun (more, others) ↦
            (withValue given value ++ more, others)

end OptionSpec

/-- The last value given for an option. -/
def lastValue? (given : List GivenOption) (name : String) : Option String :=
  ((given.filter (·.name == name)).getLast?).map (·.value)

/-- Whether an option was given. -/
def isGiven (given : List GivenOption) (name : String) : Bool := given.any (·.name == name)

end RepoManifest
