/-!
# Terminal styles

A style is a colour, a weight or both. Styled text starts with the escape sequences of its style and
ends with the sequence that resets them. `stripStyles` removes every escape sequence from a text, as
is done for an output that is no terminal.
-/

namespace RepoManifest.Terminal

/-- Foreground colours. -/
inductive Colour where
  | red | green | grey
  deriving DecidableEq, Repr

/-- The number of a foreground colour. -/
def Colour.code : Colour → String
  | red => "31"
  | green => "32"
  | grey => "90"

/-- A foreground colour, if any, and the weight. -/
structure Style where
  colour : Option Colour := none
  bold : Bool := false
  deriving DecidableEq, Repr

/-- The escape sequence of a code. -/
def escape (code : String) : String := "\x1b[" ++ code ++ "m"

/-- The sequence that ends every style. -/
def reset : String := escape "0"

/-- Styled text. Even a style without colour or weight ends in a reset. -/
def Style.apply (style : Style) (text : String) : String :=
  let colour := match style.colour with
    | some c => escape c.code
    | none => ""
  colour ++ (if style.bold then escape "1" else "") ++ text ++ reset

/-- Styled text if colour is on, otherwise the text itself. -/
def Style.applyIf (style : Style) (on : Bool) (text : String) : String :=
  if on then style.apply text else text

/-- The characters that may stand between the start and the end of an escape sequence. -/
def isParameter (c : Char) : Bool := c.isDigit || c == ';' || c == '?'

/-- What follows an escape sequence that was opened before `text`, if the sequence is closed by a
letter. -/
def afterSequence? (text : List Char) : Option { rest : List Char // rest.length ≤ text.length } :=
  match text with
  | [] => none
  | c :: rest =>
    if isParameter c then
      (afterSequence? rest).map fun ⟨r, h⟩ ↦ ⟨r, Nat.le_succ_of_le h⟩
    else if c.isAlpha then some ⟨rest, Nat.le_succ _⟩
    else none

/-- Characters without the escape sequences among them. -/
def stripChars (text : List Char) : List Char :=
  match text with
  | [] => []
  | '\x1b' :: '[' :: rest =>
    match afterSequence? rest with
    | some ⟨after, h⟩ =>
      have : after.length < rest.length + 2 :=
        Nat.lt_of_le_of_lt h (Nat.lt_add_of_pos_right (Nat.zero_lt_succ 1))
      stripChars after
    | none => '\x1b' :: '[' :: stripChars rest
  | c :: rest => c :: stripChars rest
termination_by text.length
decreasing_by
  · exact this
  · exact Nat.lt_add_of_pos_right (Nat.zero_lt_succ 1)
  · exact Nat.lt_succ_self _

/-- Text without its escape sequences. -/
def stripStyles (text : String) : String := String.ofList (stripChars text.toList)

end RepoManifest.Terminal
