/-!
# Patterns of texts

Regular sets of texts, and a test for membership that takes a text apart character by character:
what remains of a pattern after a character is a pattern again.
-/

namespace RepoManifest.Text

/-- A regular set of texts. -/
inductive Pattern
  | never
  | empty
  | char (accepts : Char → Bool)
  | followed (first second : Pattern)
  | either (first second : Pattern)
  | many (part : Pattern)

namespace Pattern

/-- Whether the empty text is in the set. -/
def acceptsEmpty : Pattern → Bool
  | .never | .char _ => false
  | .empty | .many _ => true
  | .followed p q => p.acceptsEmpty && q.acceptsEmpty
  | .either p q => p.acceptsEmpty || q.acceptsEmpty

/-- A sequence, without parts that do not matter. -/
def thenAlso : Pattern → Pattern → Pattern
  | .never, _ | _, .never => .never
  | .empty, q => q
  | p, .empty => p
  | p, q => .followed p q

/-- A choice, without parts that do not matter. -/
def orElse : Pattern → Pattern → Pattern
  | .never, q => q
  | p, .never => p
  | p, q => .either p q

/-- The texts that complete a character to a text of the set. -/
def after (c : Char) : Pattern → Pattern
  | .never | .empty => .never
  | .char accepts => if accepts c then .empty else .never
  | .followed p q =>
    let first := (p.after c).thenAlso q
    if p.acceptsEmpty then first.orElse (q.after c) else first
  | .either p q => (p.after c).orElse (q.after c)
  | .many p => (p.after c).thenAlso (.many p)

/-- Whether a text is in the set. -/
def accepts (p : Pattern) : List Char → Bool
  | [] => p.acceptsEmpty
  | c :: rest => (p.after c).accepts rest

instance : Append Pattern := ⟨.followed⟩

instance : OrOp Pattern := ⟨.either⟩

/-- A character of a list. -/
def among (chars : String) : Pattern := .char fun c ↦ chars.toList.contains c

/-- A text itself. -/
def word (text : String) : Pattern :=
  text.toList.foldr (fun c p ↦ .followed (.char (· == c)) p) .empty

/-- One text of a list. -/
def words (texts : List String) : Pattern := texts.foldr (fun s p ↦ .either (word s) p) .never

/-- A decimal digit. -/
def digit : Pattern := .char Char.isDigit

/-- The pattern or nothing. -/
def optional (p : Pattern) : Pattern := .either .empty p

/-- The pattern at least once. -/
def repeated (p : Pattern) : Pattern := p ++ .many p

end Pattern
end RepoManifest.Text
