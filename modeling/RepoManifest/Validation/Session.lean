import RepoManifest.Validation.Validator

/-!
# A validator in use

A validator keeps its violations in a list that grows in place, while callers hold on to what they
were given: lists that they may change themselves, and errors. A session is a validator together
with every list that exists, each at its own address, and the errors handed out so far. Whatever is
handed out refers to a copy, made when it was asked for.

Operations fail where a text would hold an integer of too many digits: to record something, its path
is written; to tell of an error, the message of the error is written. An operation that fails leaves
the session as it was.
-/

namespace RepoManifest.Validator

/-- What a caller does with a validator. -/
inductive Operation where
  /-- Record an error, if there is one. -/
  | append (error : Option FieldError) (value : Value) (path : FieldPath)
  /-- Record that a field is missing. -/
  | required (path : FieldPath)
  /-- Record that a value is malformed. -/
  | invalid (value : Value) (path : FieldPath)
  /-- Read the violations and clear the list that was returned. -/
  | readAndClear
  /-- Read the error texts by field. -/
  | byField
  /-- Ask for the error. -/
  | error
  /-- Have the error raised, and keep it. -/
  | check
  deriving Repr, Inhabited

/-- What is raised in a session: the invalid object, or the cause for which an operation fails. -/
inductive Raised where
  | invalid (object : InvalidObject)
  | misuse (cause : Misuse)
  deriving Repr

/-- An error that a caller holds. Its message was written when it was built; its violations are the
contents of a list. -/
structure HandedError where
  name : String
  violations : Nat
  message : String
  deriving DecidableEq, Repr, Inhabited

/-- A validator in use: the lists that exist, the address of its own list among them, and the errors
handed out so far. -/
structure Session where
  name : String
  lists : List (List Violation)
  own : Nat
  handed : List HandedError
  deriving Repr, Inhabited

namespace Session

/-- A fresh validator; its own list is the only one. -/
def fresh (name : String) : Session := ⟨name, [[]], 0, []⟩

/-- The contents of the list at an address. -/
def list (s : Session) (address : Nat) : List Violation := s.lists.getD address []

/-- The validator as it is now. -/
def validator (s : Session) : Validator := ⟨s.name, s.list s.own⟩

/-- An error as its holder finds it now. -/
def object (s : Session) (e : HandedError) : InvalidObject := ⟨e.name, s.list e.violations⟩

/-- Change the list at an address. -/
def write (s : Session) (address : Nat) (contents : List Violation) : Session :=
  { s with lists := s.lists.set address contents }

/-- Copy the validator's own list to the next free address. -/
def copyOwn (s : Session) : Session := { s with lists := s.lists ++ [s.list s.own] }

/-- Let an operation of the validator record something in its own list, at a path that can be
written. -/
def recordAt (s : Session) (path : FieldPath)
    (operation : Validator → List Value → Except Misuse Validator) : Except Misuse Session := do
  let _ ← path.written
  let v ← operation s.validator (path.map Segment.toValue)
  return s.write s.own v.violations

/-- The error, if anything was recorded. Its message is written first. -/
def error (s : Session) : Except Misuse (Option InvalidObject) :=
  match s.validator.error? with
  | none => .ok none
  | some e => e.message.map fun _ ↦ some e

/-- Have the error raised. -/
def check (s : Session) : Except Raised Unit :=
  match s.error with
  | .ok none => .ok ()
  | .ok (some e) => .error (.invalid e)
  | .error cause => .error (.misuse cause)

/-- The error texts by field, as the error tells them. -/
def byField (s : Session) : Except Misuse (List (Value × Value)) := do
  match ← s.error with
  | none => return []
  | some e => e.byField

/-- Hand out the error, if anything was recorded. -/
def handOut (s : Session) : Except Misuse Session :=
  match s.validator.error? with
  | none => .ok s
  | some e => e.message.map fun message ↦
      { s.copyOwn with handed := s.handed ++ [⟨e.name, s.lists.length, message⟩] }

/-- One operation. The table of error texts is read from an error that is not handed out. -/
def step (s : Session) : Operation → Except Misuse Session
  | .append none _ _ => .ok s
  | .append (some error) value path => s.recordAt path fun v path ↦ v.append (some error) value path
  | .required path => s.recordAt path Validator.required
  | .invalid value path => s.recordAt path fun v path ↦ v.invalid value path
  | .readAndClear => .ok (s.copyOwn.write s.lists.length [])
  | .byField => do
    let t ← s.handOut
    let _ ← s.byField
    return { t with handed := s.handed }
  | .error | .check => s.handOut

/-- The session after an operation; one that fails changes nothing. -/
def after (s : Session) (operation : Operation) : Session :=
  match s.step operation with
  | .ok t => t
  | .error _ => s

/-- Operations on a fresh validator, one after the other, whether or not they fail. -/
def run (name : String) (operations : List Operation) : Session :=
  operations.foldl after (fresh name)

end Session
end RepoManifest.Validator
