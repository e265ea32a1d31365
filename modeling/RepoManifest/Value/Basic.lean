import RepoManifest.Number.Double
import RepoManifest.Vocabulary

/-!
# Values

A `Value` is what a manifest document, a keyword or a field of an unchecked object may hold:
scalars, sequences, mappings in insertion order, members of enumerated types, and objects. A member
of a type of words or of numbers is a word or a number itself. An object has a type that declares
its fields, the names that were given explicitly, and one value per field.
-/

namespace RepoManifest

/-- A day of the calendar. -/
structure Date where
  year : Nat
  month : Nat
  day : Nat
  deriving DecidableEq, Repr, Inhabited

/-- A time of day, to the microsecond. -/
structure TimeOfDay where
  hour : Nat
  minute : Nat
  second : Nat
  microsecond : Nat
  deriving DecidableEq, Repr, Inhabited

/-- A declared field: its name, whether it must not be left empty, and the registry that its value
has to be in. -/
structure FieldDecl where
  name : String
  required : Bool := false
  registry : Option Registry := none
  deriving DecidableEq, Repr, Inhabited

/-- The type of an object: a name and the declared fields in order. -/
structure ObjectType where
  name : String
  fields : List FieldDecl
  deriving DecidableEq, Repr, Inhabited

/-- A value of a document or of an unchecked field. -/
inductive Value where
  | null
  | bool (value : Bool)
  | int (value : Int)
  | double (value : Double)
  | str (value : String)
  | bytes (value : List UInt8)
  | date (value : Date)
  | datetime (day : Date) (time : TimeOfDay)
  | tuple (items : List Value)
  | list (items : List Value)
  | set (items : List Value)
  | map (entries : List (Value × Value))
  | member (type name : String) (value : Value)
  | object (type : ObjectType) (assigned : List String) (values : List Value)
  deriving Repr, Inhabited

namespace Value

/-- The text of a string or of a member of an enumerated type of words. -/
def text? : Value → Option String
  | .str s => some s
  | .member _ _ (.str s) => some s
  | _ => none

/-- The value of a member of an enumerated type; other values stand for themselves. -/
def unwrapped : Value → Value
  | .member _ _ v => v
  | v => v

/-- Whether a value counts as true: zeros, empty texts and empty collections do not. -/
def truthy : Value → Bool
  | .null => false
  | .bool b => b
  | .int n | .member _ _ (.int n) => n != 0
  | .double d | .member _ _ (.double d) => !d.isZero
  | .str s => !s.isEmpty
  | .bytes b => !b.isEmpty
  | .tuple items | .list items | .set items => !items.isEmpty
  | .map entries => !entries.isEmpty
  | .member _ _ (.str s) => !s.isEmpty
  | _ => true

mutual

/-- Whether a value can be a key: lists, sets, mappings and objects cannot, nor can a tuple that
holds one. -/
def hashable : Value → Bool
  | .list _ | .set _ | .map _ | .object .. => false
  | .tuple items => areHashable items
  | _ => true

/-- Whether all values of a list can be keys. -/
def areHashable : List Value → Bool
  | [] => true
  | v :: rest => v.hashable && areHashable rest

end

/-- The declared fields of an object with their values. -/
def fields : Value → List (FieldDecl × Value)
  | .object type _ values => type.fields.zip values
  | _ => []

/-- The value of an object's field. -/
def field? (v : Value) (name : String) : Option Value :=
  (v.fields.find? (·.1.name == name)).map (·.2)

end Value
end RepoManifest
