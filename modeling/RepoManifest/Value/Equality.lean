import RepoManifest.Value.Basic

/-!
# Equality of values

Numbers are equal by value whatever their kind, and truth values count as one and zero. A member of
an enumerated type of words or numbers equals its word or number. Mappings and sets are equal
whatever their order. Objects are equal if they have one type and equal fields; which fields were
given explicitly does not matter.
-/

namespace RepoManifest.Value

/-- The integer that a number or truth value equals, if it equals one. -/
def integer? : Value → Option Int
  | .bool b => some (if b then 1 else 0)
  | .int n | .member _ _ (.int n) => some n
  | .double d | .member _ _ (.double d) => d.integer?
  | _ => none

/-- Equality of values that hold no other values. -/
def equalScalar : Value → Value → Bool
  | .null, .null => true
  | .double a, .double b | .double a, .member _ _ (.double b) | .member _ _ (.double a), .double b
  | .member _ _ (.double a), .member _ _ (.double b) => a.equal b
  | .bytes a, .bytes b => a == b
  | .date a, .date b => a == b
  | .datetime a s, .datetime b t => a == b && s == t
  | a, b =>
    match a.text?, b.text? with
    | some s, some t => s == t
    | _, _ =>
      match a.integer?, b.integer? with
      | some m, some n => m == n
      | _, _ => false

mutual

/-- Equality of values. -/
def equal : Value → Value → Bool
  | .tuple as, .tuple bs => equalItems as bs
  | .list as, .list bs => equalItems as bs
  | .set as, .set bs => as.length == bs.length && equalWithin as bs
  | .map as, .map bs => as.length == bs.length && equalEntries as bs
  | .object s _ as, .object t _ bs => s == t && equalItems as bs
  | .member s m a, .member t n b =>
    equalScalar (.member s m a) (.member t n b) || (s == t && m == n)
  | a, b => equalScalar a b

/-- Equality item by item. -/
def equalItems : List Value → List Value → Bool
  | [], [] => true
  | a :: as, b :: bs => equal a b && equalItems as bs
  | _, _ => false

/-- Whether each item equals some item of another list. -/
def equalWithin : List Value → List Value → Bool
  | [], _ => true
  | a :: as, bs => bs.any (fun b ↦ equal a b) && equalWithin as bs

/-- Whether each entry occurs among other entries. -/
def equalEntries : List (Value × Value) → List (Value × Value) → Bool
  | [], _ => true
  | (k, v) :: rest, others =>
    others.any (fun (l, w) ↦ equal k l && equal v w) && equalEntries rest others

end

/-- The value of a key. -/
def lookup? (entries : List (Value × Value)) (key : Value) : Option Value :=
  (entries.find? fun (k, _) ↦ k.equal key).map (·.2)

/-- The value of a key that is a word. -/
def get? (entries : List (Value × Value)) (key : String) : Option Value :=
  lookup? entries (.str key)

/-- Insert an entry: a new key goes last, a known key keeps its place and gets the new value. -/
def insert (entries : List (Value × Value)) (key value : Value) : List (Value × Value) :=
  if entries.any (fun (k, _) ↦ k.equal key) then
    entries.map fun (k, v) ↦ if k.equal key then (k, value) else (k, v)
  else entries ++ [(key, value)]

/-- The entries of a mapping written with the given pairs, in order. -/
def ofPairs (pairs : List (Value × Value)) : List (Value × Value) :=
  pairs.foldl (fun entries (k, v) ↦ insert entries k v) []

/-- Words are equal when they are the same text. -/
@[simp] theorem equal_str (s t : String) : equal (.str s) (.str t) = (s == t) := by
  simp [equal, equalScalar, text?]

end RepoManifest.Value
