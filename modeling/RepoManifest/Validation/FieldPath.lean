import RepoManifest.Value.Equality
import RepoManifest.Value.Misuse
import RepoManifest.Value.Text

/-!
# Field paths

The path from an object to one of its fields is a list of field names and list positions, written
`a.b[0].c`. `FieldPath.join` writes a path. `FieldPath.joinValues` writes a path of unchecked
segments: it agrees with `join` on names and integers (`joinValues_toValue`) and says what becomes
of segments of other kinds. Both write positions of any size; `FieldPath.written` is the written
form of a path if its positions have no more digits than an integer may have.
-/

namespace RepoManifest

/-- One step of a path: into a field or to a position of a list. -/
inductive Segment where
  | name (name : String)
  | index (position : Int)
  deriving DecidableEq, Repr, Inhabited

/-- A segment as a value. -/
def Segment.toValue : Segment → Value
  | .name s => .str s
  | .index n => .int n

/-- The steps from an object to a field. -/
abbrev FieldPath := List Segment

namespace FieldPath

/-- Extend a written path by one step. A name that follows nothing stands alone. -/
def step (written : String) : Segment → String
  | .index n => written ++ ("[" ++ toString n ++ "]")
  | .name s => if written.isEmpty then s else written ++ ("." ++ s)

/-- The written form of a path. -/
def join (path : FieldPath) : String := path.foldl step ""

/-- Whether a path can be written: no position has too many digits. -/
def isWritable (path : FieldPath) : Bool := path.all (·.toValue.hasLiteral)

/-- The written form of a path that can be written. -/
def written (path : FieldPath) : Except Misuse String :=
  if path.isWritable then .ok path.join else .error .tooManyDigits

/-- Extend a written value by a text. Only words, and lists of characters, can be extended. -/
def extend (written : Value) (text : String) : Except Misuse Value :=
  match written, written.text? with
  | .list items, _ => .ok (.list (items ++ text.toList.map fun c ↦ .str c.toString))
  | _, some s => .ok (.str (s ++ text))
  | _, none => .error .wrongKind

/-- Extend a written value by an unchecked segment. Integers and truth values are positions; what
was written so far is replaced if it counts as empty. -/
def stepValue (written segment : Value) : Except Misuse Value :=
  match segment with
  | .int n | .member _ _ (.int n) => extend written ("[" ++ toString n ++ "]")
  | .bool b => extend written ("[" ++ Value.boolLiteral b ++ "]")
  | v => if written.truthy then extend written ("." ++ v.display) else .ok v

/-- The written form of a path of unchecked segments. -/
def joinValues (segments : List Value) : Except Misuse Value :=
  segments.foldlM stepValue (.str "")

/-- A path is written step by step. -/
theorem join_concat (path : FieldPath) (s : Segment) : join (path ++ [s]) = step (join path) s := by
  simp [join]

/-- The empty path is written as nothing. -/
@[simp] theorem join_nil : join [] = "" := rfl

/-- On names and integers, unchecked segments are written like checked ones. -/
theorem stepValue_toValue (written : String) (s : Segment) :
    stepValue (.str written) s.toValue = .ok (.str (step written s)) := by
  cases s with
  | index n => rfl
  | name s =>
    simp only [Segment.toValue, stepValue, Value.truthy, step, extend, Value.text?,
      Value.display_str]
    by_cases h : written.isEmpty <;> simp [h]

/-- On names and integers, unchecked paths are written like checked ones. -/
theorem joinValues_toValue (path : FieldPath) :
    joinValues (path.map Segment.toValue) = .ok (.str (join path)) := by
  have from_ (written : String) :
      (path.map Segment.toValue).foldlM stepValue (Value.str written) =
        Except.ok (.str (path.foldl step written)) := by
    induction path generalizing written with
    | nil => rfl
    | cons s rest ih =>
      simp only [List.map_cons, List.foldlM_cons, stepValue_toValue, List.foldl_cons]
      exact ih (step written s)
  exact from_ ""

end FieldPath
end RepoManifest
