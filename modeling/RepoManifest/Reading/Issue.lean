import RepoManifest.Validation.FieldPath

/-!
# Issues found while reading

Reading a value into a typed structure finds issues: what is wrong, and the path from the value
being read to the part that is wrong.
-/

namespace RepoManifest

/-- What is wrong with a part of a value that is read. -/
inductive ReadFault where
  | notText
  | notUtf8
  | tooShort
  | tooManyDigits
  | notFlag
  | unknownFlag
  | notList
  | notTuple
  | notObject (type : String)
  | missing
  | extra
  | keyNotText
  | frozen
  deriving DecidableEq, Repr, Inhabited

namespace ReadFault

/-- The wording of a fault. -/
def message : ReadFault → String
  | notText => "Input should be a valid string"
  | notUtf8 => "Input should be a valid string, unable to parse raw data as a unicode string"
  | tooShort => "String should have at least 1 character"
  | tooManyDigits => "Value error, " ++ Value.digitLimitMessage
  | notFlag => "Input should be a valid boolean"
  | unknownFlag => "Input should be a valid boolean, unable to interpret input"
  | notList => "Input should be a valid list"
  | notTuple => "Input should be a valid tuple"
  | notObject type => "Input should be a valid dictionary or instance of " ++ type
  | missing => "Field required"
  | extra => "Extra inputs are not permitted"
  | keyNotText => "Keys should be strings"
  | frozen => "Instance is frozen"

end ReadFault

/-- A fault and where it was found. -/
structure Issue where
  path : FieldPath
  fault : ReadFault
  deriving DecidableEq, Repr, Inhabited

namespace Issue

/-- One line: the path, rooted at another path, and the fault. -/
def line (i : Issue) (root : FieldPath := []) : String :=
  FieldPath.join (root ++ i.path) ++ ": " ++ i.fault.message

/-- The same issue seen from one step further out. -/
def under (s : Segment) (i : Issue) : Issue := { i with path := s :: i.path }

end Issue

/-- Texts that are worded elsewhere: what is wrong with the content of a file that is no document,
by its path and its bytes, and what is wrong with the parts of a reference, by their issues. -/
structure Wording where
  content : String → List UInt8 → String
  parts : List Issue → String
  deriving Inhabited

/-- The result of reading: a value, or everything that is wrong with it. -/
abbrev Reading (α : Type) := Except (List Issue) α

namespace Reading

/-- A single fault at the value itself. -/
def fault {α : Type} (f : ReadFault) : Reading α := .error [⟨[], f⟩]

/-- Read a part: its issues are found one step further in. -/
def under {α : Type} (s : Segment) : Reading α → Reading α
  | .ok a => .ok a
  | .error issues => .error (issues.map (Issue.under s))

/-- Read two parts; the issues of both are kept, in order. -/
def ap {α β : Type} : Reading (α → β) → Reading α → Reading β
  | .ok f, .ok a => .ok (f a)
  | .ok _, .error issues => .error issues
  | .error issues, .ok _ => .error issues
  | .error issues, .error more => .error (issues ++ more)

/-- Add issues found elsewhere after those of a reading. -/
def withIssues {α : Type} (r : Reading α) (more : List Issue) : Reading α :=
  match r, more with
  | .ok a, [] => .ok a
  | .ok _, more => .error more
  | .error issues, more => .error (issues ++ more)

/-- The issues of a reading. -/
def issues {α : Type} : Reading α → List Issue
  | .ok _ => []
  | .error issues => issues

/-- Reading two parts succeeds exactly if both parts can be read. -/
theorem ap_eq_ok_iff {α β : Type} {f : Reading (α → β)} {a : Reading α} {b : β} :
    ap f a = .ok b ↔ ∃ g x, f = .ok g ∧ a = .ok x ∧ g x = b := by
  cases f <;> cases a <;> simp [ap]

/-- The issues of two parts are those of the first, then those of the second. -/
theorem issues_ap {α β : Type} (f : Reading (α → β)) (a : Reading α) :
    (ap f a).issues = f.issues ++ a.issues := by
  cases f <;> cases a <;> simp [ap, issues]

/-- Moving a part in changes no success. -/
theorem under_eq_ok_iff {α : Type} {s : Segment} {r : Reading α} {a : α} :
    under s r = .ok a ↔ r = .ok a := by
  cases r <;> simp [under]

end Reading
end RepoManifest
