import RepoManifest.Validation.FieldError

/-!
# Lines that can be written

Lines are written in order, and the first one that cannot be written stops them all. So the lines of
an invalid object, and its message with them, are there exactly if every single one can be written.
-/

namespace RepoManifest

/-- Texts of items are written exactly if the text of every item can be written. -/
theorem mapM_guarded {α β ε : Type} (isWritable : α → Bool) (text : α → β) (e : ε)
    (items : List α) :
    (items.mapM fun item ↦ if isWritable item then Except.ok (text item) else .error e) =
      if items.all isWritable then .ok (items.map text) else .error e := by
  induction items with
  | nil => rfl
  | cons item rest ih =>
    rw [List.mapM_cons, ih, List.all_cons]
    cases isWritable item with
    | false => rfl
    | true => cases rest.all isWritable <;> rfl

namespace InvalidObject

/-- The message of an invalid object, if it can be written: a heading and the indented lines. -/
def text (e : InvalidObject) : String :=
  e.name ++ " is invalid:\n" ++ "\n".intercalate (e.errors.map ("  - " ++ ·))

/-- Whether every line of an invalid object can be written. -/
def isWritable (e : InvalidObject) : Bool := e.violations.all Violation.isWritable

/-- The message is written exactly if every line can be written. -/
theorem message_eq (e : InvalidObject) :
    e.message = if e.isWritable then .ok e.text else .error .tooManyDigits := by
  have hlines : e.violations.mapM Violation.message = _ :=
    mapM_guarded Violation.isWritable Violation.line Misuse.tooManyDigits e.violations
  rw [message, hlines, isWritable]
  split <;> rfl

end InvalidObject
end RepoManifest
