/-!
# Misuse of unchecked values

Fields of an unchecked object may hold values of any kind. An operation that meets a value on which
it is not defined stops with one of these causes.
-/

namespace RepoManifest

/-- Why an operation is not defined on a value. -/
inductive Misuse where
  /-- The value is of a kind that the operation does not take. -/
  | wrongKind
  /-- The value has no field or operation of the name that was asked for. -/
  | noSuchField
  /-- The text of an integer would have too many digits. -/
  | tooManyDigits
  deriving DecidableEq, Repr, Inhabited

end RepoManifest
