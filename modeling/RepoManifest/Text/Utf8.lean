/-!
# Reading UTF-8

Strict decoding: overlong forms, surrogates and code points beyond the last plane are refused. A
refusal names the first offending bytes and the reason.
-/

namespace RepoManifest.Text

/-- Why bytes are not UTF-8. -/
inductive Utf8Fault where
  | start
  | continuation
  | truncated
  deriving DecidableEq, Repr

/-- The fault's wording. -/
def Utf8Fault.reason : Utf8Fault → String
  | .start => "invalid start byte"
  | .continuation => "invalid continuation byte"
  | .truncated => "unexpected end of data"

/-- The bytes at which decoding stopped: where they start, how many they are, and the first. -/
structure Utf8Error where
  fault : Utf8Fault
  offset : Nat
  length : Nat
  byte : UInt8
  deriving DecidableEq, Repr

/-- One line that names the bytes and the reason. -/
def Utf8Error.message (e : Utf8Error) : String :=
  let bytes :=
    if e.length = 1 then
      "byte 0x" ++ String.ofList (hexByte e.byte.toNat) ++ " in position " ++ toString e.offset
    else
      "bytes in position " ++ toString e.offset ++ "-" ++ toString (e.offset + e.length - 1)
  "'utf-8' codec can't decode " ++ bytes ++ ": " ++ e.fault.reason
where
  hexByte (n : Nat) : List Char :=
    let digits := Nat.toDigits 16 n
    List.replicate (2 - digits.length) '0' ++ digits

/-- The number of continuation bytes after a leading byte, the range of the first of them, and the
bits that the leading byte gives; nothing for a byte that cannot lead. -/
def leadingByte? (b : Nat) : Option (Nat × Nat × Nat × Nat) :=
  if b < 0x80 then some (0, 0x80, 0xbf, b)
  else if b < 0xc2 then none
  else if b < 0xe0 then some (1, 0x80, 0xbf, b % 0x20)
  else if b < 0xf0 then
    some (2, if b = 0xe0 then 0xa0 else 0x80, if b = 0xed then 0x9f else 0xbf, b % 0x10)
  else if b < 0xf5 then
    some (3, if b = 0xf0 then 0x90 else 0x80, if b = 0xf4 then 0x8f else 0xbf, b % 0x08)
  else none

/-- Read `count` continuation bytes, the first of them between `low` and `high`. On failure: the
fault and how many continuation bytes were good. -/
def continuation (low high : Nat) :
    Nat → Nat → Nat → List UInt8 → Except (Utf8Fault × Nat) (Nat × List UInt8)
  | 0, code, _, rest => .ok (code, rest)
  | _ + 1, _, good, [] => .error (.truncated, good)
  | count + 1, code, good, b :: rest =>
    if low ≤ b.toNat ∧ b.toNat ≤ high then
      continuation 0x80 0xbf count (code * 0x40 + b.toNat % 0x40) (good + 1) rest
    else .error (.continuation, good)

/-- Reading continuation bytes takes bytes off the front. -/
theorem length_continuation {low high count code good : Nat} {bytes rest : List UInt8} {c : Nat}
    (h : continuation low high count code good bytes = .ok (c, rest)) :
    rest.length ≤ bytes.length := by
  induction count generalizing low high code good bytes with
  | zero =>
    simp only [continuation, Except.ok.injEq, Prod.mk.injEq] at h
    exact Nat.le_of_eq (by rw [h.2])
  | succ n ih =>
    cases bytes with
    | nil => simp [continuation] at h
    | cons b bs =>
      simp only [continuation] at h
      split at h
      · exact Nat.le_succ_of_le (ih h)
      · simp at h

/-- Decode the bytes that start at `offset`. -/
def decodeFrom (offset : Nat) (bytes : List UInt8) : Except Utf8Error (List Char) :=
  match bytes with
  | [] => .ok []
  | b :: rest =>
    match leadingByte? b.toNat with
    | none => .error ⟨.start, offset, 1, b⟩
    | some (count, low, high, code) =>
      match h : continuation low high count code 0 rest with
      | .error (fault, good) => .error ⟨fault, offset, good + 1, b⟩
      | .ok (code, rest') => do
        have : rest'.length ≤ rest.length := length_continuation h
        return Char.ofNat code :: (← decodeFrom (offset + count + 1) rest')
termination_by bytes.length
decreasing_by simp; omega

/-- Decode a whole byte string. -/
def decodeUtf8 (bytes : List UInt8) : Except Utf8Error String :=
  (decodeFrom 0 bytes).map String.ofList

/-- Decode a byte string that may start with a byte-order mark, which is no part of the text. A
string that ends within the mark is empty. -/
def decodeUtf8Signed : List UInt8 → Except Utf8Error String
  | 0xef :: 0xbb :: 0xbf :: rest => decodeUtf8 rest
  | [0xef] | [0xef, 0xbb] => .ok ""
  | bytes => decodeUtf8 bytes

end RepoManifest.Text
