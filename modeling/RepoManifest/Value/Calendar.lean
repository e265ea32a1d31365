import RepoManifest.Value.Basic

/-!
# Days and times of the calendar

Days of the Gregorian calendar from the year 1 to the year 9999, and the point in time that lies a
number of seconds before or after another.
-/

namespace RepoManifest

namespace Date

/-- Whether a year has a leap day. -/
def isLeap (year : Nat) : Bool := year % 4 == 0 && (year % 100 != 0 || year % 400 == 0)

/-- The number of days of a month. -/
def daysIn (year month : Nat) : Nat :=
  if month = 2 then if isLeap year then 29 else 28
  else if month = 4 ∨ month = 6 ∨ month = 9 ∨ month = 11 then 30
  else 31

/-- A day, if the calendar has it. -/
def make? (year month day : Nat) : Option Date :=
  if 1 ≤ year ∧ year ≤ 9999 ∧ 1 ≤ month ∧ month ≤ 12 ∧ 1 ≤ day ∧ day ≤ daysIn year month then
    some ⟨year, month, day⟩
  else none

/-- The day after a day. -/
def next? (d : Date) : Option Date :=
  (make? d.year d.month (d.day + 1)).or <|
    (make? d.year (d.month + 1) 1).or (make? (d.year + 1) 1 1)

/-- The day before a day. -/
def previous? (d : Date) : Option Date :=
  (make? d.year d.month (d.day - 1)).or <|
    (make? d.year (d.month - 1) (daysIn d.year (d.month - 1))).or (make? (d.year - 1) 12 31)

/-- The day that lies a number of days after a day. -/
def add? (d : Date) : Int → Option Date
  | .ofNat n => n.repeat (fun day ↦ day.bind next?) (some d)
  | .negSucc n => (n + 1).repeat (fun day ↦ day.bind previous?) (some d)

end Date

namespace TimeOfDay

/-- A time of day, if the clock has it. -/
def make? (hour minute second microsecond : Nat) : Option TimeOfDay :=
  if hour < 24 ∧ minute < 60 ∧ second < 60 ∧ microsecond < 1000000 then
    some ⟨hour, minute, second, microsecond⟩
  else none

/-- The number of full seconds since midnight. -/
def seconds (t : TimeOfDay) : Nat := (t.hour * 60 + t.minute) * 60 + t.second

end TimeOfDay

/-- The point in time that lies a number of seconds after another. -/
def shiftSeconds? (day : Date) (time : TimeOfDay) (seconds : Int) : Option (Date × TimeOfDay) :=
  let total := time.seconds + seconds
  let rest := (total % 86400).toNat
  (day.add? (total / 86400)).map fun day ↦
    (day, ⟨rest / 3600, rest / 60 % 60, rest % 60, time.microsecond⟩)

end RepoManifest
