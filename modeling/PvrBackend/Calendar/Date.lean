/-!
# Calendar dates

Dates of the Gregorian calendar, extended over all years, and their numbers:
days counted from 1970-01-01. Years are counted with a year zero.

The year of a day number is found from the mean length of a year, which is off
by one year at most.
-/

namespace PvrBackend.Calendar

def isLeap (year : Int) : Bool :=
  year % 4 == 0 && (year % 100 != 0 || year % 400 == 0)

def monthLengths (leap : Bool) : List Nat :=
  [31, if leap then 29 else 28, 31, 30, 31, 30, 31, 31, 30, 31, 30, 31]

def daysOf (lengths : List Nat) : Nat := lengths.foldr (· + ·) 0

@[simp] theorem daysOf_nil : daysOf [] = 0 := rfl

@[simp] theorem daysOf_cons (length : Nat) (lengths : List Nat) :
    daysOf (length :: lengths) = length + daysOf lengths := rfl

/-- Days before the first day of a year, counted from 0001-01-01. -/
def daysBeforeYear (year : Int) : Int :=
  let y := year - 1
  365 * y + y / 4 - y / 100 + y / 400

/-- Days from 0001-01-01 up to 1970-01-01. -/
def epochDay : Int := 719162

structure Date where
  year : Int
  /-- From 1 to 12. -/
  month : Nat
  /-- From 1 up. -/
  day : Nat
deriving DecidableEq, Repr, Inhabited

namespace Date

/-- Whether the month and the day exist. -/
def valid (d : Date) : Bool :=
  match (monthLengths (isLeap d.year))[d.month - 1]? with
  | some length => 1 ≤ d.month && 1 ≤ d.day && d.day ≤ length
  | none => false

/-- Number of the day, 0 for 1970-01-01. -/
def number (d : Date) : Int :=
  daysBeforeYear d.year + daysOf ((monthLengths (isLeap d.year)).take (d.month - 1)) +
    (d.day - 1) - epochDay

/-- Month and day at a distance from the start of the year. -/
def ofDayOfYear : List Nat → Nat → Nat → Nat × Nat
  | [], month, rest => (month, rest + 1)
  | length :: lengths, month, rest =>
    if rest < length then (month, rest + 1) else ofDayOfYear lengths (month + 1) (rest - length)

/-- The year that contains a day counted from 0001-01-01. -/
def yearOf (days : Int) : Int :=
  let guess := 400 * days / 146097 + 1
  if days < daysBeforeYear guess then guess - 1
  else if daysBeforeYear (guess + 1) ≤ days then guess + 1
  else guess

def ofNumber (n : Int) : Date :=
  let days := n + epochDay
  let year := yearOf days
  let (month, day) :=
    ofDayOfYear (monthLengths (isLeap year)) 1 (days - daysBeforeYear year).toNat
  ⟨year, month, day⟩

/-- Day of the week of a numbered day, 0 for a Sunday. -/
def weekday (n : Int) : Nat := ((n + 4) % 7).toNat

/-- Number of the last Sunday of a month. -/
def lastSunday (year : Int) (month : Nat) : Int :=
  let length := ((monthLengths (isLeap year))[month - 1]?).getD 31
  let last := number ⟨year, month, length⟩
  last - weekday last

/-- Number of the first Sunday of a month. -/
def firstSunday (year : Int) (month : Nat) : Int :=
  let first := number ⟨year, month, 1⟩
  first + (7 - weekday first) % 7

example : number ⟨1970, 1, 1⟩ = 0 ∧ number ⟨2000, 3, 1⟩ = 11017 := by decide

example : ofNumber 19723 = ⟨2024, 1, 1⟩ ∧ ofNumber (-1) = ⟨1969, 12, 31⟩ := by decide

example : ofNumber (lastSunday 2024 3) = ⟨2024, 3, 31⟩ := by decide

end Date

end PvrBackend.Calendar
