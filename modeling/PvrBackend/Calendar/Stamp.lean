import PvrBackend.Calendar.Prague
import PvrBackend.Decimal.Numeral
import PvrBackend.Text.Blank

/-!
# Times of the service

A time is written `YYYY-MM-DD HH:MM` as the clocks of Prague show it. Reading
gives the first instant at which the clocks show it; a time that they skip in
spring counts as the one an hour later. Reading is lenient about blanks and
leading zeros: blanks may stand in front of every number, and the blank between
date and time may be missing.

Instants are seconds of universal time since 1970; those outside the years
−262143 to 262142 have no date.
-/

namespace PvrBackend.Calendar

/-- First and last year of the calendar. -/
def yearRange : Int × Int := (-262143, 262142)

def daySeconds : Int := 86400

/-- Seconds as a 64-bit number. A sum or a product that leaves the range wraps around. -/
def wrap (seconds : Int) : Int := seconds.bmod 0x10000000000000000

theorem wrap_eq {seconds : Int} (fits : Decimal.fitsInt64 seconds = true) :
    wrap seconds = seconds := by
  simp only [Decimal.fitsInt64, Bool.and_eq_true, decide_eq_true_eq] at fits
  exact Int.bmod_eq_of_le (by omega) (by omega)

def firstInstant : Int := Date.number ⟨yearRange.1, 1, 1⟩ * daySeconds

/-- First instant after the calendar. -/
def endInstant : Int := Date.number ⟨yearRange.2 + 1, 1, 1⟩ * daySeconds

/-- Whether an instant has a date. -/
def inCalendar (t : Int) : Bool := firstInstant ≤ t && t < endInstant

/-- The instant of a wall time in Prague; a skipped one counts as an hour later. -/
def instant? (w : Int) : Option Int :=
  ((Prague.zone.earliest? w).filter inCalendar).or
    ((Prague.zone.earliest? (w + 3600)).filter inCalendar)

/-- A wall time, from a date and the time of day in seconds. -/
def wallOf (d : Date) (seconds : Nat) : Int := d.number * daySeconds + seconds

/-! ### Reading -/

/-- A number of at most `width` digits, with blanks in front. -/
def readNumber (width : Nat) (cs : List Char) : Option (Nat × List Char) :=
  let cs := Text.skipBlanks cs
  let ds := (cs.take width).takeWhile Char.isDigit
  if ds = [] then none else some (Decimal.value ds, cs.drop ds.length)

/-- A year: four digits at most, or a sign and any number of digits. -/
def readYear (cs : List Char) : Option (Int × List Char) :=
  match Text.skipBlanks cs with
  | '-' :: rest => signed (-1) rest
  | '+' :: rest => signed 1 rest
  | cs => (readNumber 4 cs).map (fun (n, rest) => ((n : Int), rest))
where
  /-- Digits behind a sign. -/
  signed (sign : Int) (cs : List Char) : Option (Int × List Char) :=
    let ds := cs.takeWhile Char.isDigit
    if ds = [] then none else some (sign * Decimal.value ds, cs.drop ds.length)

/-- A character that has to stand next. -/
def expect (c : Char) : List Char → Option (List Char)
  | d :: rest => if d = c then some rest else none
  | [] => none

def readDate (cs : List Char) : Option (Date × List Char) := do
  let (year, cs) ← readYear cs
  let cs ← expect '-' cs
  let (month, cs) ← readNumber 2 cs
  let cs ← expect '-' cs
  let (day, cs) ← readNumber 2 cs
  let date : Date := ⟨year, month, day⟩
  if date.valid && yearRange.1 ≤ year && year ≤ yearRange.2 then pure (date, cs) else none

/-- Hours and minutes as seconds. -/
def readClock (cs : List Char) : Option (Nat × List Char) := do
  let (hour, cs) ← readNumber 2 cs
  let cs ← expect ':' cs
  let (minute, cs) ← readNumber 2 cs
  if hour < 24 && minute < 60 then pure (hour * 3600 + minute * 60, cs) else none

/-- The wall time that a text states. -/
def readWall (s : String) : Option Int := do
  let (date, cs) ← readDate (Text.trim s.toList)
  let (seconds, cs) ← readClock cs
  if cs = [] then pure (wallOf date seconds) else none

/-- The instant of a time of the service. -/
def readTime (s : String) : Option Int := (readWall s).bind instant?

/-- The characters of the first `count` bytes; `none` when the text is shorter or
a character crosses that border. -/
def takeBytes : Nat → List Char → Option (List Char)
  | 0, _ => some []
  | _ + 1, [] => none
  | count, c :: cs =>
    if c.utf8Size ≤ count then (takeBytes (count - c.utf8Size) cs).map (c :: ·) else none

/-- The instant of midnight on the day that starts a text, written in ten bytes. -/
def readMidnight (s : String) : Option Int := do
  let cs ← takeBytes 10 (Text.trim s.toList)
  let (date, rest) ← readDate cs
  if rest = [] then instant? (wallOf date 0) else none

/-! ### Writing -/

/-- Four digits at least; years outside 0 to 9999 have a sign. -/
def yearText (year : Int) : String :=
  if 0 ≤ year ∧ year ≤ 9999 then Decimal.padded 4 year.toNat
  else (if year < 0 then "-" else "+") ++ Decimal.padded 4 year.natAbs

def Date.text (d : Date) : String :=
  yearText d.year ++ "-" ++ Decimal.padded 2 d.month ++ "-" ++ Decimal.padded 2 d.day

def dateOfWall (w : Int) : Date := Date.ofNumber (w / daySeconds)

def clockText (w : Int) : String :=
  let seconds := (w % daySeconds).toNat
  Decimal.padded 2 (seconds / 3600) ++ ":" ++ Decimal.padded 2 (seconds / 60 % 60)

/-- A wall time as the service writes it. -/
def wallText (w : Int) : String := (dateOfWall w).text ++ " " ++ clockText w

/-- An instant as the service writes it; empty when it has no date. -/
def timeText (t : Int) : String := if inCalendar t then wallText (Prague.zone.wall t) else ""

/-- An instant with seconds and the name of the clock time, for reports; the bare
number when it has no date. -/
def reportText (t : Int) : String :=
  if inCalendar t then
    let w := Prague.zone.wall t
    wallText w ++ ":" ++ Decimal.padded 2 (w % 60).toNat ++ " " ++ (Prague.zone.offsetAt t).name
  else Decimal.intText t

/-! ### Days -/

/-- Start of the day of universal time that contains an instant. -/
def universalDayStart (t : Int) : Int := t - t % daySeconds

/-- Start of the day in Prague that contains an instant. -/
def dayStart (t : Int) : Int :=
  if inCalendar t then
    (instant? (wallOf (dateOfWall (Prague.zone.wall t)) 0)).getD (universalDayStart t)
  else universalDayStart t

end PvrBackend.Calendar
