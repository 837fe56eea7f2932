import PvrBackend.Calendar.Stamp
import PvrBackend.Guide.Basic

/-!
# Filling the window

The guide is loaded in chunks: first an hour from now on, so that something
shows soon, then whole days, forward to the end of the window and then backward
to its start. `Coverage` is the span that has been loaded so far, clipped to the
window. Days differ in length where the clocks change, so the end of a day is
found as the start of the next one.
-/

namespace PvrBackend

/-- A part of the guide that is loaded at once: from `start` up to, not
including, `stop`. -/
structure Chunk where
  start : Int
  stop : Int
  /-- An hour instead of a day. -/
  small : Bool
deriving DecidableEq, Repr, Inhabited

namespace Chunk

def hourSeconds : Int := 3600

def hour (start : Int) : Chunk := ⟨start, start + hourSeconds, true⟩

/-- The whole day that begins at `start`. No day is longer than 26 hours. -/
def day (dayStart : Int → Int) (start : Int) : Chunk :=
  ⟨start, dayStart (start + Calendar.daySeconds + 2 * hourSeconds), false⟩

end Chunk

/-- The span that is loaded; an end of 0 means that nothing is. -/
structure Coverage where
  /-- Whether a load has been tried at all. -/
  attempted : Bool := false
  start : Int := 0
  stop : Int := 0
deriving DecidableEq, Repr, Inhabited

namespace Coverage

def reset (c : Coverage) : Coverage := { c with start := 0, stop := 0 }

def next? (c : Coverage) (dayStart : Int → Int) (now : Int) (w : Window) : Option Chunk :=
  if c.stop = 0 then some (.hour now)
  else if c.stop < w.upper then some (.day dayStart (dayStart c.stop))
  else if w.lower < c.start then some (.day dayStart (dayStart (c.start - 1)))
  else none

/-- Whether a chunk lies in the span already. -/
def covers (c : Coverage) (chunk : Chunk) : Bool :=
  c.attempted && c.start != 0 && c.start ≤ chunk.start && chunk.stop ≤ c.stop

def clip (c : Coverage) (w : Window) : Coverage :=
  if c.stop = 0 then c
  else { c with start := max c.start w.lower, stop := min c.stop w.upper }

/-- Take in a chunk that was loaded, and clip. -/
def extend (c : Coverage) (chunk : Chunk) (w : Window) : Coverage :=
  let joined : Coverage :=
    if c.stop = 0 then ⟨true, chunk.start, chunk.stop⟩
    else ⟨true, min c.start chunk.start, max c.stop chunk.stop⟩
  joined.clip w

def noteAttempt (c : Coverage) : Coverage := { c with attempted := true }

/-- Plan and take in chunks until the window is full, at most `limit` of them: the
chunks with whether they were covered when planned, and the span in the end. A
covered chunk ends the filling, since loading it would change nothing. -/
def fill (dayStart : Int → Int) (now : Int) (w : Window) :
    Nat → Coverage → List (Chunk × Bool) × Coverage
  | 0, c => ([], c)
  | limit + 1, c =>
    match c.next? dayStart now w with
    | none => ([], c)
    | some chunk =>
      if c.covers chunk then ([(chunk, true)], c)
      else
        let (chunks, last) := fill dayStart now w limit (c.extend chunk w)
        ((chunk, false) :: chunks, last)

end Coverage

end PvrBackend
