/-!
# Time zones

A zone says how far its clocks are ahead of universal time: by a first offset
and, from each of its changes on, by the offset of that change. Instants are
seconds of universal time, wall times are what the clocks show as seconds.

A wall time occurs twice when clocks go back and never when they go forward;
`earliest?` gives the first instant at which it occurs.
-/

namespace PvrBackend.Calendar

/-- How far clocks are ahead, and what that time is called. -/
structure Offset where
  seconds : Int
  name : String
deriving DecidableEq, Repr, Inhabited

/-- From `start` on clocks show `offset`. -/
structure Change where
  start : Int
  offset : Offset
deriving DecidableEq, Repr

/-- The clocks of a place: the first offset, and the changes in order of time. -/
structure Zone where
  first : Offset
  changes : List Change
deriving DecidableEq, Repr, Inhabited

namespace Zone

/-- The offset at an instant, when clocks show `current` before the changes. -/
def offsetFrom (current : Offset) : List Change → Int → Offset
  | [], _ => current
  | c :: cs, t => if t < c.start then current else offsetFrom c.offset cs t

def offsetAt (z : Zone) (t : Int) : Offset := offsetFrom z.first z.changes t

/-- What clocks show at an instant. -/
def wall (z : Zone) (t : Int) : Int := t + (z.offsetAt t).seconds

/-- The first instant from `start` on at which clocks show `w`, when they show
`current` from `start` up to the changes. -/
def earliestFrom (start : Option Int) (current : Offset) : List Change → Int → Option Int
  | [], w =>
    let t := w - current.seconds
    if start.all (· ≤ t) then some t else none
  | c :: cs, w =>
    let t := w - current.seconds
    if start.all (· ≤ t) && t < c.start then some t
    else earliestFrom (some c.start) c.offset cs w

/-- The first instant at which clocks show a wall time. -/
def earliest? (z : Zone) (w : Int) : Option Int := earliestFrom none z.first z.changes w

end Zone

end PvrBackend.Calendar
