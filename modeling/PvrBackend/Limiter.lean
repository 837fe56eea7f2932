/-!
# Limiters

A limiter lets a job run at most once per interval. It is polled, more often
than the interval, and fires on a poll that is not before its next due time.
Due times lie on a fixed grid, so a stall makes it fire once and not once for
every interval that went by.

A clock has a latest instant. Where a due time would be after that the program
ends; `start?` and `poll?` have no result there, and otherwise that of `start`
and `poll`.
-/

namespace PvrBackend

/-- A limiter: its interval and its next due time, in milliseconds. -/
structure Limiter where
  interval : Nat
  next : Int
deriving DecidableEq, Repr, Inhabited

namespace Limiter

/-- A limiter that is due at once or, if `delayed`, an interval from now. -/
def start (interval : Nat) (delayed : Bool) (now : Int) : Limiter :=
  ⟨interval, if delayed then now + interval else now⟩

/-- The first due time behind `now`, given that the next one is not. Without an
interval the limiter is due again at once. -/
def following (l : Limiter) (now : Int) : Int :=
  if l.interval = 0 then now
  else l.next + ((now - l.next) / l.interval + 1) * l.interval

/-- With an interval the following due time lies behind `now`. -/
theorem lt_following (l : Limiter) (now : Int) (h : 0 < l.interval) : now < l.following now := by
  have hi : (0 : Int) < l.interval := Int.natCast_pos.mpr h
  have hq := Int.lt_ediv_add_one_mul_self (now - l.next) hi
  rw [following, if_neg (Nat.ne_of_gt h)]
  omega

/-- Poll the limiter; whether it fires. -/
def poll (l : Limiter) (now : Int) : Bool × Limiter :=
  if now < l.next then (false, l) else (true, { l with next := l.following now })

theorem poll_of_lt {l : Limiter} {now : Int} (h : now < l.next) : l.poll now = (false, l) :=
  if_pos h

theorem poll_of_le {l : Limiter} {now : Int} (h : l.next ≤ now) :
    l.poll now = (true, { l with next := l.following now }) :=
  if_neg (Int.not_lt.mpr h)

theorem poll_interval (l : Limiter) (now : Int) : (l.poll now).2.interval = l.interval := by
  rw [poll]
  split <;> rfl

def pollAll (l : Limiter) : List Int → List Bool × Limiter
  | [] => ([], l)
  | t :: ts =>
    let (fires, l) := l.poll t
    let (rest, l) := l.pollAll ts
    (fires :: rest, l)

end Limiter

end PvrBackend
