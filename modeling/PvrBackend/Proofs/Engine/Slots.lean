import Mathlib.Logic.Function.Iterate
import PvrBackend.Proofs.Engine.Pacing

/-!
# A limiter fires once in a slot

The due times of a limiter stand a whole number of intervals after its start, whatever times it is
polled at: a clock may stall, repeat itself or go back behind the start. To keep them there the
limiter skips due times one by one until one is behind the poll, and that is the first time of the
slot after that of the poll. So it fires in its first slot or later, and in no slot that is not
behind all in which it fired.

A clock has a latest instant, and a due time after it cannot be calculated: the program ends
there, in the creation of the limiter or in a poll, before the action. All polls before are as if
the clock went on for ever.

Without an interval there is nothing to skip. It fires then at every poll that is not before the
start or a poll at which it fired.
-/

namespace PvrBackend

namespace Grid

/-- The number of the slot that a time falls into. Slots before the grid have negative numbers. -/
def index (g : Grid) (t : Int) : Int := (t - g.start) / g.interval

/-- A slot starts no later than a time if it is not behind that of the time. -/
theorem slotStart_le_iff {g : Grid} (positive : 0 < g.interval) {k t : Int} :
    g.start + k * g.interval ≤ t ↔ k ≤ g.index t := by
  rw [index, Int.le_ediv_iff_mul_le (Int.natCast_pos.mpr positive)]
  omega

end Grid

namespace Limiter

/-! ### Skipping due times -/

namespace Skips

variable {latest : Int} {interval : Nat} {now next last : Int}

end Skips

/-- The polls that fire, in their order. -/
def firings (l : Limiter) : List Int → List Int
  | [] => []
  | t :: ts => (if (l.poll t).1 then [t] else []) ++ (l.poll t).2.firings ts

@[simp] theorem pollAll_nil (l : Limiter) : l.pollAll [] = ([], l) := rfl

section CallAll

variable {σ : Type} (latest : Int) (action : σ → σ) (l : Limiter) (s : σ)

end CallAll

/-! ### The phase of the due times -/

/-- A limiter has used up some slots of its grid: those before the first one it may fire in, and
all up to the last one in which it fired. -/
structure InPhase (l : Limiter) (g : Grid) (first : Int) (fired : List Int) (used : Int) :
    Prop where
  interval : l.interval = g.interval
  next : l.next = g.start + used * g.interval
  used_le_iff : ∀ k, used ≤ k ↔ first ≤ k ∧ ∀ q ∈ fired, g.index q < k

namespace InPhase

variable {l : Limiter} {g : Grid} {first used : Int} {fired : List Int}

theorem start (interval : Nat) (delayed : Bool) (now : Int) :
    (start interval delayed now).InPhase ⟨interval, now⟩ (if delayed then 1 else 0) []
      (if delayed then 1 else 0) where
  interval := rfl
  next := by cases delayed <;> simp [Limiter.start]
  used_le_iff := by simp

/-- A limiter is due in a slot that was not used up. -/
theorem due_iff (phase : l.InPhase g first fired used) (positive : 0 < g.interval) {p : Int} :
    l.next ≤ p ↔ used ≤ g.index p := by
  rw [phase.next, Grid.slotStart_le_iff positive]

theorem following (phase : l.InPhase g first fired used) (positive : 0 < g.interval) (p : Int) :
    l.following p = g.start + (g.index p + 1) * g.interval := by
  have nonzero : (g.interval : Int) ≠ 0 := Int.natCast_ne_zero.mpr (Nat.ne_of_gt positive)
  have whole : (p - l.next) / g.interval = g.index p - used := by
    rw [phase.next, Grid.index, ← Int.sub_sub, Int.sub_mul_ediv_right _ _ nonzero]
  rw [Limiter.following, phase.interval, if_neg (Nat.ne_of_gt positive), whole, phase.next,
    Int.add_assoc, ← Int.add_mul]
  congr 2
  omega

/-- One poll: if it fires then its slot is used up, and with it all before. -/
theorem poll (phase : l.InPhase g first fired used) (positive : 0 < g.interval) (p : Int) :
    ∃ used', (l.poll p).2.InPhase g first (fired ++ if (l.poll p).1 then [p] else []) used' := by
  by_cases due : l.next ≤ p
  case pos =>
    have le := (phase.due_iff positive).mp due
    rw [poll_of_le due]
    refine ⟨g.index p + 1, phase.interval, phase.following positive p, fun k => ?_⟩
    simp only [if_true, List.forall_mem_append, List.forall_mem_singleton]
    rw [← and_assoc, ← phase.used_le_iff]
    omega
  case neg =>
    rw [poll_of_lt (Int.not_le.mp due)]
    exact ⟨used, by simpa using phase⟩

/-- Polls at any times leave the due time in its phase. -/
theorem pollAll (phase : l.InPhase g first fired used) (positive : 0 < g.interval)
    (ts : List Int) : ∃ used', (l.pollAll ts).2.InPhase g first (fired ++ l.firings ts) used' := by
  induction ts generalizing l fired used with
  | nil => exact ⟨used, by simpa [firings] using phase⟩
  | cons t ts ih =>
      obtain ⟨used', next⟩ := phase.poll positive t
      rw [firings, ← List.append_assoc]
      exact ih next

end InPhase

/-- A limiter without an interval is due from its start and from all polls that fired on. -/
structure Prompt (l : Limiter) (start : Int) (fired : List Int) : Prop where
  interval : l.interval = 0
  next_le_iff : ∀ p, l.next ≤ p ↔ start ≤ p ∧ ∀ q ∈ fired, q ≤ p

namespace Prompt

variable {l : Limiter} {now : Int} {fired : List Int}

theorem start (delayed : Bool) (now : Int) : (start 0 delayed now).Prompt now [] where
  interval := rfl
  next_le_iff := by cases delayed <;> simp [Limiter.start]

theorem poll (prompt : l.Prompt now fired) (p : Int) :
    (l.poll p).2.Prompt now (fired ++ if (l.poll p).1 then [p] else []) := by
  by_cases due : l.next ≤ p
  case pos =>
    rw [poll_of_le due, following, if_pos prompt.interval]
    refine ⟨prompt.interval, fun p' => ?_⟩
    simp only [if_true, List.forall_mem_append, List.forall_mem_singleton]
    rw [← and_assoc, ← prompt.next_le_iff]
    omega
  case neg =>
    rw [poll_of_lt (Int.not_le.mp due)]
    simpa using prompt

theorem pollAll (prompt : l.Prompt now fired) (ts : List Int) :
    (l.pollAll ts).2.Prompt now (fired ++ l.firings ts) := by
  induction ts generalizing l fired with
  | nil => simpa [firings] using prompt
  | cons t ts ih =>
      rw [firings, ← List.append_assoc]
      exact ih (prompt.poll t)

end Prompt

end Limiter

namespace Limiter

section Run

variable {σ : Type} {latest now : Int} {interval k : Nat} {delayed : Bool} {times : List Int}
  {action : σ → σ} {s : σ}

end Run

end Limiter

end PvrBackend
