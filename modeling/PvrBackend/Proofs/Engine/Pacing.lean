import PvrBackend.Limiter

/-!
# What a limiter paces

The due times of a limiter part the time from its start on into slots of one interval each. A
poll uses up the slots before it and its own, and fires if its own was not used up yet. So there
are at most as many polls that fire as there are slots.

What a job does when its limiter fires is paced if it asks for one thing at most. A job that goes
on while it succeeds is still paced by its failures: it asks once more in the slot of a success.
-/

namespace PvrBackend

/-- A grid of slots of one interval each, from a time on. -/
structure Grid where
  interval : Nat
  start : Int

namespace Grid

variable (g : Grid)

/-- The slot that a time falls into. What comes before the grid goes into its first. -/
def slot (t : Int) : Nat := (t - g.start).toNat / g.interval

/-- How many of the times fall into a slot. -/
def inSlot (k : Nat) (ts : List Int) : Nat := ts.countP (g.slot · = k)

theorem slot_mono {t t' : Int} (le : t ≤ t') : g.slot t ≤ g.slot t' :=
  Nat.div_le_div_right (Int.toNat_le_toNat (Int.sub_le_sub_right le g.start))

theorem slot_of_le {t : Int} (le : t ≤ g.start) : g.slot t = 0 := by
  rw [slot, Int.toNat_of_nonpos (Int.sub_nonpos_of_le le), Nat.zero_div]

theorem inSlot_append (k : Nat) (ts ts' : List Int) :
    g.inSlot k (ts ++ ts') = g.inSlot k ts + g.inSlot k ts' :=
  List.countP_append

theorem inSlot_singleton (k : Nat) (t : Int) : g.inSlot k [t] = if g.slot t = k then 1 else 0 := by
  rw [inSlot, List.countP_singleton]
  simp only [decide_eq_true_eq]

theorem inSlot_eq_zero {k : Nat} {ts : List Int} (outside : ∀ t ∈ ts, g.slot t ≠ k) :
    g.inSlot k ts = 0 :=
  List.countP_eq_zero.mpr fun t member => by simpa using outside t member

end Grid

namespace Limiter

/-! ### Slots used up -/

/-- A limiter has used up some slots of its grid, and none that is still to come. -/
structure OnGrid (l : Limiter) (g : Grid) (now : Int) (used : Nat) : Prop where
  interval : l.interval = g.interval
  positive : 0 < g.interval
  started : g.start ≤ now
  next : l.next = g.start + (used * g.interval : Nat)
  used_le : used ≤ g.slot now + 1

/-- A limiter that starts is due in its first slot or, if it is delayed, in the next one. -/
theorem onGrid_start {interval : Nat} (positive : 0 < interval) (delayed : Bool) (now : Int) :
    (start interval delayed now).OnGrid ⟨interval, now⟩ now delayed.toNat where
  interval := rfl
  positive := positive
  started := Int.le_refl now
  next := by cases delayed <;> simp [start]
  used_le := by
    rw [Grid.slot_of_le ⟨interval, now⟩ (Int.le_refl now)]
    exact Bool.toNat_le delayed

namespace OnGrid

variable {l : Limiter} {g : Grid} {now : Int} {used : Nat}

theorem lt_next_iff (grid : l.OnGrid g now used) : now < l.next ↔ g.slot now < used := by
  rw [grid.next, Grid.slot, Nat.div_lt_iff_lt_mul grid.positive]
  have started := grid.started
  omega

theorem wait (grid : l.OnGrid g now used) {later : Int} (passed : now ≤ later) :
    l.OnGrid g later used :=
  { grid with
    started := Int.le_trans grid.started passed
    used_le := Nat.le_trans grid.used_le (Nat.add_le_add_right (g.slot_mono passed) 1) }

/-- From any due time on, the following one is that at the end of the slot of the poll. -/
theorem following (grid : l.OnGrid g now used) :
    l.following now = g.start + ((g.slot now + 1) * g.interval : Nat) := by
  have nonzero : (g.interval : Int) ≠ 0 := Int.natCast_ne_zero.mpr (Nat.ne_of_gt grid.positive)
  have elapsed : ((now - g.start).toNat : Int) = now - g.start :=
    Int.toNat_of_nonneg (Int.sub_nonneg_of_le grid.started)
  have whole : (now - l.next) / g.interval = g.slot now - used := by
    have shift : now - l.next = (now - g.start) + -(used : Int) * g.interval := by
      rw [grid.next, Int.neg_mul]
      omega
    rw [shift, Int.add_mul_ediv_right _ _ nonzero, Grid.slot, Int.natCast_ediv, elapsed]
    omega
  rw [Limiter.following, grid.interval, if_neg (Nat.ne_of_gt grid.positive), whole, grid.next]
  push_cast
  rw [Int.add_assoc, ← Int.add_mul]
  congr 2
  omega

/-- A poll uses up all slots up to its own. -/
theorem poll (grid : l.OnGrid g now used) : (l.poll now).2.OnGrid g now (g.slot now + 1) := by
  refine ⟨(l.poll_interval now).trans grid.interval, grid.positive, grid.started, ?_,
    Nat.le_refl _⟩
  by_cases due : now < l.next
  · have up : used = g.slot now + 1 := Nat.le_antisymm grid.used_le (grid.lt_next_iff.mp due)
    rw [poll_of_lt due, grid.next, up]
  · rw [poll_of_le (Int.not_lt.mp due)]
    exact grid.following

/-- A poll fires if its slot was not used up before. -/
theorem poll_fst (grid : l.OnGrid g now used) : (l.poll now).1 = decide (used ≤ g.slot now) := by
  by_cases due : now < l.next
  · rw [poll_of_lt due, decide_eq_false (Nat.not_le.mpr (grid.lt_next_iff.mp due))]
  · have le : used ≤ g.slot now := by
      rw [grid.lt_next_iff] at due
      exact Nat.not_lt.mp due
    rw [poll_of_le (Int.not_lt.mp due), decide_eq_true le]

end OnGrid

/-! ### Jobs that keep the pace -/

/-- Whether there is something to ask for. -/
inductive Turn where
  | idle
  /-- Once more, in the slot of the last poll. -/
  | again
  /-- Now. -/
  | due
deriving DecidableEq, Repr

/-- What a success or failure leaves to do. -/
def Turn.after (loaded : Bool) : Turn := if loaded then .again else .idle

/-- How often something may be asked for before the next poll. -/
def Turn.room (turn : Turn) : Nat := if turn = .idle then 0 else 1

/-- What a job asked for, and what of it came, fits into the slots that its limiter used up, from
the first of them that counts on. -/
structure Ledger (l : Limiter) (g : Grid) (now : Int) (first : Nat) (asked loads : List Int)
    (turn : Turn) (used : Nat) : Prop where
  grid : l.OnGrid g now used
  total : asked.length + turn.room + first ≤ used + loads.length
  before : ∀ t ∈ asked, g.slot t < used
  each : ∀ k, g.inSlot k asked ≤ 1 + g.inSlot k loads
  /-- In the last of the slots there is room if it is not the turn of the limiter. -/
  last : ∀ k, turn ≠ .idle → used = k + 1 → g.inSlot k asked ≤ g.inSlot k loads
  ready : turn = .due → used = g.slot now + 1

/-- A job keeps the pace of a limiter. -/
def Paces (l : Limiter) (g : Grid) (now : Int) (first : Nat) (asked loads : List Int)
    (turn : Turn) : Prop :=
  ∃ used, l.Ledger g now first asked loads turn used

/-- A limiter starts with what was asked for before it. That goes into a first slot in which it
does not fire. -/
theorem paces_start {interval first : Nat} {now : Int} {asked : List Int} {delayed : Bool}
    (positive : 0 < interval) (few : asked.length + first ≤ delayed.toNat)
    (past : ∀ t ∈ asked, t ≤ now) :
    (start interval delayed now).Paces ⟨interval, now⟩ now first asked [] .idle := by
  have one : asked.length ≤ 1 :=
    Nat.le_trans (Nat.le_trans (Nat.le_add_right _ first) few) (Bool.toNat_le delayed)
  refine ⟨delayed.toNat, onGrid_start positive delayed now, few, fun t member => ?_, fun k => ?_,
    nofun, nofun⟩
  · rw [Grid.slot_of_le ⟨interval, now⟩ (past t member)]
    have some := List.length_pos_of_mem member
    omega
  · exact Nat.le_trans List.countP_le_length one

namespace Paces

variable {l : Limiter} {g : Grid} {now : Int} {first : Nat} {asked loads : List Int} {turn : Turn}

theorem wait (paces : l.Paces g now first asked loads turn) (rests : turn ≠ .due) {later : Int}
    (passed : now ≤ later) : l.Paces g later first asked loads turn := by
  obtain ⟨used, ledger⟩ := paces
  exact ⟨used, { ledger with
    grid := ledger.grid.wait passed
    ready := fun due => absurd due rests }⟩

/-- What there is to ask for may be left. -/
theorem leave (paces : l.Paces g now first asked loads turn) :
    l.Paces g now first asked loads .idle := by
  obtain ⟨used, ledger⟩ := paces
  have total : asked.length + 0 + first ≤ used + loads.length := by
    have total := ledger.total
    omega
  exact ⟨used, { ledger with total, last := nofun, ready := nofun }⟩

/-- After a poll there is something to ask for if the limiter fired, or if there was before. -/
theorem poll (more : Bool) (paces : l.Paces g now first asked loads (.after more)) :
    (l.poll now).2.Paces g now first asked loads
      (if (l.poll now).1 || more then .due else .idle) := by
  obtain ⟨used, ledger⟩ := paces
  have total := ledger.total
  have le := ledger.grid.used_le
  refine ⟨g.slot now + 1, ledger.grid.poll, ?_, fun t member => ?_, ledger.each, ?_, fun _ => rfl⟩
  · rw [ledger.grid.poll_fst]
    cases more <;> simp only [Turn.after, Turn.room] at total ⊢ <;> grind
  · exact Nat.lt_of_lt_of_le (ledger.before t member) le
  · intro k busy same
    obtain rfl : g.slot now = k := Nat.succ.inj same
    by_cases fires : used ≤ g.slot now
    · -- nothing was asked for yet in a slot that was not used up
      have none : g.inSlot (g.slot now) asked = 0 := g.inSlot_eq_zero fun t member =>
        Nat.ne_of_lt (Nat.lt_of_lt_of_le (ledger.before t member) fires)
      rw [none]
      exact Nat.zero_le _
    · have up : used = g.slot now + 1 := by omega
      cases more with
      | false => simp [ledger.grid.poll_fst, fires] at busy
      | true => exact ledger.last _ nofun up

/-- What is due is asked for, and may be asked for once more if it comes. -/
theorem ask (paces : l.Paces g now first asked loads .due) (loaded : Bool) :
    l.Paces g now first (asked ++ [now]) (loads ++ if loaded then [now] else [])
      (.after loaded) := by
  obtain ⟨used, ledger⟩ := paces
  have ready := ledger.ready rfl
  have total := ledger.total
  have last := fun k => ledger.last k nofun
  refine ⟨used, ledger.grid, ?_, ?_, fun k => ?_, fun k busy up => ?_, ?_⟩
  · cases loaded <;> simp [Turn.after, Turn.room] at total ⊢ <;> omega
  · intro t member
    rcases List.mem_append.mp member with before | added
    · exact ledger.before t before
    · obtain rfl := List.mem_singleton.mp added
      omega
  · have each := ledger.each k
    rw [g.inSlot_append, g.inSlot_append, g.inSlot_singleton]
    split
    next same =>
      have room := last k (same ▸ ready)
      omega
    next => omega
  · cases loaded with
    | false => exact absurd rfl busy
    | true =>
        have room := last k up
        rw [g.inSlot_append, g.inSlot_append]
        simp only [if_true]
        omega
  · cases loaded <;> exact nofun

theorem start_le (paces : l.Paces g now first asked loads turn) : g.start ≤ now := by
  obtain ⟨used, ledger⟩ := paces
  exact ledger.grid.started

/-- No more is asked for than there were slots, and what came. -/
theorem length_le (paces : l.Paces g now first asked loads turn) :
    asked.length + first ≤ 1 + g.slot now + loads.length := by
  obtain ⟨used, ledger⟩ := paces
  have total := ledger.total
  have le := ledger.grid.used_le
  omega

/-- In each slot no more is asked for than once, and once more for what came in it. -/
theorem inSlot_le (paces : l.Paces g now first asked loads turn) (k : Nat) :
    g.inSlot k asked ≤ 1 + g.inSlot k loads := by
  obtain ⟨used, ledger⟩ := paces
  exact ledger.each k

end Paces

/-! ### Requests that wait -/

/-- What was served and what waits keeps the pace of a limiter that makes requests, and of others
that make some too. -/
def Feeds (l : Limiter) (g : Grid) (now : Int) (count requests : Nat) : Prop :=
  ∃ used, l.OnGrid g now used ∧ count ≤ used + requests

namespace Feeds

variable {l : Limiter} {g : Grid} {now : Int} {count requests : Nat}

theorem wait (feeds : l.Feeds g now count requests) {later : Int} (passed : now ≤ later) :
    l.Feeds g later count requests := by
  obtain ⟨used, grid, le⟩ := feeds
  exact ⟨used, grid.wait passed, le⟩

/-- What is served no longer waits, and a request more is one that may wait. -/
theorem mono (feeds : l.Feeds g now count requests) {count' requests' : Nat}
    (le : count' + requests ≤ count + requests') : l.Feeds g now count' requests' := by
  obtain ⟨used, grid, le'⟩ := feeds
  exact ⟨used, grid, by omega⟩

/-- A limiter that fires makes a request. -/
theorem poll (feeds : l.Feeds g now count requests) :
    (l.poll now).2.Feeds g now (count + (l.poll now).1.toNat) requests := by
  obtain ⟨used, grid, le⟩ := feeds
  have most := grid.used_le
  refine ⟨_, grid.poll, ?_⟩
  rw [grid.poll_fst]
  by_cases fires : used ≤ g.slot now
  · simp only [fires, decide_true, Bool.toNat_true]
    omega
  · simp only [fires, decide_false, Bool.toNat_false]
    omega

theorem count_le (feeds : l.Feeds g now count requests) :
    count ≤ 1 + g.slot now + requests := by
  obtain ⟨used, grid, le⟩ := feeds
  have most := grid.used_le
  omega

end Feeds

end Limiter

end PvrBackend
