import Mathlib.Data.List.Nodup
import PvrBackend.Proofs.Guide.Chunks

/-!
# The window gets filled

When every load succeeds, the worker goes through rounds of planning a chunk and
taking it in. `Coverage.rounds` is this loop by itself, from the state in which
nothing is loaded. The clock may show another time in every round; only the first
round reads it.

Every round brings an end of the span closer to its end of the window, and none
moves an end away from it, so the distance to the window is a measure. In the end
the span is the window, and the chunks together contain all of it. Days that are
loaded going forward follow all earlier ones and days loaded going backward
precede them, which is why no day comes twice.
-/

namespace PvrBackend

open Calendar

/-- The date in Prague with which a chunk starts. -/
def Chunk.startDate (chunk : Chunk) : Date := dateOfWall (Prague.zone.wall chunk.start)

theorem Chunk.startDate_ofDay {d : Int} (h : Prague.regularDay < d) :
    (ofDay d).startDate = Date.ofNumber d := by
  have whole : d * 86400 / daySeconds = d := Int.mul_ediv_cancel d (by decide)
  rw [startDate, ofDay, Prague.wall_midnight h, dateOfWall, whole]

namespace Coverage

/-- Coverage and chunks after some rounds, with the times at which they begin. Nothing
happens in a round that has nothing to plan. -/
def rounds (now : Nat → Int) (w : Window) : Nat → Coverage × List Chunk
  | 0 => ({}, [])
  | n + 1 =>
    let (c, chunks) := rounds now w n
    match c.next? dayStart (now n) w with
    | none => (c, chunks)
    | some chunk => (c.extend chunk w, chunks ++ [chunk])

theorem rounds_succ_of_next?_eq_none {now : Nat → Int} {w : Window} {n : Nat}
    (h : (rounds now w n).1.next? dayStart (now n) w = none) :
    rounds now w (n + 1) = rounds now w n := by
  simp only [rounds, h]

theorem rounds_succ_of_next?_eq_some {now : Nat → Int} {w : Window} {n : Nat} {chunk : Chunk}
    (h : (rounds now w n).1.next? dayStart (now n) w = some chunk) :
    rounds now w (n + 1) =
      ((rounds now w n).1.extend chunk w, (rounds now w n).2 ++ [chunk]) := by
  simp only [rounds, h]

/-! ### One round -/

/-- A span that a round left behind: it has been clipped to the window. -/
structure Clipped (w : Window) (c : Coverage) : Prop where
  modern : c.Modern
  stop_ne_zero : c.stop ≠ 0
  lower_le : w.lower ≤ c.start
  le_upper : c.stop ≤ w.upper

/-- The distance of the span to the window, both ends together. -/
def gap (c : Coverage) (w : Window) : Nat := (w.upper - c.stop).toNat + (c.start - w.lower).toNat

section
variable {w : Window} {c : Coverage} {chunk : Chunk} {now : Int}

theorem clipped_extend (hc : c.Modern) (hw : w.Modern) (pos : 0 < w.upper) (joins : c.Joins chunk) :
    Clipped w (c.extend chunk w) := by
  have stop_pos := joins.stop_pos
  have stop := modern_iff.mp hc.stop
  refine ⟨hc.extend joins hw, ?_, ?_, ?_⟩ <;> rw [extend_eq joins] <;> split <;> dsimp only <;>
    omega

/-- Taking in a chunk moves no end away from the window, and both ends at least as far
as the chunk reaches in it. -/
theorem Clipped.extend_reaches (clipped : Clipped w c) (joins : c.Joins chunk) :
    (c.stop ≤ (c.extend chunk w).stop ∧ min chunk.stop w.upper ≤ (c.extend chunk w).stop) ∧
      (c.extend chunk w).start ≤ c.start ∧ (c.extend chunk w).start ≤ max chunk.start w.lower := by
  have lower := clipped.lower_le
  have upper := clipped.le_upper
  rw [extend_eq joins, if_neg clipped.stop_ne_zero]
  dsimp only
  omega

/-- A chunk planned for a day goes over an end of the span. -/
theorem Clipped.next?_eq_some (clipped : Clipped w c) (hw : w.Modern)
    (h : c.next? dayStart now w = some chunk) :
    c.stop < w.upper ∧ chunk = .date c.stop ∧ c.stop < chunk.stop ∨
      c.stop = w.upper ∧ w.lower < c.start ∧ chunk = .date (c.start - 1) ∧
        chunk.start < c.start := by
  obtain ⟨empty, _⟩ | ⟨_, ahead, rfl⟩ | ⟨_, reached, behind, rfl⟩ :=
    Coverage.next?_eq_some clipped.modern hw h
  · exact absurd empty clipped.stop_ne_zero
  · exact .inl ⟨ahead, rfl, (Chunk.mem_date clipped.modern.stop).2⟩
  · have inside := (Chunk.mem_date (before_modern clipped.modern hw behind)).1
    exact .inr ⟨Int.le_antisymm clipped.le_upper reached, behind, rfl, by omega⟩

theorem Clipped.next?_eq_none (clipped : Clipped w c) (h : c.next? dayStart now w = none) :
    c.start ≤ w.lower ∧ w.upper ≤ c.stop := by
  rw [next?, if_neg clipped.stop_ne_zero] at h
  split at h
  next => contradiction
  next reached =>
    split at h
    next => contradiction
    next reached' => exact ⟨Int.not_lt.mp reached', Int.not_lt.mp reached⟩

theorem covers_eq_false_of_next? (clipped : c.attempted = true → Clipped w c) (hw : w.Modern)
    (h : c.next? dayStart now w = some chunk) : c.covers chunk = false := by
  by_cases tried : c.attempted = true
  · have outside := (clipped tried).next?_eq_some hw h
    simp only [covers, Bool.and_eq_false_iff, decide_eq_false_iff_not]
    omega
  · simp [covers, tried]

theorem Clipped.gap_extend_lt (clipped : Clipped w c) (hw : w.Modern) (joins : c.Joins chunk)
    (h : c.next? dayStart now w = some chunk) : (c.extend chunk w).gap w < c.gap w := by
  have reaches := clipped.extend_reaches joins
  have outside := clipped.next?_eq_some hw h
  have upper := clipped.le_upper
  have lower := clipped.lower_le
  rw [gap, gap]
  omega

end

/-! ### All rounds -/

/-- A day that the span contains as far as the window does. -/
structure Reaches (w : Window) (c : Coverage) (d : Int) : Prop where
  regular : Prague.regularDay < d
  stop : min (Prague.midnight (d + 1)) w.upper ≤ c.stop
  start : c.start ≤ max (Prague.midnight d) w.lower

/-- What holds from the first round on: after an hour only days were loaded, each
once, and the span contains nothing that was not loaded. -/
structure Filled (w : Window) (c : Coverage) (chunks : List Chunk) (days : List Int) : Prop where
  clipped : Clipped w c
  listed : ∃ first, chunks = .hour first :: days.map .ofDay
  loaded : ∀ t ∈ c, ∃ chunk ∈ chunks, t ∈ chunk
  nodup : days.Nodup
  reaches : ∀ d ∈ days, Reaches w c d

section
variable {w : Window} {c : Coverage} {chunk : Chunk} {chunks : List Chunk} {days : List Int}
variable {now : Int}

/-- What comes next after the first round is a day that was not loaded yet. -/
theorem Filled.exists_day (filled : Filled w c chunks days) (hw : w.Modern)
    (h : c.next? dayStart now w = some chunk) :
    ∃ d, chunk = .ofDay d ∧ Prague.regularDay < d ∧ d ∉ days := by
  obtain ⟨ahead, rfl, _⟩ | ⟨_, behind, rfl, _⟩ := filled.clipped.next?_eq_some hw h
  -- Forward, all days up to now have ended by the end of the span.
  · have stop := filled.clipped.modern.stop
    refine ⟨_, rfl, stop.regularDay_lt_localDay, ?_⟩
    intro member
    have reached := (filled.reaches _ member).stop
    have ended := Prague.lt_midnight_localDay_succ stop.regularDay_le
    omega
  -- Backward, they all start at the start of the span or after it.
  · have before := before_modern filled.clipped.modern hw behind
    refine ⟨_, rfl, before.regularDay_lt_localDay, ?_⟩
    intro member
    have reached := (filled.reaches _ member).start
    have started := Prague.midnight_localDay_le before.regularDay_le
    omega

theorem Filled.extend (filled : Filled w c chunks days) (hw : w.Modern) (pos : 0 < w.upper)
    (hnow : Calendar.Modern now) (h : c.next? dayStart now w = some chunk) :
    ∃ d, Filled w (c.extend chunk w) (chunks ++ [chunk]) (days ++ [d]) := by
  have joins := joins_of_next? filled.clipped.modern hw hnow h
  have widened := filled.clipped.extend_reaches joins
  obtain ⟨d, rfl, regular, fresh⟩ := filled.exists_day hw h
  obtain ⟨first, listed⟩ := filled.listed
  refine ⟨d, clipped_extend filled.clipped.modern hw pos joins, ⟨first, ?_⟩, ?_, ?_, ?_⟩
  · rw [listed, List.map_append, List.map_singleton, List.cons_append]
  · intro t member
    obtain ⟨old | new, _⟩ := of_mem_extend joins member
    · obtain ⟨before, listed, inside⟩ := filled.loaded t old
      exact ⟨before, List.mem_append_left _ listed, inside⟩
    · exact ⟨_, List.mem_append_right _ (List.mem_singleton_self _), new⟩
  · rw [← List.concat_eq_append]
    exact List.Nodup.concat fresh filled.nodup
  · intro d' member
    rcases List.mem_append.mp member with member | member
    · have reached := filled.reaches d' member
      exact ⟨reached.regular, Int.le_trans reached.stop widened.1.1,
        Int.le_trans widened.2.1 reached.start⟩
    · obtain rfl := List.mem_singleton.mp member
      exact ⟨regular, widened.1.2, widened.2.2⟩

theorem filled_first (hw : w.Modern) (pos : 0 < w.upper) (hnow : Calendar.Modern now) :
    Filled w (({} : Coverage).extend (.hour now) w) [.hour now] [] := by
  have joins := joins_of_next? modern_default hw hnow (by rfl)
  refine ⟨clipped_extend modern_default hw pos joins, ⟨now, rfl⟩, ?_, List.nodup_nil,
    fun _ member => nomatch member⟩
  intro t member
  obtain ⟨old | new, _⟩ := of_mem_extend joins member
  · rw [mem_iff] at old
    dsimp only at old
    omega
  · exact ⟨_, List.mem_singleton_self _, new⟩

end

section
variable {now : Nat → Int} {w : Window} (times : ∀ n, Calendar.Modern (now n)) (hw : w.Modern)
  (pos : 0 < w.upper)
include times hw pos

theorem filled_rounds (n : Nat) :
    ∃ days, Filled w (rounds now w (n + 1)).1 (rounds now w (n + 1)).2 days := by
  induction n with
  | zero => exact ⟨[], filled_first hw pos (times 0)⟩
  | succ n ih =>
      obtain ⟨days, filled⟩ := ih
      cases planned : (rounds now w (n + 1)).1.next? dayStart (now (n + 1)) w with
      | none =>
          rw [rounds_succ_of_next?_eq_none planned]
          exact ⟨days, filled⟩
      | some chunk =>
          rw [rounds_succ_of_next?_eq_some planned]
          obtain ⟨d, extended⟩ := filled.extend hw pos (times (n + 1)) planned
          exact ⟨_, extended⟩

theorem clipped_rounds {n : Nat} (tried : (rounds now w n).1.attempted = true) :
    Clipped w (rounds now w n).1 := by
  cases n with
  | zero => contradiction
  | succ n =>
      obtain ⟨days, filled⟩ := filled_rounds times hw pos n
      exact filled.clipped

theorem exists_rounds_done : ∃ n, (rounds now w n).1.next? dayStart (now n) w = none := by
  suffices later : ∀ g n, (rounds now w (n + 1)).1.gap w = g →
      ∃ n, (rounds now w n).1.next? dayStart (now n) w = none from later _ 0 rfl
  intro g
  induction g using Nat.strong_induction_on with
  | _ g ih =>
      intro n distance
      obtain ⟨days, filled⟩ := filled_rounds times hw pos n
      cases planned : (rounds now w (n + 1)).1.next? dayStart (now (n + 1)) w with
      | none => exact ⟨n + 1, planned⟩
      | some chunk =>
          have joins := joins_of_next? filled.clipped.modern hw (times (n + 1)) planned
          have closer := filled.clipped.gap_extend_lt hw joins planned
          refine ih _ (distance ▸ closer) (n + 1) ?_
          rw [rounds_succ_of_next?_eq_some planned]

theorem rounds_nodup (n : Nat) :
    ((rounds now w n).2.filter (·.small)).length ≤ 1 ∧
      (((rounds now w n).2.filter (!·.small)).map Chunk.startDate).Nodup := by
  cases n with
  | zero => exact ⟨Nat.zero_le _, List.nodup_nil⟩
  | succ n =>
      obtain ⟨days, filled⟩ := filled_rounds times hw pos n
      obtain ⟨first, listed⟩ := filled.listed
      have large : ∀ d, (Chunk.ofDay d).small = false := fun _ => rfl
      have small : (days.map Chunk.ofDay).filter (·.small) = [] := by
        simp [List.filter_eq_nil_iff, large]
      have hours : (Chunk.hour first).small = true := rfl
      rw [listed]
      constructor
      · simp [hours, small]
      · have dates : (days.map Chunk.ofDay).map Chunk.startDate = days.map Date.ofNumber := by
          rw [List.map_map]
          exact List.map_congr_left fun d member =>
            Chunk.startDate_ofDay (filled.reaches d member).regular
        have distinct : Function.Injective Date.ofNumber :=
          Function.LeftInverse.injective Date.number_ofNumber
        have all : (days.map Chunk.ofDay).filter (!·.small) = days.map Chunk.ofDay := by
          simp [List.filter_eq_self, large]
        rw [List.filter_cons_of_neg (by simp [hours]), all, dates]
        exact List.Nodup.map distinct filled.nodup

/-- Once nothing is planned the span reaches over the window, and every second of the
window was in a chunk. -/
theorem rounds_complete {n : Nat} (done : (rounds now w n).1.next? dayStart (now n) w = none) :
    (rounds now w n).1.start ≤ w.lower ∧ w.upper ≤ (rounds now w n).1.stop ∧
      ∀ t, w.lower ≤ t → t < w.upper → ∃ chunk ∈ (rounds now w n).2, t ∈ chunk := by
  cases n with
  | zero => contradiction
  | succ n =>
      obtain ⟨days, filled⟩ := filled_rounds times hw pos n
      have ⟨start, stop⟩ := filled.clipped.next?_eq_none done
      exact ⟨start, stop, fun t low high => filled.loaded t ⟨by omega, by omega⟩⟩

/-- Filling never stalls, ends and is complete. No planned chunk is covered already;
after finitely many rounds nothing is planned any more; until then at most one hour was
loaded, and no date twice as a day; and then the span reaches over the window, every
second of which was in a chunk. -/
theorem rounds_fill_window :
    (∀ n chunk, (rounds now w n).1.next? dayStart (now n) w = some chunk →
      (rounds now w n).1.covers chunk = false) ∧
    (∃ n, (rounds now w n).1.next? dayStart (now n) w = none) ∧
    (∀ n, ((rounds now w n).2.filter (·.small)).length ≤ 1 ∧
      (((rounds now w n).2.filter (!·.small)).map Chunk.startDate).Nodup) ∧
    ∀ n, (rounds now w n).1.next? dayStart (now n) w = none →
      (rounds now w n).1.start ≤ w.lower ∧ w.upper ≤ (rounds now w n).1.stop ∧
        ∀ t, w.lower ≤ t → t < w.upper → ∃ chunk ∈ (rounds now w n).2, t ∈ chunk := by
  refine ⟨?_, exists_rounds_done times hw pos, rounds_nodup times hw pos, ?_⟩
  · intro n chunk planned
    exact covers_eq_false_of_next? (clipped_rounds times hw pos) hw planned
  · intro n done
    exact rounds_complete times hw pos done

end

/-- A window around the end of summer time is filled, with the day of 25 hours. -/
theorem rounds_fill_autumn :
    ∃ n, (rounds (fun _ => 1729953000) ⟨1729900000, 1730100000⟩ n).1.next? dayStart 1729953000
      ⟨1729900000, 1730100000⟩ = none :=
  (rounds_fill_window (fun _ => by decide) (by decide) (by decide)).2.1

end Coverage

end PvrBackend
