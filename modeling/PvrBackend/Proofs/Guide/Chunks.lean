import PvrBackend.Guide.Coverage
import PvrBackend.Proofs.Calendar.Days

/-!
# Planned chunks and the coverage

A chunk that is planned for a full day is exactly a date in Prague, and it always
touches the span that is loaded already: forward it contains the end of the span,
backward the second before its start. So taking a chunk in never bridges a gap,
although the coverage keeps only two ends. This also holds when clipping has left
the start behind the end, since then the new span is the chunk alone.
-/

namespace PvrBackend

open Calendar

/-- An instant that a chunk contains. -/
instance : Membership Int Chunk := ⟨fun chunk t => chunk.start ≤ t ∧ t < chunk.stop⟩

/-- An instant that is covered. -/
instance : Membership Int Coverage := ⟨fun c t => c.start ≤ t ∧ t < c.stop⟩

/-- An instant in a window, both ends included. -/
instance : Membership Int Window := ⟨fun w t => w.lower ≤ t ∧ t ≤ w.upper⟩

namespace Chunk

theorem mem_iff {chunk : Chunk} {t : Int} : t ∈ chunk ↔ chunk.start ≤ t ∧ t < chunk.stop :=
  Iff.rfl

/-- A numbered day in Prague. -/
def ofDay (d : Int) : Chunk := ⟨Prague.midnight d, Prague.midnight (d + 1), false⟩

/-- The date in Prague that contains an instant. -/
def date (t : Int) : Chunk := ofDay (Prague.localDay t)

/-- A chunk planned for a day is a date. -/
theorem day_dayStart {t : Int} (h : Modern t) : day dayStart (dayStart t) = date t := by
  have hours : daySeconds + 2 * hourSeconds = 93600 := rfl
  rw [day, Int.add_assoc, hours, Prague.dayStart_next h.regular h.regular_add,
    Prague.dayStart_eq h.regular, date, ofDay]

theorem mem_date {t : Int} (h : Modern t) : t ∈ date t :=
  ⟨Prague.midnight_localDay_le h.regularDay_le, Prague.lt_midnight_localDay_succ h.regularDay_le⟩

end Chunk

namespace Window

theorem mem_iff {w : Window} {t : Int} : t ∈ w ↔ w.lower ≤ t ∧ t ≤ w.upper := Iff.rfl

/-- Both ends lie in the years of the guide. -/
structure Modern (w : Window) : Prop where
  lower : Calendar.Modern w.lower
  upper : Calendar.Modern w.upper

instance (w : Window) : Decidable w.Modern :=
  decidable_of_iff (Calendar.Modern w.lower ∧ Calendar.Modern w.upper)
    ⟨fun h => ⟨h.1, h.2⟩, fun h => ⟨h.lower, h.upper⟩⟩

end Window

namespace Coverage

theorem mem_iff {c : Coverage} {t : Int} : t ∈ c ↔ c.start ≤ t ∧ t < c.stop := Iff.rfl

/-- Both ends lie in the years of the guide. -/
structure Modern (c : Coverage) : Prop where
  start : Calendar.Modern c.start
  stop : Calendar.Modern c.stop

theorem modern_default : Modern {} := ⟨by decide, by decide⟩

/-- The second before a span that has to grow backward. -/
theorem before_modern {c : Coverage} {w : Window} (hc : c.Modern) (hw : w.Modern)
    (behind : w.lower < c.start) : Calendar.Modern (c.start - 1) := by
  have low := modern_iff.mp hw.lower
  have high := modern_iff.mp hc.start
  exact modern_iff.mpr (by omega)

/-- What is planned: an hour when nothing is loaded, else the date of the end or
that of the second before the start. -/
theorem next?_eq_some {c : Coverage} {now : Int} {w : Window} {chunk : Chunk} (hc : c.Modern)
    (hw : w.Modern) (h : c.next? dayStart now w = some chunk) :
    c.stop = 0 ∧ chunk = .hour now ∨
      c.stop ≠ 0 ∧ c.stop < w.upper ∧ chunk = .date c.stop ∨
      c.stop ≠ 0 ∧ w.upper ≤ c.stop ∧ w.lower < c.start ∧ chunk = .date (c.start - 1) := by
  rw [next?] at h
  split at h
  next empty => exact .inl ⟨empty, (Option.some.inj h).symm⟩
  next loaded =>
    split at h
    next ahead =>
      rw [Chunk.day_dayStart hc.stop] at h
      exact .inr (.inl ⟨loaded, ahead, (Option.some.inj h).symm⟩)
    next reached =>
      split at h
      next behind =>
        rw [Chunk.day_dayStart (before_modern hc hw behind)] at h
        exact .inr (.inr ⟨loaded, Int.not_lt.mp reached, behind, (Option.some.inj h).symm⟩)
      next => contradiction

/-- A chunk that can be taken in: unless nothing is loaded, it reaches up to an end
of the span, or over it. -/
structure Joins (c : Coverage) (chunk : Chunk) : Prop where
  stop_pos : 0 < chunk.stop
  start_modern : c.stop = 0 → Calendar.Modern chunk.start
  touches : c.stop ≠ 0 → chunk.start ≤ c.stop ∧ c.stop ≤ chunk.stop ∨
    chunk.start ≤ c.start ∧ c.start ≤ chunk.stop

theorem joins_of_next? {c : Coverage} {now : Int} {w : Window} {chunk : Chunk} (hc : c.Modern)
    (hw : w.Modern) (hnow : Calendar.Modern now) (h : c.next? dayStart now w = some chunk) :
    c.Joins chunk := by
  have time := modern_iff.mp hnow
  have stop := modern_iff.mp hc.stop
  obtain ⟨empty, rfl⟩ | ⟨loaded, _, rfl⟩ | ⟨loaded, _, behind, rfl⟩ := next?_eq_some hc hw h
  · refine ⟨?_, fun _ => hnow, fun loaded => absurd empty loaded⟩
    simp only [Chunk.hour, Chunk.hourSeconds]
    omega
  · have inside := Chunk.mem_iff.mp (Chunk.mem_date hc.stop)
    exact ⟨by omega, fun empty => absurd empty loaded,
      fun _ => .inl ⟨inside.1, Int.le_of_lt inside.2⟩⟩
  · have before := before_modern hc hw behind
    have low := (modern_iff.mp before).1
    have inside := Chunk.mem_iff.mp (Chunk.mem_date before)
    exact ⟨by omega, fun empty => absurd empty loaded, fun _ => .inr ⟨by omega, by omega⟩⟩

/-! ### Clipping and taking in -/

@[simp] theorem reset_start (c : Coverage) : c.reset.start = 0 := rfl

@[simp] theorem reset_stop (c : Coverage) : c.reset.stop = 0 := rfl

theorem modern_reset (c : Coverage) : c.reset.Modern :=
  ⟨by rw [reset_start]; decide, by rw [reset_stop]; decide⟩

theorem clip_of_stop_eq_zero {c : Coverage} (h : c.stop = 0) (w : Window) : c.clip w = c := by
  rw [clip, if_pos h]

theorem clip_of_stop_ne_zero {c : Coverage} (h : c.stop ≠ 0) (w : Window) :
    c.clip w = ⟨c.attempted, max c.start w.lower, min c.stop w.upper⟩ := by
  rw [clip, if_neg h]

theorem Modern.clip {c : Coverage} {w : Window} (hc : c.Modern) (hw : w.Modern) :
    (c.clip w).Modern := by
  rw [Coverage.clip]
  split
  · exact hc
  · have lower := modern_iff.mp hw.lower
    have upper := modern_iff.mp hw.upper
    have start := modern_iff.mp hc.start
    have stop := modern_iff.mp hc.stop
    constructor <;> rw [modern_iff] <;> dsimp only <;> omega

/-- Clipping leaves only instants that were covered, and of these only those in the
window. Without a span nothing is clipped, and nothing is covered either. -/
theorem of_mem_clip {c : Coverage} {w : Window} {t : Int} (hc : c.Modern) (h : t ∈ c.clip w) :
    t ∈ c ∧ t ∈ w := by
  have start := modern_iff.mp hc.start
  rw [mem_iff] at h
  by_cases empty : c.stop = 0
  · rw [clip_of_stop_eq_zero empty] at h
    omega
  · rw [clip_of_stop_ne_zero empty] at h
    rw [mem_iff, Window.mem_iff]
    dsimp only at h
    omega

/-- The span after a chunk was taken in: the hull of both, or the chunk alone when
nothing was loaded, clipped to the window. -/
theorem extend_eq {c : Coverage} {chunk : Chunk} (joins : c.Joins chunk) (w : Window) :
    c.extend chunk w =
      if c.stop = 0 then ⟨true, max chunk.start w.lower, min chunk.stop w.upper⟩
      else ⟨true, max (min c.start chunk.start) w.lower, min (max c.stop chunk.stop) w.upper⟩ := by
  have pos := joins.stop_pos
  rw [extend]
  split
  · rw [clip_of_stop_ne_zero (by dsimp only; omega)]
  · rw [clip_of_stop_ne_zero (by dsimp only; omega)]

theorem Modern.extend {c : Coverage} {chunk : Chunk} {w : Window} (hc : c.Modern)
    (joins : c.Joins chunk) (hw : w.Modern) : (c.extend chunk w).Modern := by
  have lower := modern_iff.mp hw.lower
  have upper := modern_iff.mp hw.upper
  have start := modern_iff.mp hc.start
  have stop := modern_iff.mp hc.stop
  have pos := joins.stop_pos
  rw [extend_eq joins]
  split
  next empty =>
    have first := modern_iff.mp (joins.start_modern empty)
    constructor <;> rw [modern_iff] <;> dsimp only <;> omega
  next => constructor <;> rw [modern_iff] <;> dsimp only <;> omega

/-- The hull claims no gap: what is covered afterwards was covered before or lies in
the chunk, and it lies in the window. -/
theorem of_mem_extend {c : Coverage} {chunk : Chunk} {w : Window} {t : Int}
    (joins : c.Joins chunk) (h : t ∈ c.extend chunk w) : (t ∈ c ∨ t ∈ chunk) ∧ t ∈ w := by
  rw [extend_eq joins, mem_iff] at h
  rw [mem_iff, Chunk.mem_iff, Window.mem_iff]
  split at h
  next empty =>
    dsimp only at h
    omega
  next loaded =>
    have touches := joins.touches loaded
    dsimp only at h
    omega

end Coverage

end PvrBackend
