import PvrBackend.Proofs.Guide.Chunks

/-!
# Days tile the time line

The chunks planned for whole days are the dates that the clocks of Prague show. Every
instant lies in the chunk of its date and in no other, a chunk starts at the midnight of its
date, and it ends where the chunk of the next date starts. This holds on the days on which
clocks change as well, which last 23 or 25 hours.
-/

namespace PvrBackend

namespace Calendar.Prague

/-- The date that clocks show. -/
def dateAt (t : Int) : Date := dateOfWall (zone.wall t)

theorem dateAt_eq (t : Int) : dateAt t = Date.ofNumber (localDay t) := rfl

theorem valid_dateAt (t : Int) : (dateAt t).valid = true := Date.valid_ofNumber _

/-- Clocks show a date exactly on the day with its number. -/
theorem dateAt_eq_iff {d : Date} (h : d.valid = true) (t : Int) :
    dateAt t = d ↔ localDay t = d.number := by
  rw [dateAt_eq]
  constructor
  · rintro rfl
    rw [Date.number_ofNumber]
  · intro same
    rw [same, Date.ofNumber_number h]

theorem localDay_nonneg {t : Int} (h : 0 ≤ t) : 0 ≤ localDay t := by
  have := (offsetAt_bounds t).1
  rw [localDay, Zone.wall]
  omega

/-- A day from 1970 on contains the instants from its midnight up to the next one, and no
instant of earlier times. -/
theorem localDay_eq_iff_of_nonneg {d : Int} (h : 0 ≤ d) (t : Int) :
    localDay t = d ↔ midnight d ≤ t ∧ t < midnight (d + 1) := by
  have first := regularDay_eq
  by_cases regular : regularDay * 86400 ≤ t
  · exact localDay_eq_iff regular (by omega)
  · have bounds := offsetAt_bounds t
    have this := midnight_cases (d := d) (by omega)
    rw [localDay, Zone.wall]
    omega

theorem localDay_midnight {d : Int} (h : 0 ≤ d) : localDay (midnight d) = d := by
  have first := regularDay_eq
  have long := midnight_succ_bounds (d := d) (by omega)
  exact (localDay_eq_iff_of_nonneg h _).mpr (by omega)

/-- Midnight is the first instant of its date, -/
theorem isLeast_midnight {d : Date} (h : d.valid = true) (low : 0 ≤ d.number) :
    IsLeast {s | dateAt s = d} (midnight d.number) := by
  constructor
  · exact (dateAt_eq_iff h _).mpr (localDay_midnight low)
  · intro s shows
    have same := (dateAt_eq_iff h s).mp shows
    exact ((localDay_eq_iff_of_nonneg low s).mp same).1

/-- clocks show 00:00 then, -/
theorem wall_midnight_number {d : Date} (low : 0 ≤ d.number) :
    zone.wall (midnight d.number) = wallOf d 0 := by
  have first := regularDay_eq
  rw [wall_midnight (by omega), wallOf, daySeconds, Int.ofNat_zero, Int.add_zero]

/-- and it is the start of its own day. -/
theorem dayStart_midnight {d : Int} (h : 0 ≤ d) (h' : midnight d ≤ endInstant - 172800) :
    dayStart (midnight d) = midnight d := by
  have first := regularDay_eq
  have this := midnight_cases (d := d) (by omega)
  have regular : Regular (midnight d) := ⟨by omega, by omega⟩
  rw [dayStart_eq regular, localDay_midnight h]

theorem midnight_mono {d d' : Int} (h : 0 ≤ d) (le : d ≤ d') : midnight d ≤ midnight d' := by
  have first := regularDay_eq
  have this := midnight_cases (d := d) (by omega)
  have that := midnight_cases (d := d') (by omega)
  rcases Int.lt_or_eq_of_le le with lt | rfl
  · omega
  · exact Int.le_refl _

theorem dayStart_mono {s t : Int} (h : Modern s) (h' : Modern t) (le : s ≤ t) :
    dayStart s ≤ dayStart t := by
  have low := localDay_nonneg (modern_iff.mp h).1
  have low' := localDay_nonneg (modern_iff.mp h').1
  rw [dayStart_eq h.regular, dayStart_eq h'.regular]
  apply midnight_mono low
  by_contra before
  have next : localDay t + 1 ≤ localDay s := by omega
  have order := midnight_mono (Int.le_add_one low') next
  have begun := midnight_localDay_le h.regularDay_le
  have ended := lt_midnight_localDay_succ h'.regularDay_le
  omega

end Calendar.Prague

namespace Chunk

open Calendar Prague

/-- A chunk is the day in Prague that contains an instant. -/
structure IsDayOf (chunk : Chunk) (t : Int) : Prop where
  start_eq : chunk.start = dayStart t
  contains : chunk.start ≤ t ∧ t < chunk.stop
  /-- It consists of the instants at which clocks show the date of that instant. -/
  mem_iff : ∀ s, s ∈ chunk ↔ dateAt s = dateAt t
  /-- It starts at 00:00, with the first instant of the date. -/
  start_midnight : zone.wall chunk.start = wallOf (dateAt t) 0
  start_first : IsLeast {s | dateAt s = dateAt t} chunk.start
  /-- It ends at the next 00:00, with the first instant of the next date, -/
  stop_midnight : zone.wall chunk.stop = wallOf (dateAt t).next 0
  stop_first : IsLeast {s | dateAt s = (dateAt t).next} chunk.stop
  /-- which is the start of the day after. -/
  stop_eq : dayStart chunk.stop = chunk.stop
  length : chunk.stop - chunk.start = 23 * hourSeconds ∨
    chunk.stop - chunk.start = 24 * hourSeconds ∨ chunk.stop - chunk.start = 25 * hourSeconds

theorem isDayOf_date {t : Int} (h : Modern t) : (date t).IsDayOf t := by
  have inside := modern_iff.mp h
  have limit : endInstant = 8210266876800 := by decide
  have first := regularDay_eq
  have low : 0 ≤ localDay t := localDay_nonneg inside.1
  have this := midnight_cases (d := localDay t) (by omega)
  have next := midnight_cases (d := localDay t + 1) (by omega)
  have contains := mem_date h
  have begun : midnight (localDay t) ≤ t := contains.1
  -- The chunk runs from the midnight of the date to that of the next date.
  have valid := valid_dateAt t
  have number : (dateAt t).number = localDay t := Date.number_ofNumber _
  obtain ⟨valid', number'⟩ := Date.next_spec valid
  rw [number] at number'
  have start : (date t).start = midnight (dateAt t).number := by rw [number]; rfl
  have stop : (date t).stop = midnight (dateAt t).next.number := by rw [number']; rfl
  constructor
  case start_eq => exact (dayStart_eq h.regular).symm
  case contains => exact contains
  case mem_iff =>
    intro s
    rw [dateAt_eq_iff valid, number, localDay_eq_iff_of_nonneg low]
    exact mem_iff
  case start_midnight => rw [start, wall_midnight_number (by omega)]
  case start_first =>
    rw [start]
    exact isLeast_midnight valid (by omega)
  case stop_midnight => rw [stop, wall_midnight_number (by omega)]
  case stop_first =>
    rw [stop]
    exact isLeast_midnight valid' (by omega)
  case stop_eq =>
    rw [stop, number', dayStart_midnight (by omega) (by omega)]
  case length =>
    simp only [start, stop, number, number', hourSeconds]
    omega

/-- Days tile the years 1970 to 9999: the chunk planned for the day of an instant is exactly
that day, the start of a day starts its own day, and later instants have no earlier day. -/
theorem days_tile {t : Int} (h : Modern t) :
    (day dayStart (dayStart t)).IsDayOf t ∧ dayStart (dayStart t) = dayStart t ∧
      ∀ t', Modern t' → t ≤ t' → dayStart t ≤ dayStart t' := by
  have low := localDay_nonneg (modern_iff.mp h).1
  have begun := midnight_localDay_le h.regularDay_le
  have limit : endInstant = 8210266876800 := by decide
  refine ⟨?_, ?_, ?_⟩
  · rw [day_dayStart h]
    exact isDayOf_date h
  · have time := modern_iff.mp h
    rw [dayStart_eq h.regular, dayStart_midnight low (by omega)]
  · intro t' h' le
    exact dayStart_mono h h' le

/-- The day on which summer time ends in 2024 has 25 hours, and is tiled as any other. -/
theorem days_tile_autumn : Modern 1730026800 ∧
    (day dayStart (dayStart 1730026800)).IsDayOf 1730026800 ∧
    dayStart 1730026800 = 1729980000 ∧ (day dayStart 1729980000).stop = 1729980000 + 25 * 3600 ∧
    dayStart (dayStart 1730026800) = dayStart 1730026800 ∧
    Modern 1730070000 ∧ dayStart 1730026800 ≤ dayStart 1730070000 := by
  have modern : Modern 1730026800 := by decide
  have modern' : Modern 1730070000 := by decide
  obtain ⟨tiles, again, mono⟩ := days_tile modern
  refine ⟨modern, tiles, ?_, ?_, again, modern', mono 1730070000 modern' (by decide)⟩
  · decide +kernel
  · decide +kernel

end Chunk

end PvrBackend
