import Mathlib.Data.List.Chain
import PvrBackend.Calendar.Stamp
import PvrBackend.Proofs.Calendar.Dates
import PvrBackend.Proofs.Calendar.Zones

/-!
# Days in Prague

Since 1950 clocks have changed at one o'clock universal time only, and they have
been one or two hours ahead. So the offset depends only on the stretch from one
such hour to the next, and every midnight lies in a single stretch. This makes
the midnights plain numbers: a date contains exactly the instants from its own
midnight up to the next one, and a day lasts 23 to 25 hours.

`dayStart` agrees with these midnights as long as the calendar reaches. Nothing
here depends on when clocks really change, only on the hour at which they do.
-/

namespace PvrBackend.Calendar

namespace Prague

/-- The first day of 1950. -/
def regularDay : Int := Date.number ⟨1950, 1, 1⟩

theorem regularDay_eq : regularDay = -7305 := by decide

/-! ### Stretches of one offset -/

/-- Number of the stretch from one o'clock to one o'clock universal time. -/
def stretch (t : Int) : Int := (t - 3600) / 86400

/-- Seconds that clocks are ahead of universal time during a stretch. -/
def ahead (u : Int) : Int := (zone.offsetAt (u * 86400 + 3600)).seconds

theorem zone_ordered : zone.Ordered := by
  have chain : zone.changes.IsChain (fun a b => a.start < b.start) := by decide +kernel
  have : IsTrans Change (fun a b => a.start < b.start) := ⟨fun _ _ _ => Int.lt_trans⟩
  exact List.isChain_iff_pairwise.mp chain

/-- The irregular changes ended in 1949. -/
theorem start_lt_of_mem_earlyChanges :
    ∀ c ∈ earlyChanges, c.start < (regularDay - 1) * 86400 := by
  decide +kernel

/-- A change under the yearly rule is at one o'clock, to summer or winter time. -/
theorem of_mem_yearly {c : Change} (h : c ∈ ruleYears.flatMap yearChanges) :
    c.start % 86400 = 3600 ∧ (c.offset = summer ∨ c.offset = winter) := by
  obtain ⟨year, -, member⟩ := List.mem_flatMap.mp h
  simp only [yearChanges, List.mem_cons, List.not_mem_nil, or_false] at member
  rcases member with rfl | rfl
  · exact ⟨by dsimp only; omega, .inl rfl⟩
  · exact ⟨by dsimp only; omega, .inr rfl⟩

theorem offsetAt_regular {t : Int} (h : (regularDay - 1) * 86400 ≤ t) :
    zone.offsetAt t = summer ∨ zone.offsetAt t = winter := by
  have past : ∀ c ∈ earlyChanges, c.start ≤ t := fun c hc =>
    Int.le_trans (Int.le_of_lt (start_lt_of_mem_earlyChanges c hc)) h
  -- No early change separates `t` from the end of the early changes.
  have last : Zone.offsetFrom localMean earlyChanges t = winter := by
    rw [Zone.offsetFrom_congr (t := (regularDay - 1) * 86400)]
    · decide +kernel
    · intro c hc
      have := start_lt_of_mem_earlyChanges c hc
      omega
  have now : zone.offsetAt t = Zone.offsetFrom winter (ruleYears.flatMap yearChanges) t := by
    rw [← last]
    exact Zone.offsetFrom_append past
  rw [now]
  exact Zone.offsetFrom_of_forall (P := fun o => o = summer ∨ o = winter) (.inr rfl)
    (fun c hc => (of_mem_yearly hc).2) t

theorem offsetAt_bounds (t : Int) :
    0 ≤ (zone.offsetAt t).seconds ∧ (zone.offsetAt t).seconds ≤ 7200 := by
  have early : ∀ c ∈ earlyChanges, 0 ≤ c.offset.seconds ∧ c.offset.seconds ≤ 7200 := by
    decide +kernel
  apply Zone.offsetFrom_of_forall (P := fun o => 0 ≤ o.seconds ∧ o.seconds ≤ 7200)
  · decide
  · intro c hc
    rcases List.mem_append.mp hc with hc | hc
    · exact early c hc
    · rcases (of_mem_yearly hc).2 with offset | offset <;> rw [offset] <;> decide

theorem offsetAt_seconds {t : Int} (h : regularDay * 86400 ≤ t) :
    (zone.offsetAt t).seconds = ahead (stretch t) := by
  rw [ahead, Zone.offsetAt, Zone.offsetAt, Zone.offsetFrom_congr]
  intro c hc
  have number := regularDay_eq
  rw [stretch]
  rcases List.mem_append.mp hc with hc | hc
  · have := start_lt_of_mem_earlyChanges c hc
    omega
  · have := (of_mem_yearly hc).1
    omega

theorem ahead_cases {u : Int} (h : regularDay ≤ u + 1) : ahead u = 3600 ∨ ahead u = 7200 := by
  have regular : (regularDay - 1) * 86400 ≤ u * 86400 + 3600 := by omega
  rcases offsetAt_regular regular with offset | offset <;> rw [ahead, offset]
  · exact .inr rfl
  · exact .inl rfl

theorem wall_eq {t : Int} (h : regularDay * 86400 ≤ t) :
    zone.wall t = t + ahead (stretch t) := by
  rw [Zone.wall, offsetAt_seconds h]

/-! ### Midnights -/

/-- Number of the date that clocks show. -/
def localDay (t : Int) : Int := zone.wall t / 86400

/-- The midnight that starts a numbered day. -/
def midnight (d : Int) : Int := d * 86400 - ahead (d - 1)

theorem midnight_cases {d : Int} (h : regularDay ≤ d) :
    midnight d = d * 86400 - 3600 ∨ midnight d = d * 86400 - 7200 := by
  rcases ahead_cases (u := d - 1) (by omega) with offset | offset <;> rw [midnight, offset]
  · exact .inl rfl
  · exact .inr rfl

/-- Days last 23 to 25 hours. -/
theorem midnight_succ_bounds {d : Int} (h : regularDay ≤ d) :
    midnight d + 82800 ≤ midnight (d + 1) ∧ midnight (d + 1) ≤ midnight d + 90000 := by
  have this := midnight_cases h
  have next := midnight_cases (d := d + 1) (by omega)
  omega

/-- A date contains the instants from its midnight up to the next one. -/
theorem localDay_eq_iff {t d : Int} (h : regularDay * 86400 ≤ t) (hd : regularDay ≤ d) :
    localDay t = d ↔ midnight d ≤ t ∧ t < midnight (d + 1) := by
  have this := midnight_cases hd
  have next := midnight_cases (d := d + 1) (by omega)
  have same : stretch t = (t - 3600) / 86400 := rfl
  have offset := ahead_cases (u := stretch t) (by omega)
  rw [localDay, wall_eq h]
  -- A midnight lies in the stretch of the day before, so two stretches meet the date.
  obtain inside | inside | outside :
      stretch t = d ∨ stretch t = d - 1 ∨ stretch t < d - 1 ∨ d < stretch t := by omega
  · rw [inside] at offset ⊢
    have : midnight (d + 1) = (d + 1) * 86400 - ahead d := by
      rw [midnight, Int.add_sub_cancel]
    omega
  · rw [inside] at offset ⊢
    have : midnight d = d * 86400 - ahead (d - 1) := rfl
    omega
  · omega

theorem regularDay_le_localDay {t : Int} (h : regularDay * 86400 ≤ t) :
    regularDay ≤ localDay t := by
  have := (offsetAt_bounds t).1
  rw [localDay, Zone.wall]
  omega

theorem midnight_localDay_le {t : Int} (h : regularDay * 86400 ≤ t) :
    midnight (localDay t) ≤ t :=
  ((localDay_eq_iff h (regularDay_le_localDay h)).mp rfl).1

theorem lt_midnight_localDay_succ {t : Int} (h : regularDay * 86400 ≤ t) :
    t < midnight (localDay t + 1) :=
  ((localDay_eq_iff h (regularDay_le_localDay h)).mp rfl).2

theorem wall_midnight {d : Int} (h : regularDay < d) : zone.wall (midnight d) = d * 86400 := by
  have this := midnight_cases (Int.le_of_lt h)
  have before : stretch (midnight d) = d - 1 := by
    rw [stretch]
    omega
  rw [wall_eq (by omega), before, midnight, Int.sub_add_cancel]

/-- Midnight is shown once, and never before 1950. -/
theorem earliest?_midnight {d : Int} (h : regularDay < d) :
    zone.earliest? (d * 86400) = some (midnight d) := by
  refine (Zone.earliest?_eq_some_iff zone_ordered).mpr ⟨wall_midnight h, ?_⟩
  intro t shows
  have shows : zone.wall t = d * 86400 := shows
  have regular : regularDay * 86400 ≤ t := by
    have := (offsetAt_bounds t).2
    rw [Zone.wall] at shows
    omega
  have same : localDay t = d := by
    rw [localDay, shows]
    omega
  rw [← same]
  exact midnight_localDay_le regular

/-! ### Day starts -/

/-- Instants of the calendar from 1950 on. -/
def Regular (t : Int) : Prop := (regularDay + 1) * 86400 ≤ t ∧ t + 86400 < endInstant

theorem regular_iff {t : Int} : Regular t ↔ -631065600 ≤ t ∧ t < 8210266790400 := by
  have stop : endInstant = 8210266876800 := by decide
  rw [Regular, regularDay_eq, stop]
  omega

theorem inCalendar_of_bounds {t : Int} (low : -631500000 ≤ t) (high : t < 8210266876800) :
    inCalendar t = true := by
  have start : firstInstant ≤ -631500000 := by decide
  have stop : endInstant = 8210266876800 := by decide
  simp only [inCalendar, Bool.and_eq_true, decide_eq_true_eq]
  omega

theorem wallOf_dateOfWall (w : Int) : wallOf (dateOfWall w) 0 = w / 86400 * 86400 := by
  simp [wallOf, dateOfWall, daySeconds]

/-- A day starts at the midnight of its date. -/
theorem dayStart_eq {t : Int} (h : Regular t) : dayStart t = midnight (localDay t) := by
  obtain ⟨low, high⟩ := regular_iff.mp h
  have first := regularDay_eq
  have low' : regularDay * 86400 ≤ t := by omega
  have day : regularDay < localDay t := by
    have := (offsetAt_bounds t).1
    rw [localDay, Zone.wall]
    omega
  have started := midnight_localDay_le low'
  have midnight_low := midnight_cases (Int.le_of_lt day)
  have found : instant? (localDay t * 86400) = some (midnight (localDay t)) := by
    rw [instant?, earliest?_midnight day, Option.filter_some_pos, Option.some_or]
    exact inCalendar_of_bounds (by omega) (by omega)
  rw [dayStart, if_pos (inCalendar_of_bounds (by omega) (by omega)), wallOf_dateOfWall]
  change (instant? (localDay t * 86400)).getD _ = _
  rw [found, Option.getD_some]

/-- Some time into the next day that day's start is the next midnight; 26 hours after
the start of a day are never too late nor too early for that. -/
theorem dayStart_next {t : Int} (h : Regular t) (h' : Regular (t + 93600)) :
    dayStart (dayStart t + 93600) = midnight (localDay t + 1) := by
  have first := regularDay_eq
  obtain ⟨low, -⟩ := regular_iff.mp h
  obtain ⟨-, high⟩ := regular_iff.mp h'
  have regular : regularDay * 86400 ≤ t := by omega
  have day := regularDay_le_localDay regular
  have started := midnight_localDay_le regular
  have ended := lt_midnight_localDay_succ regular
  have this := midnight_succ_bounds day
  have next := midnight_succ_bounds (d := localDay t + 1) (by omega)
  rw [dayStart_eq h, dayStart_eq (regular_iff.mpr ⟨by omega, by omega⟩)]
  congr 1
  exact (localDay_eq_iff (by omega) (by omega)).mpr ⟨by omega, by omega⟩

end Prague

/-! ### The years of the guide -/

/-- Instants of the years 1970 to 9999. -/
def Modern (t : Int) : Prop := 0 ≤ t ∧ t < Date.number ⟨10000, 1, 1⟩ * daySeconds

theorem modern_iff {t : Int} : Modern t ↔ 0 ≤ t ∧ t < 253402300800 := by
  have stop : Date.number ⟨10000, 1, 1⟩ * daySeconds = 253402300800 := by decide
  rw [Modern, stop]

instance (t : Int) : Decidable (Modern t) := inferInstanceAs (Decidable (_ ∧ _))

theorem Modern.regular {t : Int} (h : Modern t) : Prague.Regular t :=
  Prague.regular_iff.mpr (by have := modern_iff.mp h; omega)

/-- The calendar goes on for days after the last of these years. -/
theorem Modern.regular_add {t : Int} (h : Modern t) : Prague.Regular (t + 93600) :=
  Prague.regular_iff.mpr (by have := modern_iff.mp h; omega)

theorem Modern.regularDay_le {t : Int} (h : Modern t) : Prague.regularDay * 86400 ≤ t := by
  have := modern_iff.mp h
  rw [Prague.regularDay_eq]
  omega

theorem Modern.regularDay_lt_localDay {t : Int} (h : Modern t) :
    Prague.regularDay < Prague.localDay t := by
  have this := modern_iff.mp h
  have ahead := (Prague.offsetAt_bounds t).1
  rw [Prague.regularDay_eq, Prague.localDay, Zone.wall]
  omega

end PvrBackend.Calendar
