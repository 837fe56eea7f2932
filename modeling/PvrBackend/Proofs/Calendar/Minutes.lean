import PvrBackend.Proofs.Calendar.Texts

/-!
# Minutes of the calendar

A text of the service names a minute of the calendar: a date, an hour and a minute. The
clocks of Prague show most minutes once. In spring they skip those of an hour, and in
autumn they show those of an hour twice.

Reading gives the first instant at which a minute is shown. For a skipped one it gives the
only instant at which the minute an hour later is shown. Among the minutes that are shown
the order of the calendar is the order of these instants, and an instant that was written
is read back to the minute, or an hour early in the second pass of an autumn hour.
-/

namespace PvrBackend.Calendar

/-- A minute that the calendar has. -/
structure Minute where
  date : Date
  hour : Nat
  minute : Nat
  date_valid : date.valid = true
  hour_lt : hour < 24
  minute_lt : minute < 60

namespace Minute

/-- The wall time at which a minute starts. -/
def wall (m : Minute) : Int := wallOf m.date (m.hour * 3600 + m.minute * 60)

/-- A minute written as `YYYY-MM-DD HH:MM`. -/
def text (m : Minute) : String :=
  Decimal.padded 4 m.date.year.toNat ++ "-" ++ Decimal.padded 2 m.date.month ++ "-" ++
    Decimal.padded 2 m.date.day ++ " " ++ Decimal.padded 2 m.hour ++ ":" ++
    Decimal.padded 2 m.minute

/-- Minutes of the years 1970 to 9999. -/
def Modern (m : Minute) : Prop := 1970 ≤ m.date.year ∧ m.date.year ≤ 9999

instance (m : Minute) : Decidable m.Modern := inferInstanceAs (Decidable (_ ∧ _))

theorem dateOfWall_wall (m : Minute) : dateOfWall m.wall = m.date := by
  have hour := m.hour_lt
  have minute := m.minute_lt
  have day : m.wall / daySeconds = m.date.number := by
    rw [wall, wallOf, daySeconds]
    omega
  rw [dateOfWall, day, Date.ofNumber_number m.date_valid]

theorem clockText_wall (m : Minute) :
    clockText m.wall = Decimal.padded 2 m.hour ++ ":" ++ Decimal.padded 2 m.minute := by
  have hour := m.hour_lt
  have minute := m.minute_lt
  have seconds : (m.wall % daySeconds).toNat = m.hour * 3600 + m.minute * 60 := by
    rw [wall, wallOf, daySeconds]
    omega
  have hours : (m.hour * 3600 + m.minute * 60) / 3600 = m.hour := by omega
  have minutes : (m.hour * 3600 + m.minute * 60) / 60 % 60 = m.minute := by omega
  rw [clockText, seconds, hours, minutes]

/-- A minute of these years is written as its wall time is. -/
theorem wallText_wall {m : Minute} (h : m.Modern) : wallText m.wall = m.text := by
  have short : 0 ≤ m.date.year ∧ m.date.year ≤ 9999 := ⟨Int.le_trans (by decide) h.1, h.2⟩
  rw [wallText, dateOfWall_wall, clockText_wall, Date.text, yearText, if_pos short, text]
  simp only [String.append_assoc]

theorem wall_emod (m : Minute) : m.wall % 60 = 0 := by
  rw [wall, wallOf, daySeconds]
  omega

theorem Modern.wall {m : Minute} (h : m.Modern) : Calendar.Modern m.wall := by
  obtain ⟨low, high⟩ := Date.number_bounds m.date_valid
  have first := Date.daysBeforeYear_mono h.1
  have below : m.date.year + 1 ≤ 10000 := Int.add_le_add_right h.2 1
  have last := Date.daysBeforeYear_mono below
  have hour := m.hour_lt
  have minute := m.minute_lt
  have start : daysBeforeYear 1970 = 719162 := by decide
  have stop : daysBeforeYear 10000 = 3652059 := by decide
  have epoch : epochDay = 719162 := rfl
  rw [modern_iff, Minute.wall, wallOf, daySeconds]
  omega

/-- The text of a minute is read as the instant of its wall time. -/
theorem readTime_text {m : Minute} (h : m.Modern) : readTime m.text = instant? m.wall := by
  have first : yearRange.1 ≤ 1970 := by decide
  have last : 9999 ≤ yearRange.2 := by decide
  have years : yearRange.1 ≤ (dateOfWall m.wall).year ∧ (dateOfWall m.wall).year ≤ yearRange.2 := by
    rw [dateOfWall_wall]
    exact ⟨Int.le_trans first h.1, Int.le_trans h.2 last⟩
  rw [readTime, ← wallText_wall h, readWall_wallText years, m.wall_emod, Int.sub_zero,
    Option.bind_some]

end Minute

namespace Prague

/-! ### Wall times that are shown, and that are skipped -/

/-- Clocks show a wall time at some instant. -/
def Shown (w : Int) : Prop := ∃ t, zone.wall t = w

/-- Clocks show at an instant what they showed an hour before. -/
def SecondPass (t : Int) : Prop := zone.wall (t - 3600) = zone.wall t

instance (t : Int) : Decidable (SecondPass t) := inferInstanceAs (Decidable (_ = _))

theorem regular_of_shows {w t : Int} (h : Modern w) (shows : zone.wall t = w) : Regular t := by
  have bounds := offsetAt_bounds t
  have inside := modern_iff.mp h
  rw [Zone.wall] at shows
  exact regular_iff.mpr (by omega)

theorem exists_instant?_of_shown {w : Int} (h : Modern w) (shown : Shown w) :
    ∃ t, instant? w = some t ∧ IsLeast {s | zone.wall s = w} t := by
  obtain ⟨t, rfl⟩ := shown
  exact instant?_wall (regular_of_shows h rfl)

/-- A wall time that is skipped lies less than an hour behind a change to summer time, so the
time an hour later is shown once. -/
theorem wall_eq_add_iff {w : Int} (h : Modern w) (skipped : ¬ Shown w) (s : Int) :
    zone.wall s = w + 3600 ↔ s = w - 3600 := by
  have inside := modern_iff.mp h
  have first := regularDay_eq
  -- Neither the winter nor the summer candidate shows the time.
  have winter := wall_eq (t := w - 3600) (by omega)
  have summer := wall_eq (t := w - 7200) (by omega)
  have winter_ne : zone.wall (w - 3600) ≠ w := fun shows => skipped ⟨_, shows⟩
  have summer_ne : zone.wall (w - 7200) ≠ w := fun shows => skipped ⟨_, shows⟩
  have after := ahead_cases (u := stretch (w - 3600)) (by rw [stretch]; omega)
  have before := ahead_cases (u := stretch (w - 7200)) (by rw [stretch]; omega)
  have late : ahead (stretch (w - 3600)) = 7200 := by omega
  have early : ahead (stretch (w - 7200)) = 3600 := by omega
  have changed : stretch (w - 7200) ≠ stretch (w - 3600) := by
    intro same
    rw [same] at early
    omega
  constructor
  · intro shows
    have bounds := offsetAt_bounds s
    have regular : regularDay * 86400 ≤ s := by
      rw [Zone.wall] at shows
      omega
    have wall := wall_eq regular
    have offset := ahead_cases (u := stretch s) (by rw [stretch]; omega)
    by_contra other
    -- What is left is the winter candidate for the later time, in the same stretch.
    have same : stretch s = stretch (w - 3600) := by
      rw [stretch, stretch] at changed ⊢
      omega
    rw [same] at wall
    omega
  · rintro rfl
    omega

theorem instant?_of_skipped {w : Int} (h : Modern w) (skipped : ¬ Shown w) :
    instant? w = some (w - 3600) := by
  have inside := modern_iff.mp h
  have never : zone.earliest? w = none := by
    rw [Option.eq_none_iff_forall_ne_some]
    intro t found
    exact skipped ⟨t, ((Zone.earliest?_eq_some_iff zone_ordered).mp found).1⟩
  have later : zone.earliest? (w + 3600) = some (w - 3600) := by
    rw [Zone.earliest?_eq_some_iff zone_ordered]
    refine ⟨(wall_eq_add_iff h skipped _).mpr rfl, ?_⟩
    intro s shows
    exact Int.le_of_eq ((wall_eq_add_iff h skipped s).mp shows).symm
  rw [instant?, never, later, Option.filter_none, Option.none_or,
    Option.filter_some_pos (inCalendar_of_bounds (by omega) (by omega))]

/-! ### The order of the instants -/

/-- An earlier instant with the same wall time is an hour earlier. -/
theorem firstShown_iff {t : Int} (h : Regular t) : FirstShown t ↔ ¬ SecondPass t := by
  constructor
  · intro first again
    exact first (t - 3600) (by omega) again
  · intro once s before shows
    have low := regular_of_wall h (Int.le_of_lt before) shows
    have first := regularDay_eq
    have wall := wall_eq (t := s) (by omega)
    have wall' := wall_eq (t := t) (by omega)
    have offset := ahead_cases (u := stretch s) (by rw [stretch]; omega)
    have offset' := ahead_cases (u := stretch t) (by rw [stretch]; omega)
    obtain rfl : s = t - 3600 := by omega
    exact once shows

/-- The first instants of wall times are in the order of these times. -/
theorem lt_of_isLeast {w w' t t' : Int} (h : Modern w) (h' : Modern w')
    (least : IsLeast {s | zone.wall s = w} t) (least' : IsLeast {s | zone.wall s = w'} t')
    (lt : w < w') : t < t' := by
  have shows : zone.wall t = w := least.1
  have shows' : zone.wall t' = w' := least'.1
  have low := (regular_of_shows h shows).1
  have low' := (regular_of_shows h' shows').1
  have first := regularDay_eq
  have wall := wall_eq (t := t) (by omega)
  have wall' := wall_eq (t := t') (by omega)
  have offset := ahead_cases (u := stretch t) (by rw [stretch]; omega)
  have offset' := ahead_cases (u := stretch t') (by rw [stretch]; omega)
  by_contra late
  -- Otherwise summer time ended less than an hour before `t`, which is the second to show `w`.
  have changed : stretch t' ≠ stretch t := by
    intro same
    rw [same] at wall'
    omega
  have back : stretch (t - 3600) = stretch t' := by
    rw [stretch, stretch] at changed ⊢
    omega
  have again : zone.wall (t - 3600) = w := by
    rw [wall_eq (by omega), back]
    omega
  have := least.2 again
  omega

end Prague

open Prague

/-- An instant that shows a minute is written as that minute. -/
theorem Minute.timeText_of_shows {m : Minute} (h : m.Modern) {t : Int}
    (shows : zone.wall t = m.wall) : timeText t = m.text := by
  have inside := regular_iff.mp (regular_of_shows h.wall shows)
  rw [timeText, if_pos (inCalendar_of_bounds (by omega) (by omega)), shows, wallText_wall h]

/-- Texts and instants agree.

Every minute of the years 1970 to 9999 is read: as the first instant that shows it, whose
text is the minute again, or, if clocks skip it, as the one instant that shows the time an
hour later. Among minutes that are shown, a later one is a later instant. An instant from
1950 on is read back from its text to the minute, and an hour early exactly in the second
pass of an hour. -/
theorem minutes_agree :
    (∀ m : Minute, m.Modern → ∃ t, readTime m.text = some t ∧
      (Shown m.wall → IsLeast {s | zone.wall s = m.wall} t ∧ timeText t = m.text) ∧
      (¬ Shown m.wall → ∀ s, zone.wall s = m.wall + 3600 ↔ s = t)) ∧
    (∀ m m' : Minute, m.Modern → m'.Modern → Shown m.wall → Shown m'.wall → m.wall < m'.wall →
      ∃ t t', readTime m.text = some t ∧ readTime m'.text = some t' ∧ t < t') ∧
    ∀ t, Regular t → readTime (timeText t) =
      some (if SecondPass t then t - t % 60 - 3600 else t - t % 60) := by
  refine ⟨?_, ?_, ?_⟩
  · intro m h
    rw [m.readTime_text h]
    by_cases shown : Shown m.wall
    · obtain ⟨t, read, least⟩ := exists_instant?_of_shown h.wall shown
      refine ⟨t, read, fun _ => ⟨least, m.timeText_of_shows h least.1⟩, ?_⟩
      intro skipped
      exact absurd shown skipped
    · refine ⟨m.wall - 3600, instant?_of_skipped h.wall shown, ?_, ?_⟩
      · intro shown'
        exact absurd shown' shown
      · intro _
        exact wall_eq_add_iff h.wall shown
  · intro m m' h h' shown shown' lt
    obtain ⟨t, read, least⟩ := exists_instant?_of_shown h.wall shown
    obtain ⟨t', read', least'⟩ := exists_instant?_of_shown h'.wall shown'
    rw [m.readTime_text h, m'.readTime_text h']
    exact ⟨t, t', read, read', lt_of_isLeast h.wall h'.wall least least' lt⟩
  · intro t h
    obtain ⟨s, read, ⟨once, rfl⟩ | ⟨again, rfl⟩⟩ := readTime_timeText h
    · rw [read, if_neg ((firstShown_iff h).mp once)]
    · rw [firstShown_iff h, not_not] at again
      rw [read, if_pos again]

/-- A minute of the hour that clocks skip in the spring of 2024. -/
def Minute.skipped : Minute := ⟨⟨2024, 3, 31⟩, 2, 30, by decide, by decide, by decide⟩

/-- A minute of the hour that clocks show twice in the autumn of 2024. -/
def Minute.repeated : Minute := ⟨⟨2024, 10, 27⟩, 2, 30, by decide, by decide, by decide⟩

/-- The first minute after that hour. -/
def Minute.resumed : Minute := ⟨⟨2024, 10, 27⟩, 3, 0, by decide, by decide, by decide⟩

/-- In 2024 the skipped minute is read as an hour later, the repeated one as its first pass,
and its second pass is read an hour early. -/
theorem minutes_agree_2024 :
    (Minute.skipped.Modern ∧ ¬ Shown Minute.skipped.wall ∧
      ∃ t, readTime Minute.skipped.text = some t ∧
        ∀ s, zone.wall s = Minute.skipped.wall + 3600 ↔ s = t) ∧
    (Minute.repeated.Modern ∧ Shown Minute.repeated.wall ∧
      ∃ t, readTime Minute.repeated.text = some t ∧
        IsLeast {s | zone.wall s = Minute.repeated.wall} t ∧ timeText t = Minute.repeated.text) ∧
    (Minute.resumed.Modern ∧ Shown Minute.resumed.wall ∧
      Minute.repeated.wall < Minute.resumed.wall ∧
      ∃ t t', readTime Minute.repeated.text = some t ∧ readTime Minute.resumed.text = some t' ∧
        t < t') ∧
    Regular 1729992600 ∧ SecondPass 1729992600 ∧
      readTime (timeText 1729992600) = some 1729989000 := by
  obtain ⟨reads, increases, rounds⟩ := minutes_agree
  have skipped : Minute.skipped.Modern := by decide
  have repeated : Minute.repeated.Modern := by decide
  have resumed : Minute.resumed.Modern := by decide
  have never : ¬ Shown Minute.skipped.wall := by
    rintro ⟨t, shows⟩
    obtain ⟨r, found, -⟩ := Zone.exists_earliest? shows
    have missing : zone.earliest? Minute.skipped.wall = none := by decide +kernel
    rw [missing] at found
    cases found
  have twice : Shown Minute.repeated.wall := ⟨1729989000, by decide +kernel⟩
  have once : Shown Minute.resumed.wall := ⟨1729994400, by decide +kernel⟩
  have before : Minute.repeated.wall < Minute.resumed.wall := by decide
  have regular : Regular 1729992600 := regular_iff.mpr (by decide)
  have again : SecondPass 1729992600 := by decide +kernel
  obtain ⟨t, read, -, moved⟩ := reads Minute.skipped skipped
  obtain ⟨t', read', first, -⟩ := reads Minute.repeated repeated
  refine ⟨⟨skipped, never, t, read, moved never⟩, ⟨repeated, twice, t', read', first twice⟩,
    ⟨resumed, once, before, increases _ _ repeated resumed twice once before⟩, regular, again, ?_⟩
  rw [rounds 1729992600 regular, if_pos again]
  rfl

end PvrBackend.Calendar
