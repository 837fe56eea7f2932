import PvrBackend.Proofs.Calendar.Days
import PvrBackend.Proofs.Decimal.Digits

/-!
# Texts of times

What is written as a time of the service is read back to the minute: the seconds
are left out. Years from 0 to 9999 are written with four digits and others with a
sign, and reading accepts both forms. A wall time that occurs twice is read as its
first occurrence, so reading a text gives the instant that was written, or one
that is earlier by the length of the repetition.
-/

namespace PvrBackend

namespace Decimal

theorem toList_padded (width n : Nat) :
    (padded width n).toList = List.replicate (width - (digits n).length) '0' ++ digits n := by
  rw [padded, String.toList_ofList]

@[simp] theorem value_padded (width n : Nat) : value (padded width n).toList = n := by
  rw [toList_padded, value, Nat.ofDigitChars_append, Nat.ofDigitChars_replicate_zero, Nat.mul_zero]
  exact value_digits n

theorem padded_isDigit {width n : Nat} {c : Char} (h : c ∈ (padded width n).toList) :
    c.isDigit = true := by
  rw [toList_padded] at h
  rcases List.mem_append.mp h with zero | digit
  · rw [List.eq_of_mem_replicate zero]
    decide
  · exact digits_isDigit digit

theorem padded_ne_nil (width n : Nat) : (padded width n).toList ≠ [] := by
  rw [toList_padded]
  exact List.append_ne_nil_of_right_ne_nil _ (digits_ne_nil n)

/-- A number that fits is written with exactly as many digits. -/
theorem length_padded {width n : Nat} (pos : 0 < width) (h : n < Nat.pow 10 width) :
    (padded width n).toList.length = width := by
  have fits := length_digits_le pos h
  rw [toList_padded, List.length_append, List.length_replicate]
  omega

end Decimal

namespace Text

theorem isBlank_of_isDigit {c : Char} (h : c.isDigit = true) : isBlank c = false := by
  simp only [Char.isDigit, Bool.and_eq_true, decide_eq_true_eq, ge_iff_le,
    UInt32.le_iff_toNat_le] at h
  have low : 48 ≤ c.toNat := h.1
  have high : c.toNat ≤ 57 := h.2
  simp only [isBlank, blankRanges, List.any_cons, List.any_nil, Bool.or_eq_false_iff,
    Bool.and_eq_false_iff, decide_eq_false_iff_not, and_true]
  omega

theorem skipBlanks_of_head {cs : List Char} (h : ∀ c ∈ cs.head?, isBlank c = false) :
    skipBlanks cs = cs := by
  cases cs with
  | nil => rfl
  | cons c cs => exact List.dropWhile_cons_of_neg (by simp [h c rfl])

theorem trim_of_ends {cs : List Char} (first : ∀ c ∈ cs.head?, isBlank c = false)
    (last : ∀ c ∈ cs.getLast?, isBlank c = false) : trim cs = cs := by
  rw [trim, skipBlanks_of_head first, skipBlanks_of_head (by rwa [List.head?_reverse]),
    List.reverse_reverse]

end Text

namespace Calendar

open Decimal

/-- A number that fits its width is read back, whatever follows. -/
theorem readNumber_padded (width n : Nat) (pos : 0 < width) (fits : n < Nat.pow 10 width)
    (rest : List Char) : readNumber width ((padded width n).toList ++ rest) = some (n, rest) := by
  have digits : ∀ c ∈ (padded width n).toList, c.isDigit = true := fun _ => padded_isDigit
  have unblanked : Text.skipBlanks ((padded width n).toList ++ rest) =
      (padded width n).toList ++ rest := by
    apply Text.skipBlanks_of_head
    intro c member
    rw [List.head?_append_of_ne_nil _ (padded_ne_nil width n)] at member
    exact Text.isBlank_of_isDigit (digits c (List.mem_of_mem_head? member))
  have taken : ((padded width n).toList ++ rest).take width = (padded width n).toList := by
    rw [List.take_append_of_le_length (Nat.le_of_eq (length_padded pos fits).symm)]
    exact List.take_of_length_le (Nat.le_of_eq (length_padded pos fits))
  have whole : (padded width n).toList.takeWhile Char.isDigit = (padded width n).toList := by
    have stop : ∀ c ∈ ([] : List Char).head?, c.isDigit = false := fun _ member => nomatch member
    simpa only [List.append_nil] using takeWhile_isDigit_append digits stop
  simp only [readNumber, unblanked, taken, whole, if_neg (padded_ne_nil width n), value_padded,
    List.drop_left]

theorem signed_padded (sign : Int) (width n : Nat) (rest : List Char) :
    readYear.signed sign ((padded width n).toList ++ '-' :: rest) =
      some (sign * n, '-' :: rest) := by
  have taken : ((padded width n).toList ++ '-' :: rest).takeWhile Char.isDigit =
      (padded width n).toList :=
    takeWhile_isDigit_append (fun _ => padded_isDigit) (by simp)
  simp only [readYear.signed, taken, if_neg (padded_ne_nil width n), value_padded, List.drop_left]

theorem readYear_minus (cs : List Char) : readYear ('-' :: cs) = readYear.signed (-1) cs := by
  rw [readYear, Text.skipBlanks_of_head (by simpa using (by decide : Text.isBlank '-' = false))]
  rfl

theorem readYear_plus (cs : List Char) : readYear ('+' :: cs) = readYear.signed 1 cs := by
  rw [readYear, Text.skipBlanks_of_head (by simpa using (by decide : Text.isBlank '+' = false))]
  rfl

theorem readYear_yearText (year : Int) (rest : List Char) :
    readYear ((yearText year).toList ++ '-' :: rest) = some (year, '-' :: rest) := by
  rw [yearText]
  split
  next short =>
    have unsigned := readNumber_padded 4 year.toNat (by decide)
      (show year.toNat < 10000 by omega) ('-' :: rest)
    obtain ⟨c, cs, text⟩ := List.exists_cons_of_ne_nil (padded_ne_nil 4 year.toNat)
    have digit : c.isDigit = true := padded_isDigit (by rw [text]; exact List.mem_cons_self)
    rw [text, List.cons_append] at unsigned ⊢
    rw [readYear, Text.skipBlanks_of_head (by simpa using Text.isBlank_of_isDigit digit)]
    split
    next same => obtain ⟨rfl, -⟩ := List.cons.inj same; contradiction
    next same => obtain ⟨rfl, -⟩ := List.cons.inj same; contradiction
    next =>
      rw [unsigned, Option.map_some]
      dsimp only
      rw [Int.toNat_of_nonneg short.1]
  next long =>
    have signs : "-".toList = ['-'] ∧ "+".toList = ['+'] := ⟨rfl, rfl⟩
    split
    next before =>
      rw [String.toList_append, signs.1, List.append_assoc, List.singleton_append, readYear_minus,
        signed_padded]
      congr 2
      omega
    next after =>
      rw [String.toList_append, signs.2, List.append_assoc, List.singleton_append, readYear_plus,
        signed_padded]
      congr 2
      omega

theorem readDate_text {d : Date} (valid : d.valid = true)
    (years : yearRange.1 ≤ d.year ∧ d.year ≤ yearRange.2) (rest : List Char) :
    readDate (d.text.toList ++ rest) = some (d, rest) := by
  have text : d.text.toList ++ rest = (yearText d.year).toList ++
      '-' :: ((padded 2 d.month).toList ++ '-' :: ((padded 2 d.day).toList ++ rest)) := by
    simp [Date.text]
  have month := readNumber_padded 2 d.month (by decide)
    (Nat.lt_of_le_of_lt (Date.month_le_of_valid valid) (by decide))
  have day := readNumber_padded 2 d.day (by decide)
    (Nat.lt_of_le_of_lt (Date.day_le_of_valid valid) (by decide))
  rw [text]
  simp [readDate, readYear_yearText, expect, month, day, valid, years]

theorem readNumber_blank (width : Nat) (cs : List Char) :
    readNumber width (' ' :: cs) = readNumber width cs := by
  have skipped : Text.skipBlanks (' ' :: cs) = Text.skipBlanks cs :=
    List.dropWhile_cons_of_pos (by decide)
  rw [readNumber, readNumber, skipped]

theorem readClock_clockText (w : Int) :
    readClock (' ' :: (clockText w).toList) = some ((w % daySeconds).toNat / 60 * 60, []) := by
  have day : (w % daySeconds).toNat < 86400 := by
    have := Int.emod_lt_of_pos w (show 0 < daySeconds by decide)
    rw [daySeconds] at *
    omega
  generalize known : (w % daySeconds).toNat = seconds at day ⊢
  have text : (clockText w).toList =
      (padded 2 (seconds / 3600)).toList ++ ':' :: (padded 2 (seconds / 60 % 60)).toList := by
    simp [clockText, known]
  have hour := readNumber_padded 2 (seconds / 3600) (by decide)
    (show seconds / 3600 < 100 by omega)
  have minute : readNumber 2 (padded 2 (seconds / 60 % 60)).toList =
      some (seconds / 60 % 60, []) := by
    simpa using readNumber_padded 2 (seconds / 60 % 60) (by decide)
      (show seconds / 60 % 60 < 100 by omega) []
  have inside : seconds / 3600 < 24 ∧ seconds / 60 % 60 < 60 := by omega
  have sum : seconds / 3600 * 3600 + seconds / 60 % 60 * 60 = seconds / 60 * 60 := by omega
  rw [text, readClock, readNumber_blank, hour]
  simp [expect, minute, inside, sum]

/-! ### Wall times and instants -/

theorem yearText_eq_cons (year : Int) :
    ∃ c cs, (yearText year).toList = c :: cs ∧ Text.isBlank c = false := by
  rw [yearText]
  split
  · obtain ⟨c, cs, text⟩ := List.exists_cons_of_ne_nil (padded_ne_nil 4 year.toNat)
    exact ⟨c, cs, text,
      Text.isBlank_of_isDigit (padded_isDigit (by rw [text]; exact List.mem_cons_self))⟩
  · split
    · exact ⟨'-', _, by rw [String.toList_append]; rfl, by decide⟩
    · exact ⟨'+', _, by rw [String.toList_append]; rfl, by decide⟩

theorem getLast?_clockText (w : Int) :
    ∃ c, (clockText w).toList.getLast? = some c ∧ Text.isBlank c = false := by
  have last := padded_ne_nil 2 ((w % daySeconds).toNat / 60 % 60)
  refine ⟨_, ?_, Text.isBlank_of_isDigit (padded_isDigit (List.getLast_mem last))⟩
  rw [clockText, String.toList_append, List.getLast?_append, List.getLast?_eq_some_getLast last,
    Option.some_or]

/-- A written wall time is read back to the minute. -/
theorem readWall_wallText {w : Int}
    (years : yearRange.1 ≤ (dateOfWall w).year ∧ (dateOfWall w).year ≤ yearRange.2) :
    readWall (wallText w) = some (w - w % 60) := by
  have text : (wallText w).toList = (dateOfWall w).text.toList ++ ' ' :: (clockText w).toList := by
    simp [wallText]
  have trimmed : Text.trim (wallText w).toList = (wallText w).toList := by
    obtain ⟨first, cs, front, unblank⟩ := yearText_eq_cons (dateOfWall w).year
    obtain ⟨last, back, unblank'⟩ := getLast?_clockText w
    apply Text.trim_of_ends
    · simpa [text, Date.text, front] using unblank
    · simpa [text, List.getLast?_cons, back] using unblank'
  have date := readDate_text (d := dateOfWall w) (Date.valid_ofNumber _) years
  have seconds : wallOf (dateOfWall w) ((w % daySeconds).toNat / 60 * 60) = w - w % 60 := by
    simp only [wallOf, dateOfWall, Date.number_ofNumber, daySeconds]
    omega
  rw [readWall, trimmed, text, date]
  simp [readClock_clockText, seconds]

/-- Clocks show the time of an instant for the first time then. -/
def Prague.FirstShown (t : Int) : Prop := ∀ s < t, Prague.zone.wall s ≠ Prague.zone.wall t

namespace Prague

/-- Offsets are whole hours, so minutes start with a minute on the clocks. -/
theorem wall_minute {t : Int} (h : regularDay * 86400 ≤ t) :
    zone.wall (t - t % 60) = zone.wall t - t % 60 ∧ zone.wall t % 60 = t % 60 := by
  have first := regularDay_eq
  have same : stretch (t - t % 60) = stretch t := by
    rw [stretch, stretch]
    omega
  have offset := ahead_cases (u := stretch t) (by rw [stretch]; omega)
  rw [wall_eq (by omega), wall_eq h, same]
  omega

theorem regular_of_wall {s t : Int} (h : Regular t) (le : s ≤ t)
    (shows : zone.wall s = zone.wall t) : regularDay * 86400 + 3600 ≤ s := by
  have low := h.1
  have early := (offsetAt_bounds t).1
  have late := (offsetAt_bounds s).2
  rw [Zone.wall, Zone.wall] at shows
  omega

/-- A time that is shown has an instant, the first one at which it is shown. -/
theorem instant?_wall {t : Int} (h : Regular t) :
    ∃ s, instant? (zone.wall t) = some s ∧ IsLeast {r | zone.wall r = zone.wall t} s := by
  obtain ⟨s, found, le⟩ := Zone.exists_earliest? (z := zone) (t := t) rfl
  have least := (Zone.earliest?_eq_some_iff zone_ordered).mp found
  have low := regular_of_wall h le least.1
  have high := regular_iff.mp h
  have first := regularDay_eq
  refine ⟨s, ?_, least⟩
  rw [instant?, found, Option.filter_some_pos (inCalendar_of_bounds (by omega) (by omega)),
    Option.some_or]

theorem year_of_regular {t : Int} (h : Regular t) :
    yearRange.1 ≤ (dateOfWall (zone.wall t)).year ∧
      (dateOfWall (zone.wall t)).year ≤ yearRange.2 := by
  have bounds := offsetAt_bounds t
  have inside := regular_iff.mp h
  have start : daysBeforeYear yearRange.1 ≤ 0 := by decide
  have stop : daysBeforeYear (yearRange.2 + 1) = 95745399 := by decide
  have first : epochDay = 719162 := rfl
  rw [dateOfWall, Date.ofNumber_year]
  refine ⟨Date.le_yearOf ?_, Int.le_of_lt_add_one (Date.yearOf_lt ?_)⟩ <;>
    rw [daySeconds, Zone.wall] <;> omega

end Prague

open Prague

/-- A text of an instant is read as its minute, or as an hour before it when clocks show
that minute for the second time. -/
theorem readTime_timeText {t : Int} (h : Regular t) :
    ∃ s, readTime (timeText t) = some s ∧
      (FirstShown t ∧ s = t - t % 60 ∨ ¬FirstShown t ∧ s = t - t % 60 - 3600) := by
  have low := h.1
  have inside := regular_iff.mp h
  have number := regularDay_eq
  have minute := wall_minute (t := t) (by omega)
  have regular : Regular (t - t % 60) := regular_iff.mpr (by omega)
  obtain ⟨s, found, shows, least⟩ := instant?_wall regular
  have shows : zone.wall s = zone.wall (t - t % 60) := shows
  have le : s ≤ t - t % 60 := least rfl
  have from_start := regular_of_wall regular le shows
  have minute' := wall_minute (t := s) (by omega)
  refine ⟨s, ?_, ?_⟩
  · rw [readTime, timeText, if_pos (inCalendar_of_bounds (by omega) (by omega)),
      readWall_wallText (year_of_regular h), minute.2, ← minute.1, Option.bind_some, found]
  · by_cases same : s = t - t % 60
    · refine .inl ⟨?_, same⟩
      intro r before shows'
      -- An earlier instant with this time would have an earlier minute as well.
      have from_start' := regular_of_wall h (Int.le_of_lt before) shows'
      have minute'' := wall_minute (t := r) (by omega)
      have := least (show zone.wall (r - r % 60) = zone.wall (t - t % 60) by omega)
      omega
    · have ahead := ahead_cases (u := stretch s) (by rw [stretch]; omega)
      have ahead' := ahead_cases (u := stretch (t - t % 60)) (by rw [stretch]; omega)
      have wall := wall_eq (t := s) (by omega)
      have wall' := wall_eq (t := t - t % 60) (by omega)
      refine .inr ⟨?_, by omega⟩
      intro once
      -- As far into its minute, the earlier instant shows this very time.
      have minute'' := wall_minute (t := s + t % 60) (by omega)
      have start : s + t % 60 - (s + t % 60) % 60 = s := by omega
      rw [start] at minute''
      exact once (s + t % 60) (by omega) (by omega)

end Calendar

end PvrBackend
