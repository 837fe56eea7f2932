import PvrBackend.Calendar.Date

/-!
# Dates and their numbers

Every day number has exactly one date: the year found from the mean length of a
year holds the day, and walking along the months ends inside that year. So a
number is read back from its date, and that date exists. In turn every date that
exists is found from its number.

The length of a year is needed only where a date has to exist. Reading the number
back also works for a walk that leaves the year.
-/

namespace PvrBackend.Calendar.Date

/-! ### Years -/

theorem daysBeforeYear_eq (year : Int) : daysBeforeYear year =
    365 * (year - 1) + (year - 1) / 4 - (year - 1) / 100 + (year - 1) / 400 := rfl

/-- A year has 365 days, and one more when it is a leap year. -/
theorem daysBeforeYear_succ (year : Int) :
    daysBeforeYear (year + 1) = daysBeforeYear year + if isLeap year then 366 else 365 := by
  simp only [daysBeforeYear_eq, Int.add_sub_cancel]
  split
  next h =>
    simp only [isLeap, Bool.and_eq_true, Bool.or_eq_true, beq_iff_eq, bne_iff_ne] at h
    omega
  next h =>
    simp only [isLeap, Bool.and_eq_true, Bool.or_eq_true, beq_iff_eq, bne_iff_ne] at h
    omega

theorem daysBeforeYear_mono {a b : Int} (h : a ≤ b) : daysBeforeYear a ≤ daysBeforeYear b := by
  simp only [daysBeforeYear_eq]
  omega

theorem daysOf_monthLengths (leap : Bool) :
    daysOf (monthLengths leap) = if leap then 366 else 365 := by
  cases leap <;> rfl

/-- The mean length of a year is off by one year at most. -/
theorem daysBeforeYear_guess (days : Int) :
    daysBeforeYear (400 * days / 146097) ≤ days ∧
      days < daysBeforeYear (400 * days / 146097 + 3) := by
  simp only [daysBeforeYear_eq]
  omega

theorem daysBeforeYear_yearOf_le (days : Int) : daysBeforeYear (yearOf days) ≤ days := by
  obtain ⟨low, -⟩ := daysBeforeYear_guess days
  unfold yearOf
  dsimp only
  split
  · rwa [Int.add_sub_cancel]
  · split <;> omega

theorem lt_daysBeforeYear_yearOf_succ (days : Int) : days < daysBeforeYear (yearOf days + 1) := by
  obtain ⟨-, high⟩ := daysBeforeYear_guess days
  unfold yearOf
  dsimp only
  split
  · rwa [Int.sub_add_cancel]
  · split
    · rwa [show 400 * days / 146097 + 1 + 1 + 1 = 400 * days / 146097 + 3 by omega]
    · omega

theorem yearOf_lt {days year : Int} (h : days < daysBeforeYear year) : yearOf days < year := by
  apply Int.lt_of_not_ge
  intro hyear
  have start := daysBeforeYear_mono hyear
  have := daysBeforeYear_yearOf_le days
  omega

theorem le_yearOf {days year : Int} (h : daysBeforeYear year ≤ days) : year ≤ yearOf days := by
  apply Int.le_of_not_gt
  intro hyear
  have start := daysBeforeYear_mono (show yearOf days + 1 ≤ year from hyear)
  have := lt_daysBeforeYear_yearOf_succ days
  omega

/-! ### Months -/

/-- Where a walk along the months ends: `index` months are behind it, and the days
of those months with the day of the month make up the distance. -/
theorem ofDayOfYear_spec (lengths : List Nat) (month rest : Nat) :
    ∃ index day, ofDayOfYear lengths month rest = (month + index, day + 1) ∧
      daysOf (lengths.take index) + day = rest := by
  induction lengths generalizing month rest with
  | nil => exact ⟨0, rest, rfl, by simp⟩
  | cons length lengths ih =>
      rw [ofDayOfYear]
      split
      next h => exact ⟨0, rest, rfl, by simp⟩
      next h =>
        obtain ⟨index, day, walk, sum⟩ := ih (month + 1) (rest - length)
        refine ⟨index + 1, day, ?_, ?_⟩
        · rw [walk, Nat.add_assoc, Nat.add_comm 1]
        · simp only [List.take_succ_cons, daysOf_cons]
          omega

/-- A walk over less than all the days ends inside a month. -/
theorem ofDayOfYear_inside {lengths : List Nat} (month : Nat) {rest : Nat}
    (h : rest < daysOf lengths) :
    ∃ index day length, ofDayOfYear lengths month rest = (month + index, day + 1) ∧
      lengths[index]? = some length ∧ day < length := by
  induction lengths generalizing month rest with
  | nil => simp at h
  | cons length lengths ih =>
      rw [ofDayOfYear]
      split
      next inside => exact ⟨0, rest, length, rfl, rfl, inside⟩
      next outside =>
        rw [daysOf_cons] at h
        obtain ⟨index, day, found, walk, at_index, inside⟩ :=
          ih (month + 1) (show rest - length < daysOf lengths by omega)
        exact ⟨index + 1, day, found, by rw [walk, Nat.add_assoc, Nat.add_comm 1],
          by simpa using at_index, inside⟩

/-! ### Numbers -/

/-- Distance of a day from the start of its year. -/
def dayOfYear (n : Int) : Nat :=
  (n + epochDay - daysBeforeYear (yearOf (n + epochDay))).toNat

@[simp] theorem ofNumber_year (n : Int) : (ofNumber n).year = yearOf (n + epochDay) := rfl

@[simp] theorem ofNumber_month (n : Int) : (ofNumber n).month =
    (ofDayOfYear (monthLengths (isLeap (yearOf (n + epochDay)))) 1 (dayOfYear n)).1 := rfl

@[simp] theorem ofNumber_day (n : Int) : (ofNumber n).day =
    (ofDayOfYear (monthLengths (isLeap (yearOf (n + epochDay)))) 1 (dayOfYear n)).2 := rfl

@[simp] theorem number_ofNumber (n : Int) : (ofNumber n).number = n := by
  have start := daysBeforeYear_yearOf_le (n + epochDay)
  obtain ⟨index, day, walk, sum⟩ := ofDayOfYear_spec
    (monthLengths (isLeap (yearOf (n + epochDay)))) 1 (dayOfYear n)
  have distance : (dayOfYear n : Int) = n + epochDay - daysBeforeYear (yearOf (n + epochDay)) :=
    Int.toNat_of_nonneg (by omega)
  simp only [number, ofNumber_year, ofNumber_month, ofNumber_day, walk, Nat.add_sub_cancel_left]
  omega

theorem dayOfYear_lt (n : Int) :
    dayOfYear n < daysOf (monthLengths (isLeap (yearOf (n + epochDay)))) := by
  have start := daysBeforeYear_yearOf_le (n + epochDay)
  have stop := lt_daysBeforeYear_yearOf_succ (n + epochDay)
  rw [daysBeforeYear_succ] at stop
  rw [daysOf_monthLengths, dayOfYear]
  split at stop <;> simp_all <;> omega

/-- The date of a number exists: its month is found among those of the year, and
the month has the day. -/
theorem ofNumber_inside (n : Int) :
    ∃ index day length, (ofNumber n).month = index + 1 ∧ (ofNumber n).day = day + 1 ∧
      (monthLengths (isLeap (ofNumber n).year))[index]? = some length ∧ day < length := by
  obtain ⟨index, day, length, walk, at_index, inside⟩ :=
    ofDayOfYear_inside 1 (dayOfYear_lt n)
  refine ⟨index, day, length, ?_, ?_, at_index, inside⟩
  · rw [ofNumber_month, walk, Nat.add_comm]
  · rw [ofNumber_day, walk]

@[simp] theorem valid_ofNumber (n : Int) : (ofNumber n).valid = true := by
  obtain ⟨index, day, length, month, hday, at_index, inside⟩ := ofNumber_inside n
  simp only [valid, month, hday, Nat.add_sub_cancel, at_index]
  simpa using Nat.succ_le_of_lt inside

/-- The month and the day of a valid date are found. -/
theorem length_of_valid {d : Date} (h : d.valid = true) :
    ∃ length, (monthLengths (isLeap d.year))[d.month - 1]? = some length ∧ d.day ≤ length := by
  rw [valid] at h
  split at h
  next length found =>
    simp only [Bool.and_eq_true, decide_eq_true_eq] at h
    exact ⟨length, found, h.2⟩
  next => contradiction

theorem month_le_of_valid {d : Date} (h : d.valid = true) : d.month ≤ 12 := by
  obtain ⟨length, found, -⟩ := length_of_valid h
  obtain ⟨bound, -⟩ := List.getElem?_eq_some_iff.mp found
  have : (monthLengths (isLeap d.year)).length = 12 := rfl
  omega

theorem day_le_of_valid {d : Date} (h : d.valid = true) : d.day ≤ 31 := by
  obtain ⟨length, found, inside⟩ := length_of_valid h
  have bounded : ∀ leap, ∀ l ∈ monthLengths leap, l ≤ 31 := by decide
  have := bounded _ length (List.mem_of_getElem? found)
  omega

/-! ### Dates from their parts -/

/-- A day inside a month is a day of the year. -/
theorem daysOf_take_add_lt {lengths : List Nat} {index length day : Nat}
    (found : lengths[index]? = some length) (inside : day < length) :
    daysOf (lengths.take index) + day < daysOf lengths := by
  induction lengths generalizing index with
  | nil => cases found
  | cons first lengths ih =>
      cases index with
      | zero =>
          obtain rfl : first = length := by simpa using found
          rw [List.take_zero, daysOf_nil, daysOf_cons]
          omega
      | succ index =>
          have rest := ih (by simpa using found)
          rw [List.take_succ_cons, daysOf_cons, daysOf_cons]
          omega

/-- The walk to a day inside a month ends there. -/
theorem ofDayOfYear_daysOf {lengths : List Nat} (month : Nat) {index length day : Nat}
    (found : lengths[index]? = some length) (inside : day < length) :
    ofDayOfYear lengths month (daysOf (lengths.take index) + day) = (month + index, day + 1) := by
  induction lengths generalizing month index with
  | nil => cases found
  | cons first lengths ih =>
      cases index with
      | zero =>
          obtain rfl : first = length := by simpa using found
          rw [List.take_zero, daysOf_nil, Nat.zero_add, ofDayOfYear, if_pos inside]
          rfl
      | succ index =>
          have rest := ih (month + 1) (by simpa using found)
          have behind : ¬ first + daysOf (lengths.take index) + day < first := by omega
          have left : first + daysOf (lengths.take index) + day - first =
              daysOf (lengths.take index) + day := by omega
          rw [List.take_succ_cons, daysOf_cons, ofDayOfYear, if_neg behind, left, rest,
            Nat.add_right_comm, Nat.add_assoc]

/-- The number of a date, with month and day counted from zero. -/
theorem number_mk (year : Int) (index day : Nat) : number ⟨year, index + 1, day + 1⟩ =
    daysBeforeYear year + daysOf ((monthLengths (isLeap year)).take index) + day - epochDay := by
  rw [number, Nat.add_sub_cancel]
  dsimp only
  omega

theorem valid_mk {year : Int} {index day length : Nat}
    (found : (monthLengths (isLeap year))[index]? = some length) (inside : day < length) :
    valid ⟨year, index + 1, day + 1⟩ = true := by
  simp only [valid, Nat.add_sub_cancel, found]
  simpa using Nat.succ_le_of_lt inside

/-- A valid date is a day inside a month. -/
theorem exists_of_valid {d : Date} (h : d.valid = true) :
    ∃ year index day length, d = ⟨year, index + 1, day + 1⟩ ∧
      (monthLengths (isLeap year))[index]? = some length ∧ day < length := by
  obtain ⟨year, month, day⟩ := d
  rw [valid] at h
  split at h
  next length found =>
    simp only [Bool.and_eq_true, decide_eq_true_eq] at h
    refine ⟨year, month - 1, day - 1, length, ?_, found, by omega⟩
    rw [Nat.sub_add_cancel h.1.1, Nat.sub_add_cancel h.1.2]
  next => contradiction

/-- A valid date lies in its year. -/
theorem number_bounds {d : Date} (h : d.valid = true) :
    daysBeforeYear d.year ≤ d.number + epochDay ∧
      d.number + epochDay < daysBeforeYear (d.year + 1) := by
  obtain ⟨year, index, day, length, rfl, found, inside⟩ := exists_of_valid h
  have early := daysOf_take_add_lt found inside
  have next := daysBeforeYear_succ year
  rw [daysOf_monthLengths] at early
  rw [number_mk]
  dsimp only
  by_cases leap : isLeap year = true
  · rw [if_pos leap] at early next
    omega
  · rw [if_neg leap] at early next
    omega

@[simp] theorem ofNumber_number {d : Date} (h : d.valid = true) : ofNumber d.number = d := by
  obtain ⟨low, high⟩ := number_bounds h
  have same : yearOf (d.number + epochDay) = d.year :=
    Int.le_antisymm (Int.le_of_lt_add_one (yearOf_lt high)) (le_yearOf low)
  obtain ⟨year, index, day, length, rfl, found, inside⟩ := exists_of_valid h
  generalize known : number ⟨year, index + 1, day + 1⟩ = n at low same ⊢
  dsimp only at low same
  have distance : dayOfYear n = daysOf ((monthLengths (isLeap year)).take index) + day := by
    rw [dayOfYear, same, ← known, number_mk]
    omega
  have parts : ofNumber n = ⟨(ofNumber n).year, (ofNumber n).month, (ofNumber n).day⟩ := rfl
  rw [parts, ofNumber_year, ofNumber_month, ofNumber_day, same, distance,
    ofDayOfYear_daysOf 1 found inside, Nat.add_comm 1]

/-! ### The next date -/

/-- The date after a date: the next day of its month, else the first of the next month, else
the first of the next year. -/
def next (d : Date) : Date :=
  if d.day < ((monthLengths (isLeap d.year))[d.month - 1]?).getD 31 then
    { d with day := d.day + 1 }
  else if d.month < 12 then ⟨d.year, d.month + 1, 1⟩
  else ⟨d.year + 1, 1, 1⟩

example : next ⟨2024, 2, 28⟩ = ⟨2024, 2, 29⟩ ∧ next ⟨2024, 2, 29⟩ = ⟨2024, 3, 1⟩ := by decide

theorem daysOf_take_succ {lengths : List Nat} {index length : Nat}
    (found : lengths[index]? = some length) :
    daysOf (lengths.take (index + 1)) = daysOf (lengths.take index) + length := by
  induction lengths generalizing index with
  | nil => cases found
  | cons first lengths ih =>
      cases index with
      | zero =>
          obtain rfl : first = length := by simpa using found
          simp
      | succ index =>
          have rest := ih (by simpa using found)
          rw [List.take_succ_cons, List.take_succ_cons, daysOf_cons, daysOf_cons, rest,
            Nat.add_assoc]

/-- Every month has a first day. -/
theorem valid_first (year : Int) {index : Nat} (h : index < 12) :
    valid ⟨year, index + 1, 1⟩ = true := by
  have found := List.getElem?_eq_getElem (l := monthLengths (isLeap year)) (i := index) h
  have days : ∀ leap, ∀ length ∈ monthLengths leap, 0 < length := by decide
  exact valid_mk found (days _ _ (List.getElem_mem h))

/-- The next date exists and has the next number. -/
theorem next_spec {d : Date} (h : d.valid = true) :
    d.next.valid = true ∧ d.next.number = d.number + 1 := by
  obtain ⟨year, index, day, length, rfl, found, inside⟩ := exists_of_valid h
  have months : index < 12 := (List.getElem?_eq_some_iff.mp found).1
  have whole := daysOf_take_succ found
  rw [number_mk, next]
  dsimp only
  rw [Nat.add_sub_cancel, found, Option.getD_some]
  split
  next more =>
    refine ⟨valid_mk found more, ?_⟩
    rw [number_mk]
    omega
  next last =>
    split
    next more =>
      refine ⟨valid_first year more, ?_⟩
      rw [number_mk year (index + 1) 0, whole]
      omega
    next last' =>
      have end_of_year : index + 1 = 12 := by omega
      have all : daysOf ((monthLengths (isLeap year)).take (index + 1)) =
          daysOf (monthLengths (isLeap year)) := by
        rw [end_of_year, List.take_of_length_le (Nat.le_refl 12)]
      refine ⟨valid_first (year + 1) (by decide), ?_⟩
      rw [number_mk (year + 1) 0 0, List.take_zero, daysOf_nil, daysBeforeYear_succ]
      rw [daysOf_monthLengths] at all
      by_cases leap : isLeap year = true
      · rw [if_pos leap] at all ⊢
        omega
      · rw [if_neg leap] at all ⊢
        omega

end PvrBackend.Calendar.Date
