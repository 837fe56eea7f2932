import PvrBackend.Decimal.Shortest
import PvrBackend.Proofs.Decimal.Rounding

/-!
# Shortest decimals read back

The shortest decimal of a magnitude other than zero exists, has few digits, and exceeds the
magnitude by half a unit in the last place at most. A grid that is finer than a quarter of
this unit has a point that reads back, so the first grid with a hit is not much finer
than that.

Reading rounds twice, once for the digits and once for the power of ten, so it need not give
the same number again. It always gives some number: only next to the greatest number could
the roundings go too far, and `exists_ofDecimal?_shortest` says that they do not even there.
-/

namespace PvrBackend.Decimal.Magnitude

/-! ### Powers as quotients -/

theorem ratio_spec {b : ℕ} (pos : 0 < b) (e : ℤ) :
    let ratio := if 0 ≤ e then (Nat.pow b e.toNat, 1) else (1, Nat.pow b (-e).toNat)
    0 < ratio.1 ∧ 0 < ratio.2 ∧ (ratio.1 : ℚ) / ratio.2 = (b : ℚ) ^ e := by
  dsimp only
  split
  next nonneg =>
    refine ⟨Nat.pow_pos pos, one_pos, ?_⟩
    rw [zpow_eq_natPow b nonneg, Nat.cast_one, div_one]
  next negative =>
    refine ⟨one_pos, Nat.pow_pos pos, ?_⟩
    rw [zpow_eq_inv_natPow b negative, Nat.cast_one, one_div]

theorem binaryRatio_spec (e : ℤ) :
    0 < (binaryRatio e).1 ∧ 0 < (binaryRatio e).2 ∧
      ((binaryRatio e).1 : ℚ) / (binaryRatio e).2 = 2 ^ e := by
  exact_mod_cast ratio_spec two_pos e

theorem decimalRatio_spec (k : ℤ) :
    0 < (decimalRatio k).1 ∧ 0 < (decimalRatio k).2 ∧
      ((decimalRatio k).1 : ℚ) / (decimalRatio k).2 = 10 ^ k := by
  exact_mod_cast ratio_spec (b := 10) (by decide) k

/-! ### Hits on a grid -/

variable {a : Magnitude} {k : ℤ} {c : ℕ}

/-- Whether a point of the grid of `10 ^ k` lies between the borders of a magnitude: the
midpoints to its neighbours, of which the lower one is nearer at a power of two. -/
def readsBack (a : Magnitude) (k : ℤ) (c : ℕ) : Bool :=
  let unit := (binaryRatio (a.exponent - 2)).1
  let tenth := (decimalRatio k).2
  let gap := if a.mantissa = 0x10000000000000 ∧ -1074 < a.exponent then 1 else 2
  let low := (4 * a.mantissa - gap) * unit * tenth
  let high := (4 * a.mantissa + 2) * unit * tenth
  let step := (decimalRatio k).1 * (binaryRatio (a.exponent - 2)).2
  if a.mantissa % 2 = 0 then low ≤ c * step && c * step ≤ high
  else low < c * step && c * step < high

/-- Of two neighbours the one that is accepted, the nearer one if both are. -/
def pick (accepted : ℕ → Bool) (down below above : ℕ) : Option ℕ :=
  match accepted down, accepted (down + 1) with
  | true, false => some down
  | false, true => some (down + 1)
  | false, false => none
  | true, true =>
    if below < above then some down
    else if above < below then some (down + 1)
    else some (down + down % 2)

theorem accepted_of_pick {accepted : ℕ → Bool} {down below above : ℕ}
    (picked : pick accepted down below above = some c) : accepted c = true := by
  rw [pick] at picked
  split at picked
  next here _ => exact Option.some.inj picked ▸ here
  next _ there => exact Option.some.inj picked ▸ there
  next => cases picked
  next here there =>
    split at picked
    · exact Option.some.inj picked ▸ here
    · split at picked
      · exact Option.some.inj picked ▸ there
      · obtain rfl := Option.some.inj picked
        rcases Nat.mod_two_eq_zero_or_one down with even | odd
        · rw [even]
          exact here
        · rw [odd]
          exact there

theorem exists_pick {accepted : ℕ → Bool} {down : ℕ} (below above : ℕ)
    (there : accepted (down + 1) = true) : ∃ c, pick accepted down below above = some c := by
  rw [pick, there]
  cases accepted down with
  | false => exact ⟨_, rfl⟩
  | true =>
      dsimp only
      split
      · exact ⟨_, rfl⟩
      · split <;> exact ⟨_, rfl⟩

/-- The two points next to the exact value are looked at. -/
theorem onGrid_eq (a : Magnitude) (k : ℤ) : ∃ below above,
    a.onGrid k = pick (a.readsBack k) (4 * a.mantissa * (binaryRatio (a.exponent - 2)).1 *
      (decimalRatio k).2 / ((decimalRatio k).1 * (binaryRatio (a.exponent - 2)).2)) below above :=
  ⟨_, _, rfl⟩

/-- Comparing a decimal with the border of a magnitude, without denominators. -/
theorem le_border_iff (c m unit ten : ℕ) {part tenth : ℕ} (part_pos : 0 < part)
    (tenth_pos : 0 < tenth) :
    (c : ℚ) * (ten / tenth) ≤ m * (unit / part) ↔ c * (ten * part) ≤ m * unit * tenth := by
  have part_pos' : (0 : ℚ) < part := by exact_mod_cast part_pos
  have tenth_pos' : (0 : ℚ) < tenth := by exact_mod_cast tenth_pos
  rw [← mul_div_assoc, ← mul_div_assoc, div_le_div_iff₀ tenth_pos' part_pos', mul_assoc]
  exact_mod_cast Iff.rfl

/-- A point that reads back is positive and no more than half a unit too large. -/
theorem of_onGrid_eq_some (positive : 0 < a.mantissa) (hit : a.onGrid k = some c) :
    0 < c ∧ (c : ℚ) * 10 ^ k ≤ (4 * a.mantissa + 2 : ℕ) * 2 ^ (a.exponent - 2) := by
  obtain ⟨unit_pos, part_pos, binary⟩ := binaryRatio_spec (a.exponent - 2)
  obtain ⟨-, tenth_pos, decimal⟩ := decimalRatio_spec k
  obtain ⟨below, above, grid⟩ := onGrid_eq a k
  have inside := accepted_of_pick (grid.symm.trans hit)
  rw [readsBack] at inside
  rw [← binary, ← decimal, le_border_iff _ _ _ _ part_pos tenth_pos]
  generalize (binaryRatio (a.exponent - 2)).1 = unit at *
  generalize (decimalRatio k).2 = tenth at *
  generalize (decimalRatio k).1 * (binaryRatio (a.exponent - 2)).2 = step at *
  have gap_le : (if a.mantissa = 0x10000000000000 ∧ -1074 < a.exponent then 1 else 2) ≤ 2 := by
    split <;> omega
  generalize (if a.mantissa = 0x10000000000000 ∧ -1074 < a.exponent then 1 else 2) = gap at *
  have low_pos : 0 < (4 * a.mantissa - gap) * unit * tenth :=
    Nat.mul_pos (Nat.mul_pos (by omega) unit_pos) tenth_pos
  have borders : (4 * a.mantissa - gap) * unit * tenth ≤ c * step ∧
      c * step ≤ (4 * a.mantissa + 2) * unit * tenth := by
    split at inside <;> simp only [Bool.and_eq_true, decide_eq_true_eq] at inside
    · exact inside
    · exact ⟨inside.1.le, inside.2.le⟩
  refine ⟨Nat.pos_of_ne_zero ?_, borders.2⟩
  rintro rfl
  omega

/-- A grid as fine as a quarter of the last unit has a point that reads back: the first
one above the exact value. -/
theorem exists_onGrid (fine : (10 : ℚ) ^ k ≤ 2 ^ (a.exponent - 2)) :
    ∃ c, a.onGrid k = some c := by
  obtain ⟨unit_pos, part_pos, binary⟩ := binaryRatio_spec (a.exponent - 2)
  obtain ⟨ten_pos, tenth_pos, decimal⟩ := decimalRatio_spec k
  obtain ⟨below, above, grid⟩ := onGrid_eq a k
  have step_le : (decimalRatio k).1 * (binaryRatio (a.exponent - 2)).2 ≤
      (binaryRatio (a.exponent - 2)).1 * (decimalRatio k).2 := by
    rw [← binary, ← decimal] at fine
    simpa using (le_border_iff 1 1 _ _ part_pos tenth_pos).mp (by simpa using fine)
  have step_pos := Nat.mul_pos ten_pos part_pos
  have unit_pos' := Nat.mul_pos unit_pos tenth_pos
  rw [grid]
  refine exists_pick _ _ ?_
  simp only [readsBack, mul_assoc]
  generalize (binaryRatio (a.exponent - 2)).1 * (decimalRatio k).2 = unit at *
  generalize (decimalRatio k).1 * (binaryRatio (a.exponent - 2)).2 = step at *
  generalize (if a.mantissa = 0x10000000000000 ∧ -1074 < a.exponent then 1 else 2) = gap
  have low : (4 * a.mantissa - gap) * unit ≤ 4 * (a.mantissa * unit) := by
    rw [← mul_assoc]
    exact Nat.mul_le_mul_right _ (Nat.sub_le _ _)
  have high : (4 * a.mantissa + 2) * unit = 4 * (a.mantissa * unit) + 2 * unit := by ring
  have next : 4 * (a.mantissa * unit) < (4 * (a.mantissa * unit) / step + 1) * step := by
    rw [mul_comm _ step]
    exact Nat.lt_mul_div_succ _ step_pos
  have down := Nat.div_mul_le_self (4 * (a.mantissa * unit)) step
  rw [add_one_mul] at next ⊢
  split <;> simp only [Bool.and_eq_true, decide_eq_true_eq] <;> omega

/-! ### The first grid with a hit -/

/-- The first hit is on the first grid, or on one whose coarser neighbour is not yet fine. -/
theorem firstGrid_spec {n : ℕ} (fine : (10 : ℚ) ^ (k - n) ≤ 2 ^ (a.exponent - 2)) :
    ∃ c j, a.firstGrid (n + 1) k = ⟨c, j⟩ ∧ a.onGrid j = some c ∧ k - n ≤ j ∧ j ≤ k ∧
      (j = k ∨ (2 : ℚ) ^ (a.exponent - 2) < 10 ^ (j + 1)) := by
  induction n generalizing k with
  | zero =>
      rw [Nat.cast_zero, sub_zero] at fine
      obtain ⟨c, hit⟩ := exists_onGrid fine
      refine ⟨c, k, ?_, hit, by simp, le_rfl, .inl rfl⟩
      rw [firstGrid, hit]
  | succ n ih =>
      rw [firstGrid]
      cases hit : a.onGrid k with
      | some c => exact ⟨c, k, rfl, hit, by omega, le_rfl, .inl rfl⟩
      | none =>
          have coarse : (2 : ℚ) ^ (a.exponent - 2) < 10 ^ k := by
            refine not_le.mp fun fine => ?_
            obtain ⟨c, hit'⟩ := exists_onGrid fine
            cases hit.symm.trans hit'
          have shifted : k - 1 - (n : ℤ) = k - ((n + 1 : ℕ) : ℤ) := by
            push_cast
            ring
          obtain ⟨c, j, result, hit', least, most, first⟩ := ih (k := k - 1) (by rwa [shifted])
          refine ⟨c, j, result, hit', by omega, by omega, .inr ?_⟩
          rcases first with rfl | coarser
          · rwa [sub_add_cancel]
          · exact coarser

/-! ### Powers of two and of ten -/

/-- From a power of one base below a power of another follow all powers with at least
their ratio. -/
theorem pow_le_pow_of_ratio {x y n m b t : ℕ} (base : x ^ n ≤ y ^ m) (pos : 0 < n) (one_le : 1 ≤ y)
    (ratio : m * b ≤ n * t) : x ^ b ≤ y ^ t := by
  refine le_of_pow_le_pow_left₀ pos.ne' (Nat.zero_le _) ?_
  calc (x ^ b) ^ n = (x ^ n) ^ b := by rw [← pow_mul, ← pow_mul, mul_comm]
    _ ≤ (y ^ m) ^ b := Nat.pow_le_pow_left base b
    _ = y ^ (m * b) := (pow_mul _ _ _).symm
    _ ≤ y ^ (n * t) := Nat.pow_le_pow_right one_le ratio
    _ = (y ^ t) ^ n := by rw [← pow_mul, mul_comm]

/-- The decimal logarithm of two lies between `59 / 196` and `28 / 93`. -/
theorem two_zpow_le_ten_zpow {b t : ℤ} (up : 28 * b ≤ 93 * t) (down : 59 * b ≤ 196 * t) :
    (2 : ℚ) ^ b ≤ 10 ^ t := by
  by_cases nonneg : 0 ≤ b
  · obtain ⟨b, rfl⟩ := Int.eq_ofNat_of_zero_le nonneg
    obtain ⟨t, rfl⟩ := Int.eq_ofNat_of_zero_le (by omega : 0 ≤ t)
    rw [zpow_natCast, zpow_natCast]
    exact_mod_cast pow_le_pow_of_ratio (by decide : 2 ^ 93 ≤ 10 ^ 28) (by decide) (by decide)
      (by omega : 28 * b ≤ 93 * t)
  · by_cases one_le : 0 ≤ t
    · exact (zpow_le_one_of_nonpos₀ one_le_two (by omega)).trans (one_le_zpow₀ (by norm_num) one_le)
    · obtain ⟨b', eq⟩ := Int.eq_ofNat_of_zero_le (by omega : 0 ≤ -b)
      obtain ⟨t', eq'⟩ := Int.eq_ofNat_of_zero_le (by omega : 0 ≤ -t)
      rw [← neg_neg b, ← neg_neg t, eq, eq', zpow_neg, zpow_neg, zpow_natCast, zpow_natCast]
      refine inv_anti₀ (by positivity) ?_
      exact_mod_cast pow_le_pow_of_ratio (by decide : 10 ^ 59 ≤ 2 ^ 196) (by decide) (by decide)
        (by omega : 196 * t' ≤ 59 * b')

theorem ten_zpow_le_two_zpow {b t : ℤ} (up : 93 * t ≤ 28 * b) (down : 196 * t ≤ 59 * b) :
    (10 : ℚ) ^ t ≤ 2 ^ b := by
  have reversed : (2 : ℚ) ^ (-b) ≤ 10 ^ (-t) := two_zpow_le_ten_zpow (by omega) (by omega)
  rw [zpow_neg, zpow_neg] at reversed
  exact (inv_le_inv₀ (two_zpow_pos b) (by positivity)).mp reversed

/-! ### The shortest decimal -/

/-- The shortest decimal has a digit, fits 64 bits, and is half a unit too large at most. -/
theorem shortest_spec (canonical : a.Canonical) (positive : 0 < a.mantissa) :
    0 < a.shortest.digits ∧ a.shortest.digits < 2 ^ 60 ∧
      -400 ≤ a.shortest.power ∧ a.shortest.power ≤ 400 ∧
      (a.shortest.digits : ℚ) * 10 ^ a.shortest.power ≤
        (4 * a.mantissa + 2 : ℕ) * 2 ^ (a.exponent - 2) := by
  have bits : a.mantissa.log2 ≤ 52 :=
    Nat.lt_succ_iff.mp ((Nat.log2_lt positive.ne').mpr canonical.width)
  have least := canonical.least
  have greatest := canonical.greatest
  rw [shortest, if_neg positive.ne']
  dsimp only
  rw [Int.fdiv_eq_ediv_of_nonneg _ (by decide)]
  set top : ℤ := ((a.mantissa.log2 + a.exponent + 1 : ℤ) * 30103) / 100000 + 1 with top_eq
  have fine : (10 : ℚ) ^ (top - (20 : ℕ)) ≤ 2 ^ (a.exponent - 2) :=
    ten_zpow_le_two_zpow (by omega) (by omega)
  obtain ⟨c, j, result, hit, low, high, first⟩ := firstGrid_spec fine
  rw [result]
  obtain ⟨digit, border⟩ := of_onGrid_eq_some positive hit
  refine ⟨digit, ?_, by dsimp only; omega, by dsimp only; omega, border⟩
  have coarse : (2 : ℚ) ^ (a.exponent - 2) ≤ 10 ^ (j + 1) := by
    rcases first with rfl | coarser
    · exact two_zpow_le_ten_zpow (by omega) (by omega)
    · exact coarser.le
  rw [zpow_add_one₀ (by norm_num)] at coarse
  have ten : (0 : ℚ) < 10 ^ j := by positivity
  have bound : (c : ℚ) * 10 ^ j ≤ ((4 * a.mantissa + 2) * 10 : ℕ) * 10 ^ j := by
    calc (c : ℚ) * 10 ^ j ≤ (4 * a.mantissa + 2 : ℕ) * 2 ^ (a.exponent - 2) := border
      _ ≤ (4 * a.mantissa + 2 : ℕ) * (10 ^ j * 10) :=
          mul_le_mul_of_nonneg_left coarse (Nat.cast_nonneg _)
      _ = ((4 * a.mantissa + 2) * 10 : ℕ) * 10 ^ j := by
          push_cast
          ring
  have digits : c ≤ (4 * a.mantissa + 2) * 10 := by
    exact_mod_cast le_of_mul_le_mul_right bound ten
  have width := canonical.width
  dsimp only
  omega

/-! ### Reading back -/

/-- The magnitude that a decimal is read as, unless it is too large. -/
def ofDecimal? (digits : ℕ) (power : ℤ) : Option Magnitude :=
  (nearest? digits 1 0).bind (·.scale? power)

theorem canonical_of_ofDecimal? {digits : ℕ} {power : ℤ} {r : Magnitude}
    (read : ofDecimal? digits power = some r) : r.Canonical := by
  obtain ⟨start, rounding, scaling⟩ := Option.bind_eq_some_iff.mp read
  exact canonical_of_scale? (canonical_of_nearest? one_pos rounding) scaling

/-- Digits alone are read with one rounding. -/
theorem exists_start {digits : ℕ} (pos : 0 < digits) (fits : digits ≤ 2 ^ 64) :
    ∃ start, nearest? digits 1 0 = some start ∧
      start.toRat ≤ digits * (1 + 2 ^ (-53 : ℤ)) := by
  have exact : (digits : ℚ) / (1 : ℕ) * 2 ^ (0 : ℤ) = digits := by
    rw [Nat.cast_one, div_one, zpow_zero, mul_one]
  have le : (digits : ℚ) ≤ greatest :=
    le_greatest (fits.trans (by decide +kernel))
  obtain ⟨start, rounding, rounded⟩ := exists_nearest? digits one_pos 0 (exact.trans_le le)
  exact ⟨start, rounding, (exact ▸ rounded).le le_rfl (by exact_mod_cast pos)⟩

/-- A decimal without a positive power is never too large. -/
theorem exists_ofDecimal?_of_nonpos {digits : ℕ} {power : ℤ} (fits : digits ≤ 2 ^ 64)
    (nonpos : power ≤ 0) : ∃ r, ofDecimal? digits power = some r := by
  rcases Nat.eq_zero_or_pos digits with rfl | pos
  · obtain ⟨r, scaling⟩ := exists_scale?_of_nonpos (a := zero) (by norm_num [toRat, zero]) nonpos
    exact ⟨r, scaling⟩
  · obtain ⟨start, rounding, le⟩ := exists_start pos fits
    have fits' : (digits : ℚ) ≤ 2 ^ 64 := by exact_mod_cast fits
    have small : start.toRat ≤ 2 ^ 70 :=
      (le.trans (mul_le_mul_of_nonneg_right fits' (by positivity))).trans (by norm_num)
    obtain ⟨r, scaling⟩ := exists_scale?_of_nonpos small nonpos
    exact ⟨r, by rw [ofDecimal?, rounding]; exact scaling⟩

/-- A decimal is not too large if two roundings of its value stay below the greatest
number. -/
theorem exists_ofDecimal?_of_le {digits k : ℕ} (pos : 0 < digits) (fits : digits ≤ 2 ^ 64)
    (power : k ≤ 308)
    (le : (digits : ℚ) * 10 ^ k * ((1 + 2 ^ (-53 : ℤ)) * (1 + 2 ^ (-53 : ℤ))) ≤ greatest) :
    ∃ r, ofDecimal? digits k = some r := by
  obtain ⟨start, rounding, start_le⟩ := exists_start pos fits
  have product : start.toRat * (10 ^ k * (1 + 2 ^ (-53 : ℤ))) ≤ greatest := by
    refine (mul_le_mul_of_nonneg_right start_le (by positivity)).trans (le_of_eq_of_le ?_ le)
    ring
  obtain ⟨r, scaling⟩ := exists_scale?_of_le power product
  exact ⟨r, by rw [ofDecimal?, rounding]; exact scaling⟩

theorem scale?_natCast (a : Magnitude) {k : ℕ} (power : k ≤ 308) :
    a.scale? k = a.times? (tenPower k) := by
  rw [scale?, if_neg (by omega), if_pos (by omega), Int.toNat_natCast]

/-- The three greatest numbers leave no room for two roundings, but are read back. -/
theorem exists_ofDecimal?_shortest_top {i : ℕ} (lt : i < 3) :
    ∃ r, ofDecimal? (⟨0x1FFFFFFFFFFFFF - i, 971⟩ : Magnitude).shortest.digits
      (⟨0x1FFFFFFFFFFFFF - i, 971⟩ : Magnitude).shortest.power = some r := by
  have power : ∀ i < 3, (⟨0x1FFFFFFFFFFFFF - i, 971⟩ : Magnitude).shortest.power = (292 : ℕ) := by
    decide +kernel
  have read : ∀ i < 3,
      ((nearest? (⟨0x1FFFFFFFFFFFFF - i, 971⟩ : Magnitude).shortest.digits 1 0).bind
        (·.times? (tenPower 292))).isSome = true := by
    decide +kernel
  have scaling : (fun a : Magnitude => a.scale? (292 : ℕ)) = (·.times? (tenPower 292)) :=
    funext fun a => scale?_natCast a (by decide)
  rw [ofDecimal?, power i lt, scaling]
  exact Option.isSome_iff_exists.mp (read i lt)

/-- Among the other numbers even half a unit more leaves room for two roundings. -/
theorem border_le (canonical : a.Canonical)
    (other : ¬ (a.exponent = 971 ∧ 0x1FFFFFFFFFFFFD ≤ a.mantissa)) :
    ((4 * a.mantissa + 2 : ℕ) : ℚ) * 2 ^ (a.exponent - 2) ≤ (2 ^ 55 - 14) * 2 ^ (969 : ℤ) := by
  have width := canonical.width
  by_cases top : a.exponent = 971
  · have mantissa : 4 * a.mantissa + 2 ≤ 2 ^ 55 - 14 := by
      have : a.mantissa < 0x1FFFFFFFFFFFFD := by
        by_contra large
        exact other ⟨top, not_lt.mp large⟩
      omega
    rw [top]
    refine mul_le_mul_of_nonneg_right ?_ (two_zpow_pos _).le
    have mantissa' : ((4 * a.mantissa + 2 : ℕ) : ℚ) ≤ (2 ^ 55 - 14 : ℕ) := by
      exact_mod_cast mantissa
    exact mantissa'.trans (by norm_num)
  · have exponent : a.exponent - 2 ≤ 968 := by
      have := canonical.greatest
      omega
    have mantissa : ((4 * a.mantissa + 2 : ℕ) : ℚ) ≤ (2 ^ 55 : ℕ) := by
      exact_mod_cast (by omega : 4 * a.mantissa + 2 ≤ 2 ^ 55)
    calc ((4 * a.mantissa + 2 : ℕ) : ℚ) * 2 ^ (a.exponent - 2)
        ≤ (2 ^ 55 : ℕ) * 2 ^ (968 : ℤ) :=
          mul_le_mul mantissa (zpow_le_zpow_right₀ one_le_two exponent) (two_zpow_pos _).le
            (Nat.cast_nonneg _)
      _ = 2 ^ 54 * 2 ^ (968 + 1 : ℤ) := by
          rw [two_zpow_add, zpow_one]
          generalize (2 : ℚ) ^ (968 : ℤ) = unit
          push_cast
          ring
      _ ≤ (2 ^ 55 - 14) * 2 ^ (969 : ℤ) :=
          mul_le_mul_of_nonneg_right (by norm_num) (two_zpow_pos _).le

/-- The shortest decimal of a number is read as some number again. -/
theorem exists_ofDecimal?_shortest (canonical : a.Canonical) :
    ∃ r, ofDecimal? a.shortest.digits a.shortest.power = some r := by
  rcases Nat.eq_zero_or_pos a.mantissa with none | positive
  · rw [shortest, if_pos none]
    exact exists_ofDecimal?_of_nonpos (by decide) le_rfl
  by_cases top : a.exponent = 971 ∧ 0x1FFFFFFFFFFFFD ≤ a.mantissa
  · have width := canonical.width
    have same : a = ⟨0x1FFFFFFFFFFFFF - (0x1FFFFFFFFFFFFF - a.mantissa), 971⟩ := by
      rw [← top.1, Nat.sub_sub_self (by omega)]
    rw [same]
    exact exists_ofDecimal?_shortest_top (by omega)
  obtain ⟨digit, digits, -, -, border⟩ := shortest_spec canonical positive
  have fits : a.shortest.digits ≤ 2 ^ 64 := by omega
  rcases le_or_gt a.shortest.power 0 with nonpos | large
  · exact exists_ofDecimal?_of_nonpos fits nonpos
  obtain ⟨k, power⟩ := Int.eq_ofNat_of_zero_le large.le
  rw [power, zpow_natCast] at border
  rw [power]
  have bound := border.trans (border_le canonical top)
  have power_le : k ≤ 308 := by
    by_contra huge
    have value : (10 : ℚ) ^ 309 ≤ (2 ^ 55 - 14) * 2 ^ (969 : ℤ) :=
      calc (10 : ℚ) ^ 309 ≤ 10 ^ k := pow_le_pow_right₀ (by norm_num) (by omega)
        _ ≤ a.shortest.digits * 10 ^ k :=
            le_mul_of_one_le_left (by positivity) (by exact_mod_cast digit)
        _ ≤ (2 ^ 55 - 14) * 2 ^ (969 : ℤ) := bound
    rw [zpow_ofNat, show (2 : ℚ) ^ 55 - 14 = 0x7FFFFFFFFFFFF2 by norm_num] at value
    have larger : ¬ 10 ^ 309 ≤ 0x7FFFFFFFFFFFF2 * 2 ^ 969 := by decide +kernel
    exact larger (by exact_mod_cast value)
  refine exists_ofDecimal?_of_le digit fits power_le ?_
  calc (a.shortest.digits : ℚ) * 10 ^ k * ((1 + 2 ^ (-53 : ℤ)) * (1 + 2 ^ (-53 : ℤ)))
      ≤ (2 ^ 55 - 14) * 2 ^ (969 : ℤ) * ((1 + 2 ^ (-53 : ℤ)) * (1 + 2 ^ (-53 : ℤ))) :=
        mul_le_mul_of_nonneg_right bound (by positivity)
    _ = (2 ^ 55 - 14) * ((1 + 2 ^ (-53 : ℤ)) * (1 + 2 ^ (-53 : ℤ))) * 2 ^ (969 : ℤ) :=
        mul_right_comm _ _ _
    _ ≤ 0x1FFFFFFFFFFFFF * 4 * 2 ^ (969 : ℤ) :=
        mul_le_mul_of_nonneg_right (by norm_num) (two_zpow_pos _).le
    _ = greatest := by
        rw [greatest, show (971 : ℤ) = 2 + 969 by rfl, two_zpow_add, mul_assoc]
        norm_num

end PvrBackend.Decimal.Magnitude
