import Mathlib.Algebra.Order.Field.Power
import Mathlib.Algebra.Order.Field.Rat
import Mathlib.Tactic.FieldSimp
import Mathlib.Tactic.Linarith
import Mathlib.Tactic.NormNum
import Mathlib.Tactic.Positivity
import Mathlib.Tactic.Ring
import PvrBackend.Decimal.Binary64

/-!
# Rounding to binary64 numbers

A magnitude stands for a rational number, and every operation on magnitudes rounds an
exact rational. `Rounded` says what rounding does when there is no greatest exponent:
the result is canonical and within half a unit in the last place, which is small beside
the exact value or, among the least numbers, small at all. An operation fails only where
the rounded value has too large an exponent.

From this come the two facts that reading decimals needs: whatever is read is canonical,
and scaling by a power of ten does not fail as long as the value, with room for two
roundings, is no larger than the greatest number.
-/

namespace PvrBackend.Decimal

theorem zpow_eq_natPow (b : ℕ) {e : ℤ} (nonneg : 0 ≤ e) :
    (b : ℚ) ^ e = ((Nat.pow b e.toNat : ℕ) : ℚ) := by
  obtain ⟨n, rfl⟩ := Int.eq_ofNat_of_zero_le nonneg
  rw [Int.toNat_natCast, zpow_natCast, Nat.pow_eq, Nat.cast_pow]

theorem zpow_eq_inv_natPow (b : ℕ) {e : ℤ} (negative : ¬ 0 ≤ e) :
    (b : ℚ) ^ e = ((Nat.pow b (-e).toNat : ℕ) : ℚ)⁻¹ := by
  rw [← zpow_eq_natPow b (by omega : 0 ≤ -e), zpow_neg, inv_inv]

theorem two_zpow_pos (e : ℤ) : (0 : ℚ) < 2 ^ e := zpow_pos two_pos e

theorem two_zpow_add (d e : ℤ) : (2 : ℚ) ^ (d + e) = 2 ^ d * 2 ^ e := zpow_add₀ two_ne_zero d e

theorem half_two_zpow (e : ℤ) : 1 / 2 * (2 : ℚ) ^ e = 2 ^ (e - 1) := by
  rw [zpow_sub_one₀ two_ne_zero, one_div, mul_comm]

/-- A rounded quotient is within a half of the exact one. -/
theorem abs_roundDiv_sub_le (n : ℕ) {d : ℕ} (pos : 0 < d) :
    |(roundDiv n d : ℚ) - n / d| ≤ 1 / 2 := by
  obtain ⟨above, below⟩ := roundDiv_near n pos
  have pos' : (0 : ℚ) < d := by exact_mod_cast pos
  have above' : 2 * ((roundDiv n d : ℚ) * d) ≤ 2 * n + d := by exact_mod_cast above
  have below' : 2 * (n : ℚ) ≤ 2 * (roundDiv n d * d) + d := by exact_mod_cast below
  have exact : (n : ℚ) / d * d = n := div_mul_cancel₀ _ pos'.ne'
  rw [abs_le]
  constructor
  · refine le_of_mul_le_mul_right ?_ pos'
    rw [sub_mul, exact]
    linarith
  · refine le_of_mul_le_mul_right ?_ pos'
    rw [sub_mul, exact]
    linarith

namespace Magnitude

/-! ### The leading bit of a quotient -/

/-- A quotient is less than twice away from the quotient of the leading bits. -/
theorem div_bracket {num den : ℕ} (hn : num ≠ 0) (hd : den ≠ 0) :
    (2 : ℚ) ^ ((num.log2 : ℤ) - den.log2 - 1) ≤ num / den ∧
      (num : ℚ) / den < 2 ^ ((num.log2 : ℤ) - den.log2 + 1) := by
  have num_low : (2 : ℚ) ^ (num.log2 : ℤ) ≤ num := by exact_mod_cast Nat.log2_self_le hn
  have num_high : (num : ℚ) < 2 ^ ((num.log2 : ℤ) + 1) := by exact_mod_cast Nat.lt_log2_self
  have den_low : (2 : ℚ) ^ (den.log2 : ℤ) ≤ den := by exact_mod_cast Nat.log2_self_le hd
  have den_high : (den : ℚ) < 2 ^ ((den.log2 : ℤ) + 1) := by exact_mod_cast Nat.lt_log2_self
  have den_pos : (0 : ℚ) < den := by exact_mod_cast Nat.pos_of_ne_zero hd
  rw [le_div_iff₀ den_pos, div_lt_iff₀ den_pos]
  constructor
  · calc (2 : ℚ) ^ ((num.log2 : ℤ) - den.log2 - 1) * den
        ≤ 2 ^ ((num.log2 : ℤ) - den.log2 - 1) * 2 ^ ((den.log2 : ℤ) + 1) := by gcongr
      _ = 2 ^ (num.log2 : ℤ) := by rw [← two_zpow_add]; congr 1; ring
      _ ≤ num := num_low
  · calc (num : ℚ) < 2 ^ ((num.log2 : ℤ) + 1) := num_high
      _ = 2 ^ ((num.log2 : ℤ) - den.log2 + 1) * 2 ^ (den.log2 : ℤ) := by
          rw [← two_zpow_add]; congr 1; ring
      _ ≤ 2 ^ ((num.log2 : ℤ) - den.log2 + 1) * den := by gcongr

/-- Comparing a quotient with a power of two, without a division. -/
theorem div_lt_two_zpow_iff (num : ℕ) {den : ℕ} (hd : den ≠ 0) (e : ℤ) :
    (num : ℚ) / den < 2 ^ e ↔
      if 0 ≤ e then num < den * Nat.pow 2 e.toNat else num * Nat.pow 2 (-e).toNat < den := by
  have den_pos : (0 : ℚ) < den := by exact_mod_cast Nat.pos_of_ne_zero hd
  rw [div_lt_iff₀ den_pos]
  split
  next nonneg =>
    have power := zpow_eq_natPow 2 nonneg
    rw [Nat.cast_ofNat] at power
    rw [power, mul_comm]
    exact_mod_cast Iff.rfl
  next negative =>
    have power := zpow_eq_inv_natPow 2 negative
    have positive : (0 : ℚ) < ((Nat.pow 2 (-e).toNat : ℕ) : ℚ) := by
      exact_mod_cast Nat.pow_pos (by decide)
    rw [Nat.cast_ofNat] at power
    rw [power, ← div_eq_inv_mul, lt_div_iff₀ positive]
    exact_mod_cast Iff.rfl

/-- The position of the leading bit is the binary logarithm, rounded down. -/
theorem leadingBit_spec {num den : ℕ} (hn : num ≠ 0) (hd : den ≠ 0) :
    (2 : ℚ) ^ leadingBit num den ≤ num / den ∧
      (num : ℚ) / den < 2 ^ (leadingBit num den + 1) := by
  obtain ⟨low, high⟩ := div_bracket hn hd
  have compared := div_lt_two_zpow_iff num hd ((num.log2 : ℤ) - den.log2)
  rw [leadingBit]
  by_cases below : (num : ℚ) / den < 2 ^ ((num.log2 : ℤ) - den.log2)
  · rw [if_pos (by simpa [apply_ite] using compared.mp below), sub_add_cancel]
    exact ⟨low, below⟩
  · rw [if_neg (by simpa [apply_ite] using compared.not.mp below)]
    exact ⟨not_lt.mp below, high⟩

/-! ### One rounding -/

/-- The number that a magnitude stands for. -/
def toRat (a : Magnitude) : ℚ := a.mantissa * 2 ^ a.exponent

theorem toRat_nonneg (a : Magnitude) : 0 ≤ a.toRat :=
  mul_nonneg (Nat.cast_nonneg _) (two_zpow_pos _).le

/-- What a number is rounded to when the exponent may grow at will. -/
structure Rounded (x : ℚ) (r : Magnitude) : Prop where
  width : r.mantissa < 2 ^ 53
  least : -1074 ≤ r.exponent
  full : r.exponent = -1074 ∨ 2 ^ 52 ≤ r.mantissa
  near : |r.toRat - x| ≤ max (2 ^ (-1075 : ℤ)) (x * 2 ^ (-53 : ℤ))

/-- Rounding the mantissa is rounding the number, if the exponent fits it. A mantissa
that reaches 54 bits in this is a power of two and goes to the next exponent. -/
theorem rounded_of_near {x : ℚ} {m : ℕ} {e : ℤ} (least : -1074 ≤ e)
    (full : e = -1074 ∨ 2 ^ (e + 52) ≤ x) (fits : x < 2 ^ (e + 53))
    (near : |(m : ℚ) - x * 2 ^ (-e)| ≤ 1 / 2) :
    Rounded x (if m = 0x20000000000000 then ⟨0x10000000000000, e + 1⟩ else ⟨m, e⟩) := by
  have unit := two_zpow_pos e
  have cancel : (2 : ℚ) ^ (-e) * 2 ^ e = 1 := by rw [← two_zpow_add, neg_add_cancel, zpow_zero]
  have value : |(m : ℚ) * 2 ^ e - x| ≤ max (2 ^ (-1075 : ℤ)) (x * 2 ^ (-53 : ℤ)) := by
    have scaled : (m : ℚ) * 2 ^ e - x = ((m : ℚ) - x * 2 ^ (-e)) * 2 ^ e := by
      rw [sub_mul, mul_assoc x, cancel, mul_one]
    rw [scaled, abs_mul, abs_of_pos unit]
    have half : |(m : ℚ) - x * 2 ^ (-e)| * 2 ^ e ≤ 1 / 2 * 2 ^ e :=
      mul_le_mul_of_nonneg_right near unit.le
    rw [half_two_zpow] at half
    rcases full with rfl | normal
    · exact half.trans (le_max_left _ _)
    · rw [show e - 1 = e + 52 + -53 by ring, two_zpow_add] at half
      exact (half.trans (mul_le_mul_of_nonneg_right normal (two_zpow_pos _).le)).trans
        (le_max_right _ _)
  have at_most : x * 2 ^ (-e) < 2 ^ 53 := by
    have scaled := mul_lt_mul_of_pos_right fits (two_zpow_pos (-e))
    rw [← two_zpow_add, show e + 53 + -e = 53 by ring] at scaled
    exact_mod_cast scaled
  have width : m ≤ 2 ^ 53 := by
    have bound : (m : ℚ) < 2 ^ 53 + 1 := by linarith [(abs_le.mp near).2]
    exact Nat.lt_succ_iff.mp (by exact_mod_cast bound)
  split
  next top =>
    refine ⟨by norm_num, least.trans (Int.le_add_one le_rfl), .inr le_rfl, ?_⟩
    have same : toRat ⟨0x10000000000000, e + 1⟩ = (m : ℚ) * 2 ^ e := by
      rw [toRat, top, two_zpow_add]
      norm_num
      ring
    rw [same]
    exact value
  next other =>
    refine ⟨lt_of_le_of_ne width other, least, full.imp_right fun normal => ?_, value⟩
    have at_least : (2 : ℚ) ^ 52 ≤ x * 2 ^ (-e) := by
      have scaled := mul_le_mul_of_nonneg_right normal (two_zpow_pos (-e)).le
      rw [← two_zpow_add, show e + 52 + -e = 52 by ring] at scaled
      exact_mod_cast scaled
    have bound : (2 : ℚ) ^ 52 < m + 1 := by linarith [(abs_le.mp near).1]
    exact Nat.lt_succ_iff.mp (by exact_mod_cast bound)

/-- The mantissa that is rounded is the number, brought to its exponent. -/
theorem mantissa_near (num : ℕ) {den : ℕ} (pos : 0 < den) (shift e : ℤ) :
    |((if 0 ≤ shift - e then roundDiv (num * Nat.pow 2 (shift - e).toNat) den
      else roundDiv num (den * Nat.pow 2 (-(shift - e)).toNat) : ℕ) : ℚ) -
        num / den * 2 ^ shift * 2 ^ (-e)| ≤ 1 / 2 := by
  rw [mul_assoc, ← two_zpow_add, ← sub_eq_add_neg]
  split
  next nonneg =>
    have power := zpow_eq_natPow 2 nonneg
    have near := abs_roundDiv_sub_le (num * Nat.pow 2 (shift - e).toNat) pos
    rw [Nat.cast_mul, ← power, Nat.cast_ofNat, mul_div_right_comm] at near
    exact near
  next negative =>
    have power := zpow_eq_inv_natPow 2 negative
    have near := abs_roundDiv_sub_le num
      (Nat.mul_pos pos (Nat.pow_pos (n := (-(shift - e)).toNat) (by decide : 0 < 2)))
    rw [Nat.cast_mul, ← div_div, div_eq_mul_inv _ (((2 ^ _ : ℕ)) : ℚ)] at near
    rw [Nat.cast_ofNat] at power
    rw [power]
    exact near

/-- An exact number is rounded, and given if the exponent is not too large. -/
theorem nearest?_eq (num : ℕ) {den : ℕ} (pos : 0 < den) (shift : ℤ) :
    ∃ r, Rounded (num / den * 2 ^ shift) r ∧
      nearest? num den shift = if 971 < r.exponent then none else some r := by
  by_cases none : num = 0
  · refine ⟨zero, ⟨by decide, by decide, .inl rfl, ?_⟩, ?_⟩
    · rw [none, toRat, zero]
      simp only [Nat.cast_zero, zero_mul, zero_div, sub_zero, abs_zero]
      exact le_max_right _ _
    · rw [nearest?, if_pos none]
      rfl
  · obtain ⟨low, high⟩ := leadingBit_spec none pos.ne'
    have power := two_zpow_pos shift
    refine ⟨_, rounded_of_near (e := max (-1074) (leadingBit num den + shift - 52))
      (le_max_left _ _) ?_ ?_ (mantissa_near num pos shift _), ?_⟩
    · rcases max_choice (-1074) (leadingBit num den + shift - 52) with least | normal
      · exact .inl least
      · refine .inr ?_
        rw [normal, sub_add_cancel, two_zpow_add]
        exact mul_le_mul_of_nonneg_right low power.le
    · calc (num : ℚ) / den * 2 ^ shift < 2 ^ (leadingBit num den + 1) * 2 ^ shift :=
            mul_lt_mul_of_pos_right high power
        _ = 2 ^ (leadingBit num den + 1 + shift) := (two_zpow_add _ _).symm
        _ ≤ 2 ^ (max (-1074) (leadingBit num den + shift - 52) + 53) :=
            zpow_le_zpow_right₀ one_le_two (by omega)
    · rw [nearest?, if_neg none]

/-- The form of the magnitudes that are represented: 53 bits, the leading one set unless
the exponent is the least one. -/
structure Canonical (a : Magnitude) : Prop where
  width : a.mantissa < 2 ^ 53
  least : -1074 ≤ a.exponent
  greatest : a.exponent ≤ 971
  full : a.exponent = -1074 ∨ 2 ^ 52 ≤ a.mantissa

theorem canonical_zero : zero.Canonical := ⟨by decide, by decide, by decide, .inl rfl⟩

/-- The greatest number that is represented. -/
def greatest : ℚ := 0x1FFFFFFFFFFFFF * 2 ^ (971 : ℤ)

theorem le_greatest {n : ℕ} (le : n ≤ 0x1FFFFFFFFFFFFF * 2 ^ 971) : (n : ℚ) ≤ greatest := by
  rw [greatest, zpow_ofNat]
  exact_mod_cast le

theorem one_le_greatest : 1 ≤ greatest := by
  exact_mod_cast le_greatest (n := 1) (by decide +kernel)

theorem canonical_of_nearest? {num den : ℕ} {shift : ℤ} {r : Magnitude} (pos : 0 < den)
    (result : nearest? num den shift = some r) : r.Canonical := by
  obtain ⟨r', rounded, rounding⟩ := nearest?_eq num pos shift
  rw [rounding] at result
  split at result
  · cases result
  next fits =>
    obtain rfl := Option.some.inj result
    exact ⟨rounded.width, rounded.least, not_lt.mp fits, rounded.full⟩

/-- Up to half a unit a rounded number keeps below what the exact one keeps below. -/
theorem Rounded.le {x bound : ℚ} {r : Magnitude} (rounded : Rounded x r) (le : x ≤ bound)
    (one_le : 1 ≤ bound) : r.toRat ≤ bound * (1 + 2 ^ (-53 : ℤ)) := by
  have unit := two_zpow_pos (-53)
  have tiny : (2 : ℚ) ^ (-1075 : ℤ) ≤ bound * 2 ^ (-53 : ℤ) :=
    (zpow_le_zpow_right₀ one_le_two (by decide)).trans (le_mul_of_one_le_left unit.le one_le)
  have error := (abs_le.mp rounded.near).2.trans
    (max_le tiny (mul_le_mul_of_nonneg_right le unit.le))
  rw [mul_one_add]
  linarith

theorem Rounded.half_le {x : ℚ} {r : Magnitude} (rounded : Rounded x r) (one_le : 1 ≤ x) :
    x / 2 ≤ r.toRat := by
  have unit : (2 : ℚ) ^ (-53 : ℤ) ≤ 1 / 2 := by norm_num
  have tiny : (2 : ℚ) ^ (-1075 : ℤ) ≤ x * 2 ^ (-53 : ℤ) :=
    (zpow_le_zpow_right₀ one_le_two (by decide)).trans
      (le_mul_of_one_le_left (two_zpow_pos _).le one_le)
  have error := (abs_le.mp rounded.near).1
  rw [max_eq_right tiny] at error
  have small : x * 2 ^ (-53 : ℤ) ≤ x * (1 / 2) :=
    mul_le_mul_of_nonneg_left unit (zero_le_one.trans one_le)
  generalize x * 2 ^ (-53 : ℤ) = rounding at error small
  linarith

/-- Rounding succeeds up to the greatest number. -/
theorem exists_nearest? (num : ℕ) {den : ℕ} (pos : 0 < den) (shift : ℤ)
    (le : (num : ℚ) / den * 2 ^ shift ≤ greatest) :
    ∃ r, nearest? num den shift = some r ∧ Rounded (num / den * 2 ^ shift) r := by
  obtain ⟨r, rounded, rounding⟩ := nearest?_eq num pos shift
  refine ⟨r, ?_, rounded⟩
  rw [rounding, if_neg]
  intro large
  have unit := two_zpow_pos 971
  have below : r.toRat < 2 ^ 53 * 2 ^ (971 : ℤ) := by
    refine (rounded.le le one_le_greatest).trans_lt ?_
    rw [greatest, mul_right_comm]
    exact mul_lt_mul_of_pos_right (by norm_num) unit
  have above : (2 : ℚ) ^ 53 * 2 ^ (971 : ℤ) ≤ r.toRat := by
    have mantissa : 2 ^ 52 ≤ r.mantissa := rounded.full.resolve_left (by omega)
    have mantissa' : (2 : ℚ) ^ 52 ≤ r.mantissa := by exact_mod_cast mantissa
    have exponent : (2 : ℚ) ^ (971 + 1 : ℤ) ≤ 2 ^ r.exponent :=
      zpow_le_zpow_right₀ one_le_two (by omega)
    rw [two_zpow_add, zpow_one] at exponent
    calc (2 : ℚ) ^ 53 * 2 ^ (971 : ℤ) = 2 ^ 52 * (2 ^ (971 : ℤ) * 2) := by
          rw [pow_succ, mul_assoc, mul_comm 2]
      _ ≤ (r.mantissa : ℚ) * 2 ^ r.exponent :=
          mul_le_mul mantissa' exponent (by positivity) (Nat.cast_nonneg _)
  exact absurd below (not_lt.mpr above)

/-! ### Products and quotients -/

theorem toRat_mul (a b : Magnitude) :
    ((a.mantissa * b.mantissa : ℕ) : ℚ) / (1 : ℕ) * 2 ^ (a.exponent + b.exponent) =
      a.toRat * b.toRat := by
  rw [toRat, toRat, two_zpow_add, Nat.cast_mul, Nat.cast_one, div_one]
  ring

theorem toRat_div (a b : Magnitude) :
    (a.mantissa : ℚ) / b.mantissa * 2 ^ (a.exponent - b.exponent) = a.toRat / b.toRat := by
  rw [toRat, toRat, zpow_sub₀ two_ne_zero, div_mul_div_comm]

theorem exists_times? {a b : Magnitude} (le : a.toRat * b.toRat ≤ greatest) :
    ∃ r, a.times? b = some r ∧ Rounded (a.toRat * b.toRat) r := by
  rw [← toRat_mul] at le ⊢
  exact exists_nearest? _ one_pos _ le

theorem exists_over? {a b : Magnitude} (pos : 0 < b.mantissa) (le : a.toRat / b.toRat ≤ greatest) :
    ∃ r, a.over? b = some r ∧ Rounded (a.toRat / b.toRat) r := by
  rw [← toRat_div] at le ⊢
  exact exists_nearest? _ pos _ le

/-! ### Powers of ten -/

theorem tenPower_rounded {k : ℕ} (le : k ≤ 308) : Rounded (10 ^ k) (tenPower k) := by
  have exact : ((Nat.pow 10 k : ℕ) : ℚ) / (1 : ℕ) * 2 ^ (0 : ℤ) = 10 ^ k := by
    rw [Nat.pow_eq, Nat.cast_pow, Nat.cast_one, div_one, zpow_zero, mul_one, Nat.cast_ofNat]
  have fits : (10 : ℚ) ^ k ≤ greatest :=
    (pow_le_pow_right₀ (by norm_num) le).trans
      (by exact_mod_cast le_greatest (n := 10 ^ 308) (by decide +kernel))
  obtain ⟨r, result, rounded⟩ := exists_nearest? (Nat.pow 10 k) one_pos 0 (exact.trans_le fits)
  rw [tenPower, result, Option.getD_some, ← exact]
  exact rounded

theorem tenPower_le {k : ℕ} (le : k ≤ 308) :
    (tenPower k).toRat ≤ 10 ^ k * (1 + 2 ^ (-53 : ℤ)) :=
  (tenPower_rounded le).le le_rfl (one_le_pow₀ (by norm_num))

theorem half_le_tenPower {k : ℕ} (le : k ≤ 308) : (10 : ℚ) ^ k / 2 ≤ (tenPower k).toRat :=
  (tenPower_rounded le).half_le (one_le_pow₀ (by norm_num))

theorem tenPower_mantissa_pos {k : ℕ} (le : k ≤ 308) : 0 < (tenPower k).mantissa := by
  refine Nat.pos_of_ne_zero fun none => ?_
  have positive : (0 : ℚ) < 10 ^ k / 2 := by positivity
  have value := positive.trans_le (half_le_tenPower le)
  rw [toRat, none, Nat.cast_zero, zero_mul] at value
  exact lt_irrefl 0 value

theorem canonical_of_scale? {a r : Magnitude} {power : ℤ} (canonical : a.Canonical)
    (result : a.scale? power = some r) : r.Canonical := by
  fun_induction scale? a power with
  | case1 a => exact Option.some.inj result ▸ canonical
  | case2 => cases result
  | case3 a power => exact canonical_of_nearest? one_pos result
  | case4 a power => exact canonical_of_nearest? (tenPower_mantissa_pos (by omega)) result
  | case5 a => exact Option.some.inj result ▸ canonical
  | case6 => cases result
  | case7 a power _ _ _ _ b quotient ih =>
      exact ih (canonical_of_nearest? (tenPower_mantissa_pos le_rfl) quotient) result

/-- Scaling up succeeds if there is room for the rounding of the power of ten. -/
theorem exists_scale?_of_le {a : Magnitude} {k : ℕ} (power : k ≤ 308)
    (le : a.toRat * (10 ^ k * (1 + 2 ^ (-53 : ℤ))) ≤ greatest) : ∃ r, a.scale? k = some r := by
  have product : a.toRat * (tenPower k).toRat ≤ greatest :=
    (mul_le_mul_of_nonneg_left (tenPower_le power) a.toRat_nonneg).trans le
  obtain ⟨r, result, -⟩ := exists_times? product
  refine ⟨r, ?_⟩
  rw [scale?, if_neg (by omega), if_pos (by omega), Int.toNat_natCast]
  exact result

/-- Dividing by a power of ten keeps small numbers small. -/
theorem div_tenPower_le {a : Magnitude} {k : ℕ} (power : k ≤ 308) (small : a.toRat ≤ 2 ^ 70) :
    a.toRat / (tenPower k).toRat ≤ 2 ^ 71 := by
  have half : (1 : ℚ) / 2 ≤ (tenPower k).toRat :=
    (div_le_div_of_nonneg_right (one_le_pow₀ (by norm_num)) zero_le_two).trans
      (half_le_tenPower power)
  rw [div_le_iff₀ (one_half_pos.trans_le half)]
  calc a.toRat ≤ 2 ^ 71 * (1 / 2) := by linarith
    _ ≤ 2 ^ 71 * (tenPower k).toRat := mul_le_mul_of_nonneg_left half (by positivity)

theorem exists_over?_tenPower {a : Magnitude} {k : ℕ} (power : k ≤ 308) (small : a.toRat ≤ 2 ^ 70) :
    ∃ r, a.over? (tenPower k) = some r ∧ Rounded (a.toRat / (tenPower k).toRat) r :=
  exists_over? (tenPower_mantissa_pos power) ((div_tenPower_le power small).trans
    (by exact_mod_cast le_greatest (n := 2 ^ 71) (by decide +kernel)))

/-- Scaling down never fails. -/
theorem exists_scale?_of_nonpos {a : Magnitude} {power : ℤ} (small : a.toRat ≤ 2 ^ 70)
    (nonpos : power ≤ 0) : ∃ r, a.scale? power = some r := by
  fun_induction scale? a power with
  | case1 a => exact ⟨a, rfl⟩
  | case2 => omega
  | case3 a power =>
      obtain rfl : power = 0 := by omega
      have unit : (tenPower 0).toRat ≤ 2 := (tenPower_le (by decide)).trans (by norm_num)
      have product : a.toRat * (tenPower 0).toRat ≤ 2 ^ 70 * 2 :=
        mul_le_mul small unit (toRat_nonneg _) (by positivity)
      obtain ⟨r, result, -⟩ := exists_times? (product.trans
        (by exact_mod_cast le_greatest (n := 2 ^ 70 * 2) (by decide +kernel)))
      exact ⟨r, result⟩
  | case4 a power =>
      obtain ⟨r, result, -⟩ := exists_over?_tenPower (k := (-power).toNat) (by omega) small
      exact ⟨r, result⟩
  | case5 a => exact ⟨a, rfl⟩
  | case6 a power _ _ _ _ fails =>
      obtain ⟨r, result, -⟩ := exists_over?_tenPower (k := 308) le_rfl small
      cases fails.symm.trans result
  | case7 a power _ _ _ _ b quotient ih =>
      obtain ⟨r, result, rounded⟩ := exists_over?_tenPower (k := 308) le_rfl small
      obtain rfl := Option.some.inj (quotient.symm.trans result)
      have le_one : a.toRat / (tenPower 308).toRat ≤ 1 := by
        have large := half_le_tenPower (k := 308) le_rfl
        have larger : (2 : ℚ) ^ 70 ≤ 10 ^ 308 / 2 := by
          rw [le_div_iff₀ two_pos]
          exact_mod_cast (by decide +kernel : 2 ^ 70 * 2 ≤ 10 ^ 308)
        exact div_le_one_of_le₀ (small.trans (larger.trans large)) (toRat_nonneg _)
      exact ih ((rounded.le le_one le_rfl).trans (by norm_num)) (by omega)

end Magnitude

end PvrBackend.Decimal
