import PvrBackend.Decimal.Numeral

/-!
# Finite binary64 numbers, exactly

A finite floating-point number of 64 bits is a sign and a magnitude
`mantissa · 2 ^ exponent`. Products and quotients are formed exactly and rounded
once, to the nearest representable magnitude and on a tie to the even mantissa,
so all of this arithmetic is on natural numbers.
-/

namespace PvrBackend.Decimal

/-- Quotient rounded to the nearest whole number, a half to the even one. -/
def roundDiv (n d : Nat) : Nat :=
  let q := n / d
  let r := n % d
  if 2 * r < d then q else if d < 2 * r then q + 1 else q + q % 2

/-- The rounded quotient is within half a unit of the exact one. -/
theorem roundDiv_near (n : Nat) {d : Nat} (hd : 0 < d) :
    2 * (roundDiv n d * d) ≤ 2 * n + d ∧ 2 * n ≤ 2 * (roundDiv n d * d) + d := by
  have h := Nat.div_add_mod n d
  have hc : d * (n / d) = n / d * d := Nat.mul_comm _ _
  have hs : (n / d + 1) * d = n / d * d + d := Nat.succ_mul _ _
  have hr := Nat.mod_lt n hd
  unfold roundDiv
  simp only
  split
  · omega
  · split
    · omega
    · rcases Nat.mod_two_eq_zero_or_one (n / d) with he | he <;>
        simp only [he, Nat.add_zero] <;> omega

/-- A number `mantissa · 2 ^ exponent`. Canonical ones have a mantissa of 53
bits, or fewer at the least exponent, −1074. -/
structure Magnitude where
  /-- Significant bits. -/
  mantissa : Nat
  /-- Power of two. -/
  exponent : Int
deriving DecidableEq, Repr

namespace Magnitude

def zero : Magnitude := ⟨0, -1074⟩

/-- Position of the leading bit of `num / den`. -/
def leadingBit (num den : Nat) : Int :=
  let guess : Int := num.log2 - den.log2
  let below : Bool :=
    if 0 ≤ guess then num < den * Nat.pow 2 guess.toNat
    else num * Nat.pow 2 (-guess).toNat < den
  if below then guess - 1 else guess

/-- The magnitude nearest to `num / den · 2 ^ shift`; `none` when that is too
large to be represented. -/
def nearest? (num den : Nat) (shift : Int) : Option Magnitude :=
  if num = 0 then some zero else
  let exponent := max (-1074) (leadingBit num den + shift - 52)
  let places := shift - exponent
  let mantissa :=
    if 0 ≤ places then roundDiv (num * Nat.pow 2 places.toNat) den
    else roundDiv num (den * Nat.pow 2 (-places).toNat)
  let result : Magnitude :=
    if mantissa = 0x20000000000000 then ⟨0x10000000000000, exponent + 1⟩ else ⟨mantissa, exponent⟩
  if 971 < result.exponent then none else some result

/-- Product, rounded once. -/
def times? (a b : Magnitude) : Option Magnitude :=
  nearest? (a.mantissa * b.mantissa) 1 (a.exponent + b.exponent)

/-- Quotient by a positive magnitude, rounded once. -/
def over? (a b : Magnitude) : Option Magnitude :=
  nearest? a.mantissa b.mantissa (a.exponent - b.exponent)

def truncate (a : Magnitude) : Nat :=
  if 0 ≤ a.exponent then a.mantissa * Nat.pow 2 a.exponent.toNat
  else a.mantissa / Nat.pow 2 (-a.exponent).toNat

/-- The magnitude nearest to a power of ten. -/
def tenPower (k : Nat) : Magnitude := (nearest? (Nat.pow 10 k) 1 0).getD zero

/-- `a · 10 ^ power`, computed in steps of at most 308 powers of ten, each of
them rounded; `none` when the number grows too large. -/
def scale? (a : Magnitude) (power : Int) : Option Magnitude :=
  if 308 < power then if a.mantissa = 0 then some a else none
  else if 0 ≤ power then a.times? (tenPower power.toNat)
  else if -308 ≤ power then a.over? (tenPower (-power).toNat)
  else if a.mantissa = 0 then some a
  else match a.over? (tenPower 308) with
    | none => none
    | some b => b.scale? (power + 308)
termination_by (-power).toNat
decreasing_by omega

end Magnitude

/-- A finite floating-point number of 64 bits; zero has either sign. -/
structure Binary64 where
  /-- Whether the sign is minus. -/
  negative : Bool
  /-- The number without its sign. -/
  magnitude : Magnitude
deriving DecidableEq, Repr

namespace Binary64

/-- The whole part with its sign, held within 64 bits. -/
def toInt64 (x : Binary64) : Int :=
  let whole : Int := x.magnitude.truncate
  clampInt64 (if x.negative then -whole else whole)

end Binary64

end PvrBackend.Decimal
