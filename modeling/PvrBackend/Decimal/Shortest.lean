import PvrBackend.Decimal.Binary64

/-!
# Shortest decimal texts of binary64 numbers

A magnitude is written with the fewest decimal digits that still read back as
it, and of the decimals with that many digits with the nearest one. The decimals
that read back are those between the midpoints to the two neighbours, the
midpoints included when the mantissa is even. On each decimal grid, coarse grids
first, only the two points next to the exact value can be the answer, so the
first grid with a hit decides.

How the digits are laid out is data, a `Layout`.
-/

namespace PvrBackend.Decimal

/-- The decimal `digits · 10 ^ power`. -/
structure Scientific where
  /-- Significant digits as one number. -/
  digits : Nat
  /-- Power of ten. -/
  power : Int
deriving DecidableEq, Repr

namespace Magnitude

/-- Numerator and denominator of `2 ^ e`. -/
def binaryRatio (e : Int) : Nat × Nat :=
  if 0 ≤ e then (Nat.pow 2 e.toNat, 1) else (1, Nat.pow 2 (-e).toNat)

/-- Numerator and denominator of `10 ^ k`. -/
def decimalRatio (k : Int) : Nat × Nat :=
  if 0 ≤ k then (Nat.pow 10 k.toNat, 1) else (1, Nat.pow 10 (-k).toNat)

/-- The point of the grid of `10 ^ k` that reads back as the magnitude, the
nearer one when both points next to it do, on a tie the even one. -/
def onGrid (a : Magnitude) (k : Int) : Option Nat :=
  let (unit, part) := binaryRatio (a.exponent - 2)
  let (ten, tenth) := decimalRatio k
  -- exact value and its borders in quarters of the last bit, times `unit * tenth`
  let middle := 4 * a.mantissa * unit * tenth
  let gap := if a.mantissa = 0x10000000000000 ∧ -1074 < a.exponent then 1 else 2
  let low := (4 * a.mantissa - gap) * unit * tenth
  let high := (4 * a.mantissa + 2) * unit * tenth
  let step := ten * part
  let down := middle / step
  let inside (c : Nat) : Bool :=
    if a.mantissa % 2 = 0 then low ≤ c * step && c * step ≤ high
    else low < c * step && c * step < high
  match inside down, inside (down + 1) with
  | true, false => some down
  | false, true => some (down + 1)
  | false, false => none
  | true, true =>
    let below := middle - down * step
    let above := (down + 1) * step - middle
    if below < above then some down
    else if above < below then some (down + 1)
    else some (down + down % 2)

/-- The first grid with a hit among `count` grids that get ten times finer each. -/
def firstGrid (a : Magnitude) : Nat → Int → Scientific
  | 0, k => ⟨0, k⟩
  | count + 1, k =>
    match a.onGrid k with
    | some c => ⟨c, k⟩
    | none => a.firstGrid count (k - 1)

/-- The shortest decimal that reads back as the magnitude. -/
def shortest (a : Magnitude) : Scientific :=
  if a.mantissa = 0 then ⟨0, 0⟩ else
  let bits : Int := a.mantissa.log2 + a.exponent + 1
  -- no fewer than the decimal digits before the point, at most two more
  let top := (bits * 30103).fdiv 100000 + 1
  a.firstGrid 21 top

end Magnitude

/-- How a decimal is laid out: which exponents are written out in full, and
whether a whole number and a positive exponent carry a mark. -/
structure Layout where
  /-- Least exponent of the leading digit that is written without an exponent. -/
  least : Int
  /-- First exponent of the leading digit that needs an exponent again. -/
  limit : Int
  /-- Whole numbers end in a point and a zero. -/
  wholeMark : Bool
  /-- A positive exponent carries a plus sign. -/
  plusSign : Bool

namespace Scientific

/-- Text of a decimal without a sign. -/
def text (s : Scientific) (layout : Layout) : String :=
  let ds := Decimal.digits s.digits
  let leading : Int := ds.length + s.power - 1
  let chars :=
    if layout.least ≤ leading ∧ leading < layout.limit then
      if 0 ≤ s.power then
        ds ++ List.replicate s.power.toNat '0' ++ (if layout.wholeMark then ['.', '0'] else [])
      else if 0 ≤ leading then
        ds.take (leading.toNat + 1) ++ '.' :: ds.drop (leading.toNat + 1)
      else '0' :: '.' :: List.replicate (-leading - 1).toNat '0' ++ ds
    else
      let mantissa := ds.take 1 ++ (if ds.length = 1 then [] else '.' :: ds.drop 1)
      let sign := if leading < 0 then ['-'] else if layout.plusSign then ['+'] else []
      mantissa ++ 'e' :: sign ++ Decimal.digits leading.natAbs
  String.ofList chars

end Scientific

/-- Shortest text of a number in a layout. -/
def Binary64.text (x : Binary64) (layout : Layout) : String :=
  (if x.negative then "-" else "") ++ x.magnitude.shortest.text layout

end PvrBackend.Decimal
