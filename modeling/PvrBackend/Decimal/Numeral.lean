/-!
# Whole numbers in decimal

Digits of a natural number, and the reading of whole numbers with an optional
sign. Reading what was written gives the number back.
-/

namespace PvrBackend.Decimal

/-- Decimal digits, without leading zeros. -/
def digits (n : Nat) : List Char := Nat.toDigits 10 n

/-- The number that digits stand for. -/
def value (cs : List Char) : Nat := Nat.ofDigitChars 10 cs 0

@[simp] theorem value_digits (n : Nat) : value (digits n) = n := Nat.ofDigitChars_ten_toDigits

def natText (n : Nat) : String := String.ofList (digits n)

def intText : Int → String
  | .ofNat n => natText n
  | .negSucc n => "-" ++ natText (n + 1)

/-- Digits of `n` with zeros in front up to `width` characters. -/
def padded (width n : Nat) : String :=
  String.ofList (List.replicate (width - (digits n).length) '0' ++ digits n)

/-- A number written with ASCII digits only, at least one. -/
def readNat? (cs : List Char) : Option Nat :=
  if cs ≠ [] ∧ cs.all Char.isDigit then some (value cs) else none

theorem digits_isDigit {n : Nat} {c : Char} (h : c ∈ digits n) : c.isDigit = true :=
  Nat.isDigit_of_mem_toDigits (by decide) (by decide) h

theorem digits_ne_nil (n : Nat) : digits n ≠ [] := by
  intro h
  have := Nat.length_toDigits_pos (b := 10) (n := n)
  simp [digits] at h

@[simp] theorem readNat?_digits (n : Nat) : readNat? (digits n) = some n := by
  have all : (digits n).all Char.isDigit = true :=
    List.all_eq_true.mpr fun c hc => digits_isDigit hc
  simp [readNat?, digits_ne_nil, all]

def fitsInt64 (i : Int) : Bool := -0x8000000000000000 ≤ i && i < 0x8000000000000000

/-- The nearest integer that fits 64 bits with a sign. -/
def clampInt64 (i : Int) : Int := max (-0x8000000000000000) (min i 0x7FFFFFFFFFFFFFFF)

/-- A whole number with an optional sign of either kind, refused when it does
not fit 64 bits. -/
def readInt64? (cs : List Char) : Option Int :=
  let number : Option Int := match cs with
    | '-' :: rest => (readNat? rest).map (fun n => -(n : Int))
    | '+' :: rest => (readNat? rest).map Int.ofNat
    | _ => (readNat? cs).map Int.ofNat
  number.filter fitsInt64

end PvrBackend.Decimal
