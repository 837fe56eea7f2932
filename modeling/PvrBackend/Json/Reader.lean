import PvrBackend.Json.Document

/-!
# Reading values

`Json.read` accepts a text when it is one document, every string in it names
characters only, every number is finite and arrays and objects are nested at
most 127 deep. Of members with one key the last counts.

Numbers beyond 64 bits, with a fraction or with an exponent become
floating-point ones. Their significand keeps the leading digits that fit 64
bits, and the power of ten is applied to it with its own roundings, so the
result can differ in the last bit from the nearest number to the text.
-/

namespace PvrBackend.Json

open Decimal (Binary64 Magnitude)

/-- Append digits to a significand while it stays below 2⁶⁴; also the number of
digits appended. -/
def absorb (significand : Nat) : List Char → Nat × Nat
  | [] => (significand, 0)
  | d :: ds =>
    let longer := significand * 10 + (d.toNat - '0'.toNat)
    if longer < UInt64.size then
      let (total, count) := absorb longer ds
      (total, count + 1)
    else (significand, 0)

/-- The floating-point number `± significand · 10 ^ power`, unless it is too large. -/
def ofParts (negative : Bool) (significand : Nat) (power : Int) : Option Number := do
  let start ← Magnitude.nearest? significand 1 0
  let magnitude ← start.scale? power
  pure (.float ⟨negative, magnitude⟩)

/-- Largest exponent that is added up; a larger one stands for zero or for a
number too large. -/
def exponentLimit : Nat := 0x7FFFFFFF

/-- The number that a literal stands for, unless it is too large. A whole literal
is a whole number when it fits 64 bits, but minus zero is a floating-point
number, since only those have a zero with a sign. -/
def Literal.number? (n : Literal) : Option Number :=
  let (significand, taken) := absorb 0 n.whole
  let skipped : Int := n.whole.length - taken
  match n.fraction, n.exponent with
  | none, none =>
    if skipped = 0 ∧ !n.negative then some (.int significand)
    else if skipped = 0 ∧ 0 < significand ∧ significand ≤ 0x8000000000000000 then
      some (.int (-(significand : Int)))
    else ofParts n.negative significand skipped
  | fraction, exponent =>
    let (significand, places) := absorb significand (fraction.getD [])
    let power : Int := skipped - places
    match exponent with
    | none => ofParts n.negative significand power
    | some (down, ds) =>
      let shift := Decimal.value ds
      if shift ≤ exponentLimit then
        ofParts n.negative significand (if down then power - shift else power + shift)
      else if significand = 0 ∨ down then some (.float ⟨n.negative, Magnitude.zero⟩)
      else none

mutual

/-- The value of a document whose arrays and objects are nested at most `depth`
deep. -/
def Document.value? (depth : Nat) : Document → Option Json
  | .null => some .null
  | .bool b => some (.bool b)
  | .number n => n.number?.map .number
  | .string s => s.map .string
  | .array items =>
    match depth with
    | 0 => none
    | depth + 1 => (Document.values? depth items).map .array
  | .object members =>
    match depth with
    | 0 => none
    | depth + 1 => (Document.members? depth members).map ofMembers

def Document.values? (depth : Nat) : List Document → Option (List Json)
  | [] => some []
  | d :: ds => do
    let value ← Document.value? depth d
    let values ← Document.values? depth ds
    pure (value :: values)

def Document.members? (depth : Nat) :
    List (Option String × Document) → Option (List (String × Json))
  | [] => some []
  | (key, d) :: ds => do
    let key ← key
    let value ← Document.value? depth d
    let members ← Document.members? depth ds
    pure ((key, value) :: members)

end

/-- Deepest nesting of arrays and objects in a value. -/
def depthLimit : Nat := 127

def read (s : String) : Option Json := (Document.read s).bind (Document.value? depthLimit)

/-- The members of a text that is an object, in the order of the text, repeated
keys included. -/
def readMembers (s : String) : Option (List (String × Json)) :=
  match Document.read s with
  | some (.object members) => Document.members? (depthLimit - 1) members
  | _ => none

end PvrBackend.Json
