import PvrBackend.Decimal.Shortest
import PvrBackend.Table
import PvrBackend.Text.Blank

/-!
# Values of the data format

Responses of the service, the stored pairing and the settings are JSON. A value
keeps whole numbers of 64 bits apart from all other numbers, which are finite
floating-point numbers, and lists the members of an object in ascending order of
their keys.

Fields of responses are read leniently: `textAt` accepts numbers and truth
values where a text is expected, and `intAt` accepts texts.
-/

namespace PvrBackend

namespace Json

/-- A number: a whole one within 64 bits, or a floating-point one. -/
inductive Number where
  /-- A whole number, from −2⁶³ up to 2⁶⁴ − 1 in values that were read. -/
  | int (n : Int)
  /-- Any other number. -/
  | float (x : Decimal.Binary64)
deriving DecidableEq, Repr

/-- Floating-point numbers are written out in full from 1e-5 up to, not
including, 1e16; whole ones end in `.0`, and exponents always carry a sign. -/
def layout : Decimal.Layout := ⟨-5, 16, true, true⟩

def Number.text : Number → String
  | .int n => Decimal.intText n
  | .float x => x.text layout

/-- A number as a whole number of 64 bits with a sign: fractions are cut off,
and what does not fit is brought to the nearest bound. -/
def Number.toInt64 : Number → Int
  | .int n => Decimal.clampInt64 n
  | .float x => x.toInt64

end Json

inductive Json where
  | null
  | bool (b : Bool)
  | number (n : Json.Number)
  | string (s : String)
  | array (items : List Json)
  /-- Members in ascending order of their keys. -/
  | object (members : List (String × Json))
deriving Repr, BEq, Inhabited

namespace Json

def int (n : Int) : Json := .number (.int n)

/-- An object with the given members; of members with one key the last counts. -/
def ofMembers (members : List (String × Json)) : Json :=
  .object (members.foldl (fun table m => Table.put m.1 m.2 table) [])

/-- The member of an object under `key`; other values have none. -/
def get? (j : Json) (key : String) : Option Json :=
  match j with
  | .object members => Table.look key members
  | _ => none

def items? : Json → Option (List Json)
  | .array items => some items
  | _ => none

def members? : Json → Option (List (String × Json))
  | .object members => some members
  | _ => none

/-- The items of the array under `key`; nothing when there is no such array. -/
def itemsAt (j : Json) (key : String) : List Json := ((j.get? key).bind items?).getD []

/-- A value read as a text: texts stand for themselves, numbers and truth values
for what they look like, and everything else for the empty text. -/
def asText : Json → String
  | .string s => s
  | .number n => n.text
  | .bool true => "true"
  | .bool false => "false"
  | _ => ""

/-- A value read as a whole number: a numeric text counts as its number, true as
one, and what is no number as zero. -/
def asInt : Json → Int
  | .number n => n.toInt64
  | .string s => (Decimal.readInt64? (Text.trim s.toList)).getD 0
  | .bool b => if b then 1 else 0
  | _ => 0

/-- The text under `key`, empty when there is none. -/
def textAt (j : Json) (key : String) : String := ((j.get? key).map asText).getD ""

/-- The whole number under `key`, zero when there is none. -/
def intAt (j : Json) (key : String) : Int := ((j.get? key).map asInt).getD 0

end Json

end PvrBackend
