import PvrBackend.Json.Basic

/-!
# Written JSON

A document is a text's structure as it stands on the page: members of an object
in their order, repeated ones included, numbers by their digits, and strings
that may hold half of a surrogate pair, which names no character. `Json.read`
turns documents into values; the settings and the pairing record read some
documents that have no value as a whole.

`Document.read` is a reader of one grammar over lists of characters. Every
construct takes at least one character, so twice the length of the text bounds
the number of nested reading steps.
-/

namespace PvrBackend.Json

/-- A number by its digits. -/
structure Literal where
  /-- Whether a minus sign stands in front. -/
  negative : Bool
  /-- Digits before the point. -/
  whole : List Char
  /-- Digits after the point, when there is one. -/
  fraction : Option (List Char)
  /-- Whether the exponent is negative, and its digits. -/
  exponent : Option (Bool × List Char)
deriving DecidableEq, Repr

/-- The structure of a text. -/
inductive Document where
  | null
  | bool (b : Bool)
  | number (n : Literal)
  /-- A string; `none` when an escape in it names no character. -/
  | string (s : Option String)
  | array (items : List Document)
  /-- Members in the order of the text. -/
  | object (members : List (Option String × Document))
deriving Repr, Inhabited

namespace Document

def isSpace (c : Char) : Bool := c == ' ' || c == '\t' || c == '\n' || c == '\r'

def skipSpace (cs : List Char) : List Char := cs.dropWhile isSpace

def hexValue (c : Char) : Option Nat :=
  if c.isDigit then some (c.toNat - 48)
  else if 'A' ≤ c && c ≤ 'F' then some (c.toNat - 55)
  else if 'a' ≤ c && c ≤ 'f' then some (c.toNat - 87)
  else none

def hexUnit (a b c d : Char) : Option Nat := do
  pure ((((← hexValue a) * 16 + (← hexValue b)) * 16 + (← hexValue c)) * 16 + (← hexValue d))

/-- First half of a surrogate pair. -/
def isHigh (unit : Nat) : Bool := 0xD800 ≤ unit && unit < 0xDC00

/-- Second half of a surrogate pair. -/
def isLow (unit : Nat) : Bool := 0xDC00 ≤ unit && unit < 0xE000

/-- The character that a surrogate pair stands for. -/
def ofPair (high low : Nat) : Char :=
  Char.ofNat (0x10000 + (high - 0xD800) * 0x400 + (low - 0xDC00))

/-- The character that a one-letter escape stands for. -/
def escaped : Char → Option Char
  | '"' => some '"'
  | '\\' => some '\\'
  | '/' => some '/'
  | 'b' => some '\x08'
  | 'f' => some '\x0c'
  | 'n' => some '\n'
  | 'r' => some '\r'
  | 't' => some '\t'
  | _ => none

/-- A step of a string: a character, or the sixteen bits of a `\u` escape. -/
inductive Piece where
  | char (c : Char)
  | unit (n : Nat)
deriving DecidableEq, Repr

/-- The pieces of a string after its opening quote, and the text behind its
closing quote. Control characters must be escaped. -/
def readPieces : List Char → Option (List Piece × List Char)
  | [] => none
  | '"' :: rest => some ([], rest)
  | '\\' :: 'u' :: a :: b :: c :: d :: rest => do
    let n ← hexUnit a b c d
    let (pieces, rest) ← readPieces rest
    pure (.unit n :: pieces, rest)
  | '\\' :: e :: rest => do
    let c ← escaped e
    let (pieces, rest) ← readPieces rest
    pure (.char c :: pieces, rest)
  | c :: rest => do
    if c.toNat < 0x20 then none
    let (pieces, rest) ← readPieces rest
    pure (.char c :: pieces, rest)

/-- The characters that pieces stand for: two halves of a surrogate pair stand
for one character, and half of a pair alone for none. -/
def joinPieces : List Piece → Option (List Char)
  | [] => some []
  | .char c :: rest => (joinPieces rest).map (c :: ·)
  | .unit n :: .unit m :: rest =>
    if isHigh n && isLow m then (joinPieces rest).map (ofPair n m :: ·)
    else if isHigh n || isLow n then none
    else (joinPieces (.unit m :: rest)).map (Char.ofNat n :: ·)
  | .unit n :: rest =>
    if isHigh n || isLow n then none else (joinPieces rest).map (Char.ofNat n :: ·)

/-- The rest of a string after its opening quote, and the text behind its closing
quote. -/
def readString (cs : List Char) : Option (Option String × List Char) :=
  (readPieces cs).map (fun (pieces, rest) => ((joinPieces pieces).map String.ofList, rest))

def spanDigits (cs : List Char) : List Char × List Char :=
  (cs.takeWhile Char.isDigit, cs.dropWhile Char.isDigit)

/-- The digits before the point: a zero alone, or digits that do not start with a
zero. -/
def readWhole (cs : List Char) : Option (List Char × List Char) :=
  match spanDigits cs with
  | ([], _) => none
  | (['0'], rest) => some (['0'], rest)
  | ('0' :: _, _) => none
  | (ds, rest) => some (ds, rest)

/-- A point and at least one digit, if there is a point. -/
def readFraction : List Char → Option (Option (List Char) × List Char)
  | '.' :: rest =>
    match spanDigits rest with
    | ([], _) => none
    | (ds, rest) => some (some ds, rest)
  | cs => some (none, cs)

/-- The sign of an exponent, plus when there is none. -/
def readSign : List Char → Bool × List Char
  | '+' :: rest => (false, rest)
  | '-' :: rest => (true, rest)
  | cs => (false, cs)

/-- An exponent mark with at least one digit, if there is a mark. -/
def readExponent : List Char → Option (Option (Bool × List Char) × List Char)
  | c :: rest =>
    if c = 'e' ∨ c = 'E' then
      let (negative, rest) := readSign rest
      match spanDigits rest with
      | ([], _) => none
      | (ds, rest) => some (some (negative, ds), rest)
    else some (none, c :: rest)
  | [] => some (none, [])

def readLiteral (cs : List Char) : Option (Literal × List Char) := do
  let (negative, cs) := match cs with
    | '-' :: rest => (true, rest)
    | _ => (false, cs)
  let (whole, cs) ← readWhole cs
  let (fraction, cs) ← readFraction cs
  let (exponent, cs) ← readExponent cs
  pure (⟨negative, whole, fraction, exponent⟩, cs)

mutual

/-- A value with white space before it. The number bounds the reading steps. -/
def readValue : Nat → List Char → Option (Document × List Char)
  | 0, _ => none
  | fuel + 1, cs =>
    match skipSpace cs with
    | 'n' :: 'u' :: 'l' :: 'l' :: rest => some (.null, rest)
    | 't' :: 'r' :: 'u' :: 'e' :: rest => some (.bool true, rest)
    | 'f' :: 'a' :: 'l' :: 's' :: 'e' :: rest => some (.bool false, rest)
    | '"' :: rest => do
      let (s, rest) ← readString rest
      pure (.string s, rest)
    | '[' :: rest =>
      match skipSpace rest with
      | ']' :: rest => some (.array [], rest)
      | _ => do
        let (items, rest) ← readItems fuel rest
        pure (.array items, rest)
    | '{' :: rest =>
      match skipSpace rest with
      | '}' :: rest => some (.object [], rest)
      | _ => do
        let (members, rest) ← readMembers fuel rest
        pure (.object members, rest)
    | cs => do
      let (n, rest) ← readLiteral cs
      pure (.number n, rest)

/-- Items up to the closing bracket, at least one. -/
def readItems : Nat → List Char → Option (List Document × List Char)
  | 0, _ => none
  | fuel + 1, cs => do
    let (item, rest) ← readValue fuel cs
    match skipSpace rest with
    | ',' :: rest =>
      let (items, rest) ← readItems fuel rest
      pure (item :: items, rest)
    | ']' :: rest => pure ([item], rest)
    | _ => none

/-- Members up to the closing brace, at least one. -/
def readMembers : Nat → List Char → Option (List (Option String × Document) × List Char)
  | 0, _ => none
  | fuel + 1, cs =>
    match skipSpace cs with
    | '"' :: rest => do
      let (key, rest) ← readString rest
      match skipSpace rest with
      | ':' :: rest =>
        let (value, rest) ← readValue fuel rest
        let member := (key, value)
        match skipSpace rest with
        | ',' :: rest =>
          let (members, rest) ← readMembers fuel rest
          pure (member :: members, rest)
        | '}' :: rest => pure ([member], rest)
        | _ => none
      | _ => none
    | _ => none

end

/-- The structure of a text that is one value and white space. -/
def read (s : String) : Option Document := do
  let cs := s.toList
  let (document, rest) ← readValue (2 * cs.length + 2) cs
  if skipSpace rest = [] then pure document else none

end Document

end PvrBackend.Json
