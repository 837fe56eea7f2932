/-!
# Form encoding of query values

A query is written as `key=value` pairs joined by `&`. A value is written byte
by byte from its UTF-8 form: letters, digits and `*-._` stand for themselves, a
space becomes `+`, and any other byte becomes `%` and two capital hexadecimal
digits. So a written value holds no `&`, `=`, `#` or space and cannot end its
pair early.

`decode` and `decodePairs` read such texts back.
-/

namespace PvrBackend.Text.Form

/-- Characters that stand for themselves. -/
def isPlain (c : Char) : Bool :=
  c.isAlphanum || c == '*' || c == '-' || c == '.' || c == '_'

/-- Capital hexadecimal digit of a number below sixteen. -/
def hexDigit (n : Nat) : Char :=
  if n < 10 then Char.ofNat (48 + n) else Char.ofNat (55 + n)

def encodeByte (b : UInt8) : List Char :=
  let c := Char.ofNat b.toNat
  if isPlain c then [c]
  else if c == ' ' then ['+']
  else ['%', hexDigit (b.toNat / 16), hexDigit (b.toNat % 16)]

def bytes (s : String) : List UInt8 := s.toUTF8.data.toList

/-- Written form of a value. -/
def encode (s : String) : String := String.ofList ((bytes s).flatMap encodeByte)

/-- One pair: the key as it is, the value encoded. -/
def encodePair (p : String × String) : String := p.1 ++ "=" ++ encode p.2

/-- Pairs joined by `&`. -/
def encodePairs (ps : List (String × String)) : String := "&".intercalate (ps.map encodePair)

def hexValue (c : Char) : Option Nat :=
  if c.isDigit then some (c.toNat - 48)
  else if 'A' ≤ c && c ≤ 'F' then some (c.toNat - 55)
  else if 'a' ≤ c && c ≤ 'f' then some (c.toNat - 87)
  else none

/-- The bytes that a written value stands for. A `%` without two hexadecimal
digits stands for itself. -/
def decodeBytes : List Char → List UInt8
  | [] => []
  | '%' :: h :: l :: rest =>
    match hexValue h, hexValue l with
    | some a, some b => UInt8.ofNat (16 * a + b) :: decodeBytes rest
    | _, _ => UInt8.ofNat '%'.toNat :: decodeBytes (h :: l :: rest)
  | c :: rest =>
    if c = '+' then UInt8.ofNat ' '.toNat :: decodeBytes rest
    else bytes c.toString ++ decodeBytes rest

/-- The text that a written value stands for, when its bytes are UTF-8. -/
def decode (s : String) : Option String :=
  String.fromUTF8? ⟨(decodeBytes s.toList).toArray⟩

/-- Pieces of a text between occurrences of a separator. -/
def pieces (sep : Char) : List Char → List (List Char)
  | [] => [[]]
  | c :: rest =>
    if c = sep then [] :: pieces sep rest
    else match pieces sep rest with
      | [] => [[c]]
      | p :: ps => (c :: p) :: ps

/-- Key and value of one piece, split at its first `=`. -/
def decodePair (piece : List Char) : Option (String × String) := do
  let key ← decode (String.ofList (piece.takeWhile (· ≠ '=')))
  let value ← decode (String.ofList ((piece.dropWhile (· ≠ '=')).drop 1))
  pure (key, value)

/-- All pairs of a query in order; empty pieces stand for no pair. -/
def decodePairs (query : String) : Option (List (String × String)) :=
  ((pieces '&' query.toList).filter (· ≠ [])).mapM decodePair

/-- A plain byte is written as itself, a space as `+`, and the rest in three
characters. -/
example : encode "a b/č" = "a+b%2F%C4%8D" := by decide

example : decode "a+b%2F%C4%8D" = some "a b/č" := by decide +kernel

end PvrBackend.Text.Form
