import PvrBackend.Json.Basic

/-!
# Writing values

The compact form has no white space, members in the order of the object, and
escapes only where the format requires them: quotes, backslashes and control
characters. `renderLines` lays an object out with one member a line.
-/

namespace PvrBackend.Json

/-- Small hexadecimal digit of a number below sixteen. -/
def hexDigit (n : Nat) : Char := if n < 10 then Char.ofNat (48 + n) else Char.ofNat (87 + n)

def escapeChar (c : Char) : List Char :=
  if c = '"' then ['\\', '"']
  else if c = '\\' then ['\\', '\\']
  else if c = '\x08' then ['\\', 'b']
  else if c = '\t' then ['\\', 't']
  else if c = '\n' then ['\\', 'n']
  else if c = '\x0c' then ['\\', 'f']
  else if c = '\r' then ['\\', 'r']
  else if c.toNat < 0x20 then
    ['\\', 'u', '0', '0', hexDigit (c.toNat / 16), hexDigit (c.toNat % 16)]
  else [c]

def quote (s : String) : List Char := '"' :: s.toList.flatMap escapeChar ++ ['"']

mutual

def chars : Json → List Char
  | .null => "null".toList
  | .bool true => "true".toList
  | .bool false => "false".toList
  | .number n => n.text.toList
  | .string s => quote s
  | .array items => '[' :: itemChars items
  | .object members => '{' :: memberChars members

/-- Items after the opening bracket. -/
def itemChars : List Json → List Char
  | [] => [']']
  | [j] => chars j ++ [']']
  | j :: js => chars j ++ ',' :: itemChars js

/-- Members after the opening brace. -/
def memberChars : List (String × Json) → List Char
  | [] => ['}']
  | [(key, j)] => quote key ++ ':' :: chars j ++ ['}']
  | (key, j) :: ms => quote key ++ ':' :: chars j ++ ',' :: memberChars ms

end

/-- The compact form. -/
def render (j : Json) : String := String.ofList (chars j)

/-- The compact form of an object with members in the given order. -/
def renderMembers (members : List (String × Json)) : String := render (.object members)

/-- An object with one member a line, members indented by two spaces. -/
def renderLines (members : List (String × Json)) : String :=
  let line (m : String × Json) := "  " ++ String.ofList (quote m.1 ++ ": ".toList ++ chars m.2)
  "\x7b\n" ++ ",\n".intercalate (members.map line) ++ "\n\x7d"

end PvrBackend.Json
