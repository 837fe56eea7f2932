/-!
# Blank characters

The characters with the Unicode property `White_Space`, and the trimming of
texts by them. Times and numbers that arrive inside strings are trimmed this way
before they are read.
-/

namespace PvrBackend.Text

/-- Inclusive code point ranges of the property `White_Space`. -/
def blankRanges : List (Nat × Nat) :=
  [(0x09, 0x0D), (0x20, 0x20), (0x85, 0x85), (0xA0, 0xA0), (0x1680, 0x1680), (0x2000, 0x200A),
    (0x2028, 0x2029), (0x202F, 0x202F), (0x205F, 0x205F), (0x3000, 0x3000)]

def isBlank (c : Char) : Bool :=
  blankRanges.any (fun r => r.1 ≤ c.toNat && c.toNat ≤ r.2)

def skipBlanks (cs : List Char) : List Char := cs.dropWhile isBlank

def trim (cs : List Char) : List Char := (skipBlanks (skipBlanks cs).reverse).reverse

@[simp] theorem trim_nil : trim [] = [] := rfl

end PvrBackend.Text
