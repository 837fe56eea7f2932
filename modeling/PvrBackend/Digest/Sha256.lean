/-!
# SHA-256

The digest of the Secure Hash Standard over lists of bytes, in words of 32 bits.
Devices are known to the service by the digest of their identifier, written in
small hexadecimal digits.
-/

namespace PvrBackend.Digest

/-- First words of the fractional parts of the square roots of the first primes. -/
def initialState : List UInt32 :=
  [0x6a09e667, 0xbb67ae85, 0x3c6ef372, 0xa54ff53a, 0x510e527f, 0x9b05688c, 0x1f83d9ab, 0x5be0cd19]

/-- First words of the fractional parts of the cube roots of the first 64 primes. -/
def roundConstants : List UInt32 :=
  [0x428a2f98, 0x71374491, 0xb5c0fbcf, 0xe9b5dba5, 0x3956c25b, 0x59f111f1, 0x923f82a4, 0xab1c5ed5,
   0xd807aa98, 0x12835b01, 0x243185be, 0x550c7dc3, 0x72be5d74, 0x80deb1fe, 0x9bdc06a7, 0xc19bf174,
   0xe49b69c1, 0xefbe4786, 0x0fc19dc6, 0x240ca1cc, 0x2de92c6f, 0x4a7484aa, 0x5cb0a9dc, 0x76f988da,
   0x983e5152, 0xa831c66d, 0xb00327c8, 0xbf597fc7, 0xc6e00bf3, 0xd5a79147, 0x06ca6351, 0x14292967,
   0x27b70a85, 0x2e1b2138, 0x4d2c6dfc, 0x53380d13, 0x650a7354, 0x766a0abb, 0x81c2c92e, 0x92722c85,
   0xa2bfe8a1, 0xa81a664b, 0xc24b8b70, 0xc76c51a3, 0xd192e819, 0xd6990624, 0xf40e3585, 0x106aa070,
   0x19a4c116, 0x1e376c08, 0x2748774c, 0x34b0bcb5, 0x391c0cb3, 0x4ed8aa4a, 0x5b9cca4f, 0x682e6ff3,
   0x748f82ee, 0x78a5636f, 0x84c87814, 0x8cc70208, 0x90befffa, 0xa4506ceb, 0xbef9a3f7, 0xc67178f2]

def rotate (x n : UInt32) : UInt32 := (x >>> n) ||| (x <<< (32 - n))

/-- The eight bytes of a length in bits, the highest first. -/
def lengthBytes (bits : Nat) : List UInt8 :=
  (List.range 8).map (fun i => UInt8.ofNat (bits >>> (8 * (7 - i))))

/-- The message with a one bit, zeros and its length, a whole number of blocks of
64 bytes. -/
def pad (message : List UInt8) : List UInt8 :=
  let zeros := (119 - message.length % 64) % 64
  message ++ 0x80 :: List.replicate zeros 0 ++ lengthBytes (8 * message.length)

/-- Words of four bytes each, the highest byte first. -/
def words : List UInt8 → List UInt32
  | a :: b :: c :: d :: rest =>
    ((a.toUInt32 <<< 24) ||| (b.toUInt32 <<< 16) ||| (c.toUInt32 <<< 8) ||| d.toUInt32) ::
      words rest
  | _ => []

/-- Extend a schedule, kept newest word first, by `count` words. -/
def extend : Nat → List UInt32 → List UInt32
  | 0, schedule => schedule
  | count + 1, schedule =>
    let w (back : Nat) : UInt32 := schedule.getD (back - 1) 0
    let s0 := rotate (w 15) 7 ^^^ rotate (w 15) 18 ^^^ (w 15 >>> 3)
    let s1 := rotate (w 2) 17 ^^^ rotate (w 2) 19 ^^^ (w 2 >>> 10)
    extend count ((w 16 + s0 + w 7 + s1) :: schedule)

/-- One round: eight working words, a constant and a word of the schedule. -/
def round (state : List UInt32) (k w : UInt32) : List UInt32 :=
  match state with
  | [a, b, c, d, e, f, g, h] =>
    let s1 := rotate e 6 ^^^ rotate e 11 ^^^ rotate e 25
    let choice := (e &&& f) ^^^ (~~~e &&& g)
    let t1 := h + s1 + choice + k + w
    let s0 := rotate a 2 ^^^ rotate a 13 ^^^ rotate a 22
    let majority := (a &&& b) ^^^ (a &&& c) ^^^ (b &&& c)
    [t1 + s0 + majority, a, b, c, d + t1, e, f, g]
  | _ => state

/-- Mix one block of sixteen words into the state. -/
def compress (state block : List UInt32) : List UInt32 :=
  let schedule := (extend 48 block.reverse).reverse
  let mixed := (roundConstants.zip schedule).foldl (fun s kw => round s kw.1 kw.2) state
  List.zipWith (· + ·) state mixed

def compressBlocks : Nat → List UInt32 → List UInt32 → List UInt32
  | 0, state, _ => state
  | count + 1, state, message =>
    compressBlocks count (compress state (message.take 16)) (message.drop 16)

/-- The digest as eight words. -/
def sha256 (message : List UInt8) : List UInt32 :=
  let message := words (pad message)
  compressBlocks (message.length / 16) initialState message

/-- Small hexadecimal digits of a word. -/
def wordText (w : UInt32) : List Char :=
  (List.range 8).map (fun i => Nat.digitChar ((w.toNat >>> (4 * (7 - i))) % 16))

/-- The digest of a text's UTF-8 bytes in hexadecimal. -/
def sha256Text (s : String) : String :=
  String.ofList ((sha256 s.toUTF8.data.toList).flatMap wordText)

end PvrBackend.Digest
