import PvrBackend.Session.Pairing

/-!
# The pairing file

Between runs the pairing is kept in a file of the user's data directory, made
when it is first looked for. A file whose bytes are no text reads as if there
were none, and writing replaces the whole content as long as the directory is
there.
-/

namespace PvrBackend

/-- The pairing file and its directory. -/
structure PairFile where
  /-- Whether the directory is there. -/
  hasDirectory : Bool := true
  /-- Bytes of the file, if there is one. -/
  bytes : Option ByteArray := none
deriving Inhabited

namespace PairFile

/-- Where the file is, below the directory of user data. -/
def path : String := "sledovanitv_pvr/pairinfo"

def read (f : PairFile) : Option String := f.bytes.bind String.fromUTF8?

/-- Replace the bytes of the file; whether that worked. -/
def writeBytes (f : PairFile) (bytes : ByteArray) : Bool × PairFile :=
  if f.hasDirectory then (true, { f with bytes := some bytes }) else (false, f)

/-- Replace the text of the file; whether that worked. -/
def write (f : PairFile) (text : String) : Bool × PairFile := f.writeBytes text.toUTF8

def removeDirectory (_ : PairFile) : PairFile := ⟨false, none⟩

/-- The place where a client keeps its pairing, while the directory lasts. -/
def store (f : PairFile) : PairStore := ⟨f.read, f.hasDirectory⟩

end PairFile

end PvrBackend
