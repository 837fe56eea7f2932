import PvrBackend.Decimal.Numeral
import PvrBackend.Digest.Sha256
import PvrBackend.Settings.Basic

/-!
# The device

The service knows a device by a serial, the digest of an identifier: the one in
the settings, else the network address, else the moment of the start in
nanoseconds, which at least tells devices apart.
-/

namespace PvrBackend

/-- What the machine says about itself. -/
structure Device where
  /-- Network address in hexadecimal, if there is one. -/
  address : Option String := none
  hostName : Option String := none
deriving DecidableEq, Repr, Inhabited

namespace Device

/-- Text of a moment, given in seconds, as a count of nanoseconds. -/
def momentText (now : Int) : String := Decimal.natText (now.toNat * 1000000000)

/-- The text that the serial is made of. -/
def identifier (chosen : String) (address : Option String) (now : Int) : String :=
  if chosen ≠ "" then chosen
  else match address with
    | none | some "" => momentText now
    | some a => a

def serial (chosen : String) (address : Option String) (now : Int) : String :=
  Digest.sha256Text (identifier chosen address now)

end Device

end PvrBackend
