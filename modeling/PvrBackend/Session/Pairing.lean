import PvrBackend.Json.Printer
import PvrBackend.Json.Reader
import PvrBackend.Table

/-!
# Pairing records

A device is paired with an account once; the answer of the service is stored
together with the user name and the device serial it belongs to. The record has
five named fields and keeps every other member of the answer as it came.

Reading is strict on the named fields: each may stand at most once and must have
its type. Only the device number is read leniently, since the service sends a
number where older records hold a text.
-/

namespace PvrBackend

structure PairingRecord where
  status : Int64 := 0
  deviceId : String := ""
  password : String := ""
  userName : String := ""
  serial : String := ""
  /-- Every other member. -/
  extra : Table String Json := .empty

namespace PairingRecord

instance : Inhabited PairingRecord := ⟨{}⟩

/-- Names of the fields that are read, in their written order. -/
def fieldNames : List String := ["status", "deviceId", "password", "userName", "serial"]

/-- The value of a field; `none` when it stands twice. -/
def single (name : String) (members : List (String × Json)) : Option (Option Json) :=
  match members.filter (fun m => m.1 == name) with
  | [] => some none
  | [m] => some (some m.2)
  | _ => none

/-- A whole number of 64 bits, zero when it is missing. -/
def status? : Option Json → Option Int64
  | none => some 0
  | some (.number (.int n)) => if Decimal.fitsInt64 n then some (Int64.ofInt n) else none
  | _ => none

/-- A text, empty when it is missing. -/
def text? : Option Json → Option String
  | none => some ""
  | some (.string s) => some s
  | _ => none

/-- A device number: a text or a number other than zero; anything else names no
device. -/
def deviceId? : Option Json → String
  | some (.number (.int 0)) => ""
  | some (.number n) => n.text
  | some (.string s) => s
  | _ => ""

def ofMembers? (members : List (String × Json)) : Option PairingRecord := do
  let status ← status? (← single "status" members)
  let deviceId := deviceId? (← single "deviceId" members)
  let password ← text? (← single "password" members)
  let userName ← text? (← single "userName" members)
  let serial ← text? (← single "serial" members)
  let others := members.filter (fun m => !fieldNames.contains m.1)
  let extra := others.foldl (fun table m => table.insert m.1 m.2) Table.empty
  pure { status, deviceId, password, userName, serial, extra }

def ofJson? (j : Json) : Option PairingRecord := j.members?.bind ofMembers?

def read (text : String) : Option PairingRecord := (Json.readMembers text).bind ofMembers?

/-- The members of a record in their written order. -/
def members (r : PairingRecord) : List (String × Json) :=
  [("status", .int r.status.toInt), ("deviceId", .string r.deviceId),
    ("password", .string r.password), ("userName", .string r.userName),
    ("serial", .string r.serial)] ++ r.extra.entries

def render (r : PairingRecord) : String := Json.renderMembers r.members

def isSuccess (r : PairingRecord) : Bool := r.status == 1

/-- Whether the record names a device and its password. -/
def hasDevice (r : PairingRecord) : Bool := r.deviceId != "" && r.password != ""

/-- Whether the pairing can be used again by this user on this device. -/
def isFor (r : PairingRecord) (userName serial : String) : Bool :=
  r.isSuccess && r.userName == userName && r.serial == serial

end PairingRecord

/-- The place where the pairing is kept. -/
structure PairStore where
  /-- What is stored, if anything. -/
  content : Option String := none
  /-- Whether writing succeeds. -/
  writable : Bool := true
deriving DecidableEq, Repr, Inhabited

namespace PairStore

def record? (s : PairStore) : Option PairingRecord := s.content.bind PairingRecord.read

/-- Replace what is stored; a failed write changes nothing. -/
def write (s : PairStore) (text : String) : PairStore :=
  if s.writable then { s with content := some text } else s

theorem write_of_writable {s : PairStore} (h : s.writable = true) (text : String) :
    s.write text = { s with content := some text } :=
  if_pos h

@[simp] theorem write_writable (s : PairStore) (text : String) :
    (s.write text).writable = s.writable := by
  unfold write
  split <;> rfl

end PairStore

end PvrBackend
