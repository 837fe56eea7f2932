import PvrBackend.Session.Device
import PvrBackend.Session.Pairing
import PvrBackend.Session.Server

/-!
# Clients

A client holds the account it acts for, the credentials of the paired device,
the token of the current session and whether a PIN has been accepted in it,
together with its surroundings: the service, the place where the pairing is
kept, and the record of what it sent and wrote.

`send` is the only step that reaches the service. Calls within a session go
through `callInSession`, which sends nothing while there is no session.
-/

namespace PvrBackend

/-- Who calls, and on which device. -/
structure Account where
  provider : Provider
  userName : String
  password : String
  /-- Name under which the device appears in the account. -/
  product : String
  serial : String
deriving DecidableEq, Repr, Inhabited

/-- The account of a user's settings on a device. -/
def Account.ofSettings (s : Settings) (device : Device) (now : Int) : Account where
  provider := s.provider
  userName := s.userName
  password := s.password
  product := if s.productId = "" then device.hostName.getD "" else s.productId
  serial := Device.serial s.deviceId device.address now

/-- What a paired device logs in with. -/
structure Credentials where
  deviceId : String := ""
  password : String := ""
deriving DecidableEq, Repr, Inhabited

def Credentials.valid (c : Credentials) : Bool := c.deviceId != "" && c.password != ""

/-- A request and what came back for it. -/
structure Exchange where
  request : Request
  reply : Reply
deriving DecidableEq, Repr

structure Client where
  account : Account
  credentials : Credentials := {}
  /-- Token of the session, empty when there is none. -/
  token : String := ""
  /-- Whether a PIN was accepted since the last login. -/
  pinUnlocked : Bool := false
  server : Server := {}
  pairStore : PairStore := {}
  /-- Requests with their replies, oldest first. -/
  exchanges : List Exchange := []
  /-- Texts written to the pair store, oldest first. -/
  writes : List String := []
deriving Inhabited

namespace Client

def loggedIn (c : Client) : Bool := c.token != ""

def send (c : Client) (r : Request) : Reply × Client :=
  let (reply, server) := c.server.answer r.endpoint
  (reply, { c with server, exchanges := c.exchanges ++ [⟨r, reply⟩] })

@[simp] theorem send_fst (c : Client) (r : Request) :
    (c.send r).1 = (c.server.answer r.endpoint).1 := rfl

@[simp] theorem send_exchanges (c : Client) (r : Request) :
    (c.send r).2.exchanges = c.exchanges ++ [⟨r, (c.send r).1⟩] := rfl

@[simp] theorem send_credentials (c : Client) (r : Request) :
    (c.send r).2.credentials = c.credentials := rfl

@[simp] theorem send_token (c : Client) (r : Request) : (c.send r).2.token = c.token := rfl

@[simp] theorem send_pinUnlocked (c : Client) (r : Request) :
    (c.send r).2.pinUnlocked = c.pinUnlocked := rfl

@[simp] theorem send_pairStore (c : Client) (r : Request) :
    (c.send r).2.pairStore = c.pairStore := rfl

@[simp] theorem send_account (c : Client) (r : Request) :
    (c.send r).2.account = c.account := rfl

@[simp] theorem send_writes (c : Client) (r : Request) : (c.send r).2.writes = c.writes := rfl

def request (c : Client) (e : Endpoint) (params : Params) (token : Option String) : Request :=
  ⟨c.account.provider, e, params, token⟩

/-- Call a function outside any session. -/
def call (c : Client) (e : Endpoint) (params : Params) : Except ApiError Json × Client :=
  let (reply, c) := c.send (c.request e params none)
  (reply.value, c)

/-- Call a function within the session; without one nothing is sent. -/
def callInSession (c : Client) (e : Endpoint) (params : Params) :
    Except ApiError Json × Client :=
  if c.loggedIn then
    let (reply, c) := c.send (c.request e params (some c.token))
    (reply.value, c)
  else (.error .notLoggedIn, c)

/-- Write a pairing record to its place. Only a successful write shows. -/
def storePairing (c : Client) (r : PairingRecord) : Client :=
  let text := r.render
  { c with
    pairStore := c.pairStore.write text
    writes := if c.pairStore.writable then c.writes ++ [text] else c.writes }

end Client

end PvrBackend
