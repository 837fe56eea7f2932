import PvrBackend.Session.Client

/-!
# Pairing and logging in

A login needs the credentials of a paired device. If the client has none it
takes them from the stored pairing, provided that this belongs to the same user
and device; otherwise it removes the stored pairing from the account and pairs
the device anew.

When the service gives no answer to the login, everything is kept for the next
attempt. When it answers with anything but a session token, the session and the
credentials are dropped, and the stored pairing loses its owner, so the next
login pairs again but still knows which device to remove.
-/

namespace PvrBackend.Client

def version : String := "2.6.21"

def deviceType : String := "androidportable"

/-- Reasons for which removing a pairing counts as done: the device is not known
any more. -/
def alreadyGone : List String := ["no device", "not logged"]

def deletePairingParams (c : Client) (r : PairingRecord) : Params :=
  [("deviceId", r.deviceId), ("password", r.password), ("unit", c.account.provider.unit)]

def createPairingParams (c : Client) : Params :=
  [("username", c.account.userName), ("password", c.account.password), ("type", deviceType),
    ("serial", c.account.serial), ("product", c.account.product),
    ("unit", c.account.provider.unit), ("checkLimit", "1")]

def loginParams (c : Client) : Params :=
  [("deviceId", c.credentials.deviceId), ("password", c.credentials.password),
    ("version", version), ("lang", "en"), ("unit", c.account.provider.unit)]

/-- Remove a stored pairing from the account; whether it is gone. A record
without a device has nothing to remove. -/
def deletePairing (c : Client) (r : PairingRecord) : Bool × Client :=
  if r.deviceId = "" then (true, c)
  else
    match c.call .deletePairing (c.deletePairingParams r) with
    | (.ok _, c) => (true, c)
    | (.error e, c) => (e.serverReason.any alreadyGone.contains, c)

def createPairing (c : Client) : Except ApiError PairingRecord × Client :=
  match c.call .createPairing c.createPairingParams with
  | (.error e, c) => (.error e, c)
  | (.ok root, c) =>
    match PairingRecord.ofJson? root with
    | none => (.error .malformed, c)
    | some r => (.ok r, c)

/-- Take over the credentials of a record, if it names a device. -/
def adopt (c : Client) (r : PairingRecord) : Except ApiError Unit × Client :=
  let credentials : Credentials := ⟨r.deviceId, r.password⟩
  if credentials.valid then (.ok (), { c with credentials })
  else (.error (.pairing .noCredentials), c)

/-- Pair the device anew, store the record under this user and device, and take
over its credentials. -/
def pairAnew (c : Client) : Except ApiError Unit × Client :=
  match c.createPairing with
  | (.error e, c) => (.error e, c)
  | (.ok r, c) =>
    match c.adopt r with
    | (.error e, c) => (.error e, c)
    | (.ok (), c) =>
      (.ok (), c.storePairing
        { r with userName := c.account.userName, serial := c.account.serial })

/-- Obtain credentials: from the stored pairing if it is usable, else by pairing
anew once the stored one is removed. -/
def pair (c : Client) : Except ApiError Unit × Client :=
  match c.pairStore.record? with
  | none => c.pairAnew
  | some stored =>
    if stored.isFor c.account.userName c.account.serial then c.adopt stored
    else
      match c.deletePairing stored with
      | (false, c) => (.error (.pairing .previousKept), c)
      | (true, c) => c.pairAnew

/-- Obtain credentials unless the client has some. -/
def ensureCredentials (c : Client) : Except ApiError Unit × Client :=
  if c.credentials.valid then (.ok (), c) else c.pair

def tokenOf (root : Json) : Except ApiError String :=
  let token := root.textAt tokenKey
  if token = "" then .error .noToken else .ok token

/-- Drop the owner of the stored pairing but keep its device. -/
def disownPairing (c : Client) : Client :=
  c.storePairing { c.pairStore.record?.getD {} with userName := "" }

/-- Drop session and credentials after a rejected login. -/
def reject (c : Client) : Client :=
  { ({ c with credentials := {} }.disownPairing) with token := "" }

/-- Log in with the credentials that the client has. -/
def openSession (c : Client) : Except ApiError Unit × Client :=
  match c.call .deviceLogin c.loginParams with
  | (result, c) =>
    match result.bind tokenOf with
    | .ok token => (.ok (), { c with token })
    | .error e => (.error e, if e.isTransport then c else c.reject)

/-- Log in, pairing first if needed. The PIN counts as not entered from here on. -/
def login (c : Client) : Except ApiError Unit × Client :=
  match { c with pinUnlocked := false }.ensureCredentials with
  | (.error e, c) => (.error e, c)
  | (.ok (), c) => c.openSession

end PvrBackend.Client
