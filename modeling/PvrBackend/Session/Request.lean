import PvrBackend.Settings.Basic
import PvrBackend.Text.Form

/-!
# Requests

A request names a function of the service, its parameters in order and, for a
call within a session, the session token. Parameter values are encoded, so none
of them can add or hide a parameter; keys and the token stand as they are.
-/

namespace PvrBackend

/-- A function of the service. -/
inductive Endpoint where
  | createPairing
  | deletePairing
  | deviceLogin
  | pinUnlock
  | keepAlive
  | playlist
  | streamQualities
  | guide
  | recordings
  | recordingStream
  | eventStream
  | recordEvent
  | deleteRecord
deriving DecidableEq, Repr

def Endpoint.name : Endpoint → String
  | .createPairing => "create-pairing"
  | .deletePairing => "delete-pairing"
  | .deviceLogin => "device-login"
  | .pinUnlock => "pin-unlock"
  | .keepAlive => "keepalive"
  | .playlist => "playlist"
  | .streamQualities => "get-stream-qualities"
  | .guide => "epg"
  | .recordings => "get-pvr"
  | .recordingStream => "record-timeshift"
  | .eventStream => "event-timeshift"
  | .recordEvent => "record-event"
  | .deleteRecord => "delete-record"

/-- Parameters by name, in order. -/
abbrev Params := List (String × String)

/-- Name of the parameter that carries the session token. -/
def tokenKey : String := "PHPSESSID"

/-- The query of a request: its parameters, then the session token as it was issued. -/
def query (params : Params) (token : Option String) : String :=
  let pairs := Text.Form.encodePairs params
  match token with
  | none => pairs
  | some t => (if pairs = "" then "" else pairs ++ "&") ++ tokenKey ++ "=" ++ t

structure Request where
  provider : Provider
  endpoint : Endpoint
  params : Params
  /-- The session that the call is made in. -/
  token : Option String
deriving DecidableEq, Repr

def Request.url (r : Request) : String :=
  r.provider.apiUrl ++ r.endpoint.name ++ "?" ++ query r.params r.token

end PvrBackend
