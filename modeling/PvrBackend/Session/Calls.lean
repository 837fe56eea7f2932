import PvrBackend.Calendar.Stamp
import PvrBackend.Session.Login

/-!
# Calls within a session

Every function of the service that needs a session: its parameters, and what is
taken from its answer. Only an accepted PIN changes the client.
-/

namespace PvrBackend

/-- A stream that the service resolved, with the remote id of its channel. -/
structure RemoteStream where
  url : String
  channel : String
deriving DecidableEq, Repr

/-- A stream of a past event, with its length in seconds. -/
structure EventStream where
  url : String
  channel : String
  duration : Int
deriving DecidableEq, Repr

namespace Client

def pinUnlock (c : Client) (pin : String) : Except ApiError Unit × Client :=
  match c.callInSession .pinUnlock [("pin", pin)] with
  | (.error e, c) => (.error e, c)
  | (.ok _, c) => (.ok (), { c with pinUnlocked := true })

def keepAlive (c : Client) : Except ApiError Unit × Client :=
  let (result, c) := c.callInSession .keepAlive []
  (result.map (fun _ => ()), c)

/-- Stream formats that the client can play beyond the basic ones. -/
def capabilities (h265 adaptive : Bool) : String :=
  ",".intercalate ((if h265 then ["h265"] else []) ++ (if adaptive then ["adaptive2"] else []))

def playlist (c : Client) (quality : Quality) (h265 adaptive : Bool) :
    Except ApiError Json × Client :=
  c.callInSession .playlist
    [("uuid", c.account.serial), ("format", "m3u8"),
      ("quality", Decimal.natText quality.level), ("capabilities", capabilities h265 adaptive)]

def streamQualities (c : Client) : Except ApiError Json × Client :=
  c.callInSession .streamQualities []

/-- Minutes of the guide asked for: an hour, or a day but for its last minute. -/
def guideMinutes (small : Bool) : Nat := if small then 60 else 1439

def guideParams (start : Int) (small : Bool) (channels : String) : Params :=
  [("time", Calendar.timeText start), ("duration", Decimal.natText (guideMinutes small)),
    ("detail", "description,poster"), ("allowOrder", "1")] ++
    (if channels = "" then [] else [("channels", channels)])

/-- The guide from `start` on, of the listed channels or of all. -/
def guide (c : Client) (start : Int) (small : Bool) (channels : String) :
    Except ApiError Json × Client :=
  c.callInSession .guide (guideParams start small channels)

def recordings (c : Client) : Except ApiError Json × Client := c.callInSession .recordings []

def recordingStream (c : Client) (recordId : String) : Except ApiError RemoteStream × Client :=
  let (result, c) := c.callInSession .recordingStream [("recordId", recordId), ("format", "m3u8")]
  (result.map (fun root => ⟨root.textAt "url", root.textAt "channel"⟩), c)

def eventStream (c : Client) (eventId : String) : Except ApiError EventStream × Client :=
  let (result, c) := c.callInSession .eventStream [("eventId", eventId), ("format", "m3u8")]
  (result.map (fun root =>
    ⟨root.textAt "url", root.textAt "channel", root.intAt "duration"⟩), c)

/-- Schedule the recording of an event; the id of the new record. -/
def recordEvent (c : Client) (eventId : String) : Except ApiError String × Client :=
  let (result, c) := c.callInSession .recordEvent [("eventId", eventId)]
  (result.map (·.textAt "recordId"), c)

def deleteRecord (c : Client) (recordId : String) : Except ApiError Unit × Client :=
  let (result, c) := c.callInSession .deleteRecord [("recordId", recordId)]
  (result.map (fun _ => ()), c)

end Client

end PvrBackend
