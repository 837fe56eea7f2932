/-!
# Recordings and timers

A record of the service is a recording once its broadcast is over and a timer
before that.
-/

namespace PvrBackend

/-- A finished recording. -/
structure Recording where
  recordId : String := ""
  title : String := ""
  plotOutline : String := ""
  channelName : String := ""
  channelUid : Option Nat := none
  startTime : Int := 0
  /-- Seconds. -/
  duration : Int := 0
  lifetimeDays : Int := 0
  directory : String := ""
  isRadio : Bool := false
  isPinLocked : Bool := false
  streamUrl : String := ""
  streamType : String := ""
deriving DecidableEq, Repr, Inhabited

/-- Whether a timer's broadcast is on the air. -/
inductive TimerState where
  | scheduled
  | recording
deriving DecidableEq, Repr, Inhabited

/-- A recording that is still to come or under way. -/
structure Timer where
  /-- Number of the record. -/
  clientIndex : Nat := 0
  channelUid : Option Nat := none
  startTime : Int := 0
  endTime : Int := 0
  state : TimerState := .scheduled
  title : String := ""
  summary : String := ""
  lifetimeDays : Int := 0
  directory : String := ""
deriving DecidableEq, Repr, Inhabited

/-- How much may be recorded and how much is, in the host's units. -/
structure DriveSpace where
  total : Nat := 0
  used : Nat := 0
deriving DecidableEq, Repr, Inhabited

structure Listing where
  recordings : List Recording := []
  timers : List Timer := []
  driveSpace : DriveSpace := {}
deriving DecidableEq, Repr, Inhabited

namespace Recording

/-- Take the streams that `previous` has for the same records; the first of
several counts. -/
def inheritStreams (previous : List Recording) (recordings : List Recording) : List Recording :=
  recordings.map fun r =>
    match previous.find? (fun old => old.recordId == r.recordId) with
    | some old => { r with streamUrl := old.streamUrl, streamType := old.streamType }
    | none => r

/-- Whether two lists differ in number, records or stream addresses, place by place. -/
def differ (old new : List Recording) : Bool :=
  old.length != new.length ||
    (old.zip new).any (fun (o, n) => o.recordId != n.recordId || o.streamUrl != n.streamUrl)

end Recording

namespace Timer

/-- Whether two lists differ in number or records, place by place. -/
def differ (old new : List Timer) : Bool :=
  old.length != new.length || (old.zip new).any (fun (o, n) => o.clientIndex != n.clientIndex)

end Timer

end PvrBackend
