import PvrBackend.Calendar.Stamp
import PvrBackend.Json.Basic
import PvrBackend.Lineup.Playlist
import PvrBackend.Recording.Basic

/-!
# Recordings and timers in an answer

Records without a readable start are left out. A record that has ended before
`now` is a recording; any other is a timer, as long as its number fits 32 bits.
Both appear in the order of the listing. Ends and quotas are computed in 64 bits,
so one that is too large for them wraps around.
-/

namespace PvrBackend.Listing

/-- Seconds of recording time in the host's units: 1024 for every full minute, in 64 bits. -/
def quotaUnits (seconds : Int) : Nat := seconds.toNat / 60 * 1024 % 0x10000000000000000

/-- Whole days until a record expires, towards zero; none when that is unknown. -/
def lifetimeDays (record : Json) (now : Int) : Int :=
  match Calendar.readMidnight (record.textAt "expires") with
  | some expires => (expires - now).tdiv Calendar.daySeconds
  | none => 0

/-- The end of a record that starts at a moment. -/
def endOf (record : Json) (start : Int) : Int :=
  Calendar.wrap (start + record.intAt "duration")

/-- The directory of a record on a channel locked for a reason. -/
def directory (lockedLabel reason : String) : String :=
  if reason = Settings.unlocked then "" else lockedLabel ++ " - " ++ reason

def recordingOf (record : Json) (channels : List Channel) (lockedLabel : String)
    (now start : Int) : Recording :=
  let channel := Channel.withId? channels (record.textAt "channel")
  let reason := Lineup.lockReason record "channelLocked"
  { recordId := Decimal.intText (record.intAt "id")
    title := record.textAt "title"
    plotOutline := ((record.get? "event").map (·.textAt "description")).getD ""
    channelName := (channel.map (·.name)).getD ""
    channelUid := channel.map (·.uniqueId)
    startTime := start
    duration := record.intAt "duration"
    lifetimeDays := lifetimeDays record now
    directory := directory lockedLabel reason
    isRadio := channel.any (·.isRadio)
    isPinLocked := reason == Settings.pinLocked
    streamUrl := ""
    streamType := "" }

def timerOf (record : Json) (channels : List Channel) (lockedLabel : String)
    (now start : Int) (index : Nat) : Timer :=
  let channel := Channel.withId? channels (record.textAt "channel")
  let stop := endOf record start
  { clientIndex := index
    channelUid := channel.map (·.uniqueId)
    startTime := start
    endTime := stop
    state := if start ≤ now ∧ now < stop then .recording else .scheduled
    title := record.textAt "title"
    summary := ((record.get? "event").map (·.textAt "description")).getD ""
    lifetimeDays := lifetimeDays record now
    directory := directory lockedLabel (Lineup.lockReason record "channelLocked") }

/-- What a record is at a moment. -/
inductive Item where
  | recording (r : Recording)
  | timer (t : Timer)
deriving DecidableEq, Repr

def itemOf (channels : List Channel) (lockedLabel : String) (now : Int) (record : Json) :
    Option Item := do
  let start ← Calendar.readTime (record.textAt "startTime")
  let id := record.intAt "id"
  if endOf record start < now then
    pure (.recording (recordingOf record channels lockedLabel now start))
  else if 0 ≤ id ∧ id < 0x100000000 then
    pure (.timer (timerOf record channels lockedLabel now start id.toNat))
  else none

def Item.recording? : Item → Option Recording
  | .recording r => some r
  | .timer _ => none

def Item.timer? : Item → Option Timer
  | .timer t => some t
  | .recording _ => none

/-- The recordings, timers and drive space of an answer. -/
def ofAnswer (channels : List Channel) (lockedLabel : String) (now : Int) (root : Json) :
    Listing :=
  let summary := (root.get? "summary").getD .null
  let items := (root.itemsAt "records").filterMap (itemOf channels lockedLabel now)
  { recordings := items.filterMap Item.recording?
    timers := items.filterMap Item.timer?
    driveSpace := ⟨quotaUnits (summary.intAt "availableDuration"),
      quotaUnits (summary.intAt "recordedDuration")⟩ }

end PvrBackend.Listing
