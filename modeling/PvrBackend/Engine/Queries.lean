import PvrBackend.Engine.Basic
import PvrBackend.Session.Error

/-!
# What the host asks for

Questions that are answered from the store. Fetching channels or looking at the
guide leaves a mark: from then on changes of the lineup are reported, and the
window reaches as far as the host looked.
-/

namespace PvrBackend

/-- Why a request of the host failed. -/
inductive HostError where
  | noChannel (uid : Nat)
  | noBroadcast (id : Nat)
  | noRecording (id : String)
  | noEventAt (start : Int)
  /-- The service has no stream for a past event. -/
  | noStream (cause : ApiError)
  | pinRequired
  | server (cause : ApiError)
deriving DecidableEq, Repr

def HostError.message : HostError → String
  | .noChannel uid => "Invalid parameters: channel " ++ Decimal.natText uid
  | .noBroadcast id => "Invalid parameters: EPG entry " ++ Decimal.natText id
  | .noRecording id => "Invalid parameters: recording " ++ id
  | .noEventAt start => "Invalid parameters: event at " ++ Decimal.intText start
  | .noStream cause => "Invalid parameters: " ++ cause.message
  | .pinRequired => "Rejected: PIN required"
  | .server cause => "Server error: " ++ cause.message

namespace Engine

def backendName : String := "PVR sledovanitv.cz (unofficial)"

def connectionText : String := "connected"

def adapterStatus : String := "OK"

def adapterName (e : Engine) : String := e.client.account.provider.label

/-- Television or radio channels. From here on the host is told of changes. -/
def channels (e : Engine) (radio : Bool) : List Channel × Engine :=
  (e.store.lineup.channels.filter (fun c => c.isRadio == radio),
    { e with store := e.store.markDelivered })

def channelGroups (e : Engine) (radio : Bool) : List ChannelGroup :=
  e.store.lineup.groups.filter (fun g => g.isRadio == radio)

def groupMembers (e : Engine) (name : String) : List GroupMember := e.store.lineup.membersOf name

/-- The broadcasts of a channel in a span of time. The window is widened by that
span, so the worker will load what is missing. -/
def guideOf (e : Engine) (uid : Nat) (start stop : Int) : List GuideEntry × Engine :=
  let entries := do
    let channel ← Channel.withUid? e.store.lineup.channels uid
    let guide ← e.store.guide.channel? channel.id
    pure (guide.inRange start stop)
  (entries.getD [], { e with store := e.store.widenWindow start stop })

def setMaxDays (e : Engine) (future past : Int) : Engine :=
  { e with store := e.store.setMaxDays future past e.now }

def findChannel (e : Engine) (uid : Nat) : Except HostError Channel :=
  match Channel.withUid? e.store.lineup.channels uid with
  | some c => .ok c
  | none => .error (.noChannel uid)

def findBroadcast (e : Engine) (uid id : Nat) : Except HostError (Channel × GuideEntry) := do
  let channel ← e.findChannel uid
  match e.store.guide.entry? channel.id id with
  | some entry => pure (channel, entry)
  | none => throw (.noBroadcast id)

def findRecording (e : Engine) (id : String) : Except HostError Recording :=
  match e.store.recordings.find? (fun r => r.recordId == id) with
  | some r => .ok r
  | none => .error (.noRecording id)

/-- The recording of a broadcast, when there is one in the store. -/
def recordingOf? (e : Engine) (entry : GuideEntry) : Option String :=
  entry.recordId.filter e.store.recordingExists

/-- Whether a broadcast can be played: it has begun and is kept. -/
def isPlayable (e : Engine) (uid id : Nat) : Except HostError Bool := do
  let (_, entry) ← e.findBroadcast uid id
  pure (entry.availableTimeshift && entry.startTime < e.now)

/-- Whether a broadcast can be recorded: it has begun, is kept and has no
recording yet. -/
def isRecordable (e : Engine) (uid id : Nat) : Except HostError Bool := do
  let (_, entry) ← e.findBroadcast uid id
  pure (entry.availableTimeshift && (e.recordingOf? entry).isNone && entry.startTime < e.now)

end Engine

end PvrBackend
