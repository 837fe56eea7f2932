import PvrBackend.Engine.Queries

/-!
# What the host wants done

Streams to play, and changes of recordings and timers. Locked channels and
recordings are played only once the service has accepted a PIN in the session;
the host is asked for it at that moment.
-/

namespace PvrBackend.Engine

/-! ### The PIN -/

/-- Whether something locked may be played, asking for the PIN if need be. Once a
PIN is accepted locked recordings become visible, so a refresh is due. -/
def unlock (e : Engine) (locked : Bool) : Bool × Engine :=
  if !locked || e.client.pinUnlocked then (true, e)
  else
    let e := e.tell (.promptPin e.host.pinHeading)
    match e.host.pin with
    | none => (false, e)
    | some pin =>
      match e.client.pinUnlock pin with
      | (.error _, client) => (false, { e with client })
      | (.ok (), client) => (true, { e with client, store := e.store.requestRecordings })

/-- Play something that may be locked. -/
def guarded {α : Type} (e : Engine) (locked : Bool)
    (play : Engine → Except HostError α × Engine) : Except HostError α × Engine :=
  match e.unlock locked with
  | (false, e) => (.error .pinRequired, e)
  | (true, e) => play e

/-! ### Streams -/

def channelStream (e : Engine) (uid : Nat) : Except HostError Stream × Engine :=
  match e.findChannel uid with
  | .error err => (.error err, e)
  | .ok c => e.guarded c.isPinLocked fun e => (.ok ⟨c.streamUrl, c.streamType⟩, e)

def recordingStream (e : Engine) (id : String) : Except HostError Stream × Engine :=
  match e.findRecording id with
  | .error err => (.error err, e)
  | .ok r => e.guarded r.isPinLocked fun e => (.ok ⟨r.streamUrl, r.streamType⟩, e)

/-- The stream that the service has for a past event. -/
def eventStream (e : Engine) (eventId : String) : Except HostError Stream × Engine :=
  match e.client.eventStream eventId with
  | (.error cause, client) => (.error (.noStream cause), { e with client })
  | (.ok s, client) =>
    (.ok ⟨s.url, Channel.streamTypeOf e.store.lineup.channels s.channel⟩, { e with client })

/-- The stream of a past broadcast: its recording if there is one, else the event. -/
def broadcastStream (e : Engine) (uid id : Nat) : Except HostError Stream × Engine :=
  match e.findBroadcast uid id with
  | .error err => (.error err, e)
  | .ok (c, entry) => e.guarded c.isPinLocked fun e =>
    match e.recordingOf? entry with
    | some recordId => e.recordingStream recordId
    | none => e.eventStream entry.eventId

def withProperties (r : Except HostError Stream × Engine) (isLive : Bool) :
    Except HostError (List Stream.Property) × Engine :=
  (r.1.map (·.properties r.2.settings.useAdaptive isLive), r.2)

def channelStreamProperties (e : Engine) (uid : Nat) :
    Except HostError (List Stream.Property) × Engine :=
  withProperties (e.channelStream uid) true

def broadcastStreamProperties (e : Engine) (uid id : Nat) :
    Except HostError (List Stream.Property) × Engine :=
  withProperties (e.broadcastStream uid id) false

def recordingStreamProperties (e : Engine) (id : String) :
    Except HostError (List Stream.Property) × Engine :=
  withProperties (e.recordingStream id) false

/-! ### Recordings and timers -/

/-- Have the event recorded that starts at a time on a channel. The broadcast is
linked to its record, and a refresh of the recordings is due. -/
def addTimer (e : Engine) (uid : Nat) (start : Int) : Except HostError Unit × Engine :=
  match e.findChannel uid with
  | .error err => (.error err, e)
  | .ok c =>
    match e.store.guide.entry? c.id start with
    | none => (.error (.noEventAt start), e)
    | some entry =>
      match e.client.recordEvent entry.eventId with
      | (.error cause, client) => (.error (.server cause), { e with client })
      | (.ok recordId, client) =>
        let (_, store) := e.store.updateGuide fun g => ((), g.setRecord c.id start recordId)
        (.ok (), { e with client, store := store.requestRecordings })

/-- Delete a recording; a refresh of the recordings is due. -/
def deleteRecording (e : Engine) (id : String) : Except HostError Unit × Engine :=
  match e.client.deleteRecord id with
  | (.error cause, client) => (.error (.server cause), { e with client })
  | (.ok (), client) => (.ok (), { e with client, store := e.store.requestRecordings })

def deleteTimer (e : Engine) (index : Nat) : Except HostError Unit × Engine :=
  e.deleteRecording (Decimal.natText index)

end PvrBackend.Engine
