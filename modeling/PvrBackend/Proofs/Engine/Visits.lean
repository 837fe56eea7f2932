import PvrBackend.Proofs.Engine.Scenes

/-!
# Calls from gate to gate

A call of the host that has something played is taken apart here at the gates that it comes to. What
is behind a gate may depend on what the call sees when it gets there, so it is a function of the
engine. Left to itself, such a call has played what the engine plays in one go.
-/

namespace PvrBackend

/-- What the host gets of something that is played. -/
inductive Answer where
  | stream (s : Stream)
  | properties (ps : List Stream.Property)

/-- What a call that has something played has to do, from one gate to the next. -/
inductive Visit where
  | ends (answer : Except HostError Answer)
  /-- Look at the engine. -/
  | looks (rest : Engine → Visit)
  /-- Come to the gate of something that is locked or not. -/
  | gate (locked : Bool) (behind : Visit)
  /-- Ask the service for the stream of a past event. -/
  | event (eventId : String) (finish : Stream → Answer)

namespace Visit

def channel (finish : Stream → Answer) (uid : Nat) : Visit :=
  looks fun e =>
    match e.findChannel uid with
    | .error err => ends (.error err)
    | .ok c => gate c.isPinLocked (ends (.ok (finish ⟨c.streamUrl, c.streamType⟩)))

def recording (finish : Stream → Answer) (id : String) : Visit :=
  looks fun e =>
    match e.findRecording id with
    | .error err => ends (.error err)
    | .ok r => gate r.isPinLocked (ends (.ok (finish ⟨r.streamUrl, r.streamType⟩)))

/-- The recording of a broadcast has a gate of its own. -/
def broadcast (finish : Stream → Answer) (uid id : Nat) : Visit :=
  looks fun e =>
    match e.findBroadcast uid id with
    | .error err => ends (.error err)
    | .ok (c, entry) => gate c.isPinLocked <| looks fun e =>
      match e.recordingOf? entry with
      | some recordId => recording finish recordId
      | none => event entry.eventId finish

/-- What a call does to have something played. -/
def of (finish : Stream → Answer) : Playback → Visit
  | .channel uid => channel finish uid
  | .recording id => recording finish id
  | .broadcast uid id => broadcast finish uid id

/-- What comes of a call that is left to itself. -/
def run : Visit → Engine → Except HostError Answer × Engine
  | ends answer, e => (answer, e)
  | looks rest, e => (rest e).run e
  | gate locked behind, e => e.guarded locked behind.run
  | event id finish, e => ((e.eventStream id).1.map finish, (e.eventStream id).2)

end Visit

theorem Engine.guarded_map {α β : Type} (e : Engine) (locked : Bool) (f : α → β)
    (play : Engine → Except HostError α × Engine) :
    e.guarded locked (fun e => ((play e).1.map f, (play e).2)) =
      ((e.guarded locked play).1.map f, (e.guarded locked play).2) := by
  rw [guarded, guarded]
  rcases e.unlock locked with ⟨_ | _, e'⟩ <;> rfl

namespace Visit

theorem run_recording (finish : Stream → Answer) (id : String) (e : Engine) :
    (recording finish id).run e =
      ((e.recordingStream id).1.map finish, (e.recordingStream id).2) := by
  rw [recording, run, Engine.recordingStream]
  cases e.findRecording id with
  | error err => rfl
  | ok r => exact e.guarded_map _ finish fun e => (.ok ⟨r.streamUrl, r.streamType⟩, e)

/-- A call that is left to itself has played what the engine plays. -/
theorem run_of (finish : Stream → Answer) (what : Playback) (e : Engine) :
    (of finish what).run e = ((e.play what).1.map finish, (e.play what).2) := by
  cases what with
  | channel uid =>
      rw [of, channel, run, Engine.play, Engine.channelStream]
      cases e.findChannel uid with
      | error err => rfl
      | ok c => exact e.guarded_map _ finish fun e => (.ok ⟨c.streamUrl, c.streamType⟩, e)
  | recording id => exact run_recording finish id e
  | broadcast uid id =>
      rw [of, broadcast, run, Engine.play, Engine.broadcastStream]
      cases e.findBroadcast uid id with
      | error err => rfl
      | ok there =>
          obtain ⟨c, entry⟩ := there
          dsimp only
          rw [run, ← Engine.guarded_map]
          congr 1
          funext e'
          rw [run]
          cases e'.recordingOf? entry with
          | none => rfl
          | some recordId => exact run_recording finish recordId e'

end Visit

/-- What the host asks for. -/
inductive Wish where
  | stream
  | properties

/-- Whether the stream is live. -/
def Playback.isLive : Playback → Bool
  | .channel _ => true
  | .recording _ | .broadcast .. => false

/-- What is made of a stream for the host. -/
def Wish.finish (what : Playback) (useAdaptive : Bool) : Wish → Stream → Answer
  | .stream, s => .stream s
  | .properties, s => .properties (s.properties useAdaptive what.isLive)

/-- A call for properties that is left to itself answers with those of the engine. -/
theorem Visit.run_of_properties (what : Playback) (e : Engine) :
    ((of (Wish.properties.finish what e.settings.useAdaptive) what).run e).1 =
      (e.playProperties what).1.map .properties := by
  have same := (e.disturbed_play what).settings
  have made : (e.playProperties what).1 = (e.play what).1.map
      (·.properties e.settings.useAdaptive what.isLive) := by
    rw [← same]
    cases what <;> rfl
  rw [run_of, made]
  cases (e.play what).1 <;> rfl

end PvrBackend
