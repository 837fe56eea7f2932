import PvrBackend.Proofs.Engine.PinGate
import PvrBackend.Proofs.Guide.Mirror

/-!
# Calls of the host that fail

A call of the host can fail at several depths: what it names is not there, no PIN is
entered, there is no session, or the service does not answer or does not agree. By then
a PIN may have been accepted, and that stays, along with the refresh of the recordings
that is due since. Nothing else is left of a call that fails, but for the requests that
it sent.

A call that has an event recorded and succeeds changes one record in the guide, and
nothing beside it.
-/

namespace PvrBackend

theorem Exchange.unlocks_of_ne {x : Exchange} (other : x.request.endpoint ≠ .pinUnlock) :
    x.unlocks = false := by
  simp [unlocks, other]

namespace Client

/-- What becomes of a call in the session: with a session the request is sent and its reply
decides, without one nothing happens. -/
inductive Spoken (c : Client) (e : Endpoint) (params : Params) :
    Except ApiError Json × Client → Prop where
  | sent {c' : Client} {reply : Reply} (session : c.loggedIn = true)
      (called : Called c c' [⟨c.request e params (some c.token), reply⟩]) :
      Spoken c e params (reply.value, c')
  | unsent (closed : c.loggedIn = false) : Spoken c e params (.error .notLoggedIn, c)

theorem callInSession_spoken (c : Client) (e : Endpoint) (params : Params) :
    Spoken c e params (c.callInSession e params) := by
  by_cases session : c.loggedIn = true
  · obtain ⟨reply, value, called⟩ := callInSession_sends session e params
    have same : c.callInSession e params = (reply.value, (c.callInSession e params).2) :=
      Prod.ext value rfl
    rw [same]
    exact .sent session called
  · have unsent : c.callInSession e params = (.error .notLoggedIn, c) := if_neg session
    rw [unsent]
    exact .unsent (Bool.eq_false_iff.mpr session)

/-- Entering a PIN sends one request at most, and the PIN counts as entered from then on if
it was accepted. -/
theorem pinUnlock_eq (c : Client) (pin : String) : ∃ xs server,
    c.pinUnlock pin = ((c.pinUnlock pin).1,
        { c with
          server
          pinUnlocked := c.pinUnlocked || xs.any Exchange.unlocks
          exchanges := c.exchanges ++ xs }) ∧
      (c.pinUnlock pin).1.isOk = xs.any Exchange.unlocks ∧
      ∀ x ∈ xs, x.request.endpoint = .pinUnlock := by
  have spoken := c.callInSession_spoken .pinUnlock [("pin", pin)]
  rw [pinUnlock]
  generalize c.callInSession .pinUnlock [("pin", pin)] = attempt at spoken ⊢
  cases spoken with
  | unsent closed =>
      refine ⟨[], c.server, ?_, rfl, List.forall_mem_nil _⟩
      simp
  | @sent c' reply session called =>
      obtain ⟨server, rfl⟩ := called
      let x : Exchange := ⟨c.request .pinUnlock [("pin", pin)] (some c.token), reply⟩
      have unlocks : [x].any Exchange.unlocks = reply.value.isOk := Bool.or_false _
      refine ⟨[x], server, ?_, ?_, List.forall_mem_singleton.mpr rfl⟩
      · rw [unlocks]
        cases reply.value with
        | error err => simp [x, Except.isOk, Except.toBool]
        | ok root => simp [x, Except.isOk, Except.toBool]
      · rw [unlocks]
        cases reply.value <;> rfl

end Client

/-- A call of the host that may fail. -/
inductive HostRequest where
  | play (what : Playback)
  | playProperties (what : Playback)
  | isPlayable (uid id : Nat)
  | isRecordable (uid id : Nat)
  | addTimer (uid : Nat) (start : Int)
  | deleteRecording (id : String)
  | deleteTimer (index : Nat)
deriving DecidableEq, Repr

namespace Engine

open Client (Called Spoken)

/-- The failure of a call, if it fails, and the engine after it. -/
def outcome {α : Type} (answer : Except HostError α × Engine) : Except HostError Unit × Engine :=
  (answer.1.map fun _ => (), answer.2)

/-- Answer a call. Its questions are answered from the store, and leave the engine as it is. -/
def respond (e : Engine) : HostRequest → Except HostError Unit × Engine
  | .play what => outcome (e.play what)
  | .playProperties what => outcome (e.playProperties what)
  | .isPlayable uid id => outcome (e.isPlayable uid id, e)
  | .isRecordable uid id => outcome (e.isRecordable uid id, e)
  | .addTimer uid start => e.addTimer uid start
  | .deleteRecording id => e.deleteRecording id
  | .deleteTimer index => e.deleteTimer index

/-! ### What a call leaves behind -/

/-- Between two states of an engine nothing happened but these exchanges, and what the host
was told and asked. If a PIN was accepted in one of them, it counts as entered, and a
refresh of the recordings is due. -/
def Tried (e e' : Engine) (xs : List Exchange) : Prop :=
  ∃ server callbacks, e' =
    { e with
      client := { e.client with
        server
        pinUnlocked := e.client.pinUnlocked || xs.any Exchange.unlocks
        exchanges := e.client.exchanges ++ xs }
      store := { e.store with
        loadRecordings := e.store.loadRecordings || xs.any Exchange.unlocks }
      callbacks }

theorem Tried.trans {e e' e'' : Engine} {xs ys : List Exchange} (first : e.Tried e' xs)
    (second : e'.Tried e'' ys) : e.Tried e'' (xs ++ ys) := by
  obtain ⟨_, _, rfl⟩ := first
  obtain ⟨server, callbacks, rfl⟩ := second
  refine ⟨server, callbacks, ?_⟩
  simp only [List.any_append, Bool.or_assoc, List.append_assoc]

/-- Calls in which no PIN is accepted leave nothing but their exchanges. -/
theorem tried_of_called {e : Engine} {client : Client} {xs : List Exchange}
    (called : Called e.client client xs) (plain : ∀ x ∈ xs, x.unlocks = false)
    (callbacks : List Callback) : e.Tried { e with client, callbacks } xs := by
  obtain ⟨server, rfl⟩ := called
  have none : xs.any Exchange.unlocks = false := by simpa using plain
  refine ⟨server, callbacks, ?_⟩
  rw [none, Bool.or_false, Bool.or_false]

theorem Tried.refl (e : Engine) : e.Tried e [] :=
  tried_of_called (.refl e.client) (List.forall_mem_nil _) e.callbacks

/-- A call for something else than to enter a PIN leaves its exchange behind, if there is a
session. -/
theorem tried_of_spoken {e : Engine} {endpoint : Endpoint} {params : Params}
    (other : endpoint ≠ .pinUnlock) {attempt : Except ApiError Json × Client}
    (spoken : Spoken e.client endpoint params attempt) : ∃ xs,
      e.Tried { e with client := attempt.2 } xs ∧
        ∀ x ∈ xs, x.request.endpoint = endpoint ∧ x.request.params = params := by
  cases spoken with
  | unsent closed => exact ⟨[], .refl e, List.forall_mem_nil _⟩
  | @sent c' reply session called =>
      have plain : ∀ x ∈ [(⟨e.client.request endpoint params (some e.client.token), reply⟩ :
          Exchange)], x.unlocks = false :=
        List.forall_mem_singleton.mpr (Exchange.unlocks_of_ne other)
      exact ⟨_, tried_of_called called plain e.callbacks, List.forall_mem_singleton.mpr ⟨rfl, rfl⟩⟩

/-! ### Gates and streams -/

theorem unlock_tried (e : Engine) (locked : Bool) : ∃ xs, e.Tried (e.unlock locked).2 xs ∧
    ∀ x ∈ xs, x.request.endpoint = .pinUnlock := by
  rw [unlock]
  split
  next => exact ⟨[], .refl e, List.forall_mem_nil _⟩
  next =>
    dsimp only
    split
    next => exact ⟨[], tried_of_called (.refl e.client) (List.forall_mem_nil _) _,
      List.forall_mem_nil _⟩
    next pin entered =>
      obtain ⟨xs, server, left, accepted, asked⟩ := e.client.pinUnlock_eq pin
      refine ⟨xs, ?_, asked⟩
      rw [show (e.tell (.promptPin e.host.pinHeading)).client.pinUnlock pin = _ from left]
      cases answer : (e.client.pinUnlock pin).1 with
      | error err =>
          have plain : xs.any Exchange.unlocks = false := by rw [← accepted, answer]; rfl
          refine ⟨server, e.prompted.callbacks, ?_⟩
          rw [plain, Bool.or_false, Bool.or_false]
          rfl
      | ok _ =>
          have taken : xs.any Exchange.unlocks = true := by rw [← accepted, answer]; rfl
          refine ⟨server, e.prompted.callbacks, ?_⟩
          rw [taken, Bool.or_true, Bool.or_true]
          rfl

theorem guarded_eq {α : Type} (e : Engine) (locked : Bool)
    (play : Engine → Except HostError α × Engine) : e.guarded locked play =
      if (e.unlock locked).1 then play (e.unlock locked).2
      else (.error .pinRequired, (e.unlock locked).2) := by
  rw [guarded]
  rcases e.unlock locked with ⟨_ | _, e'⟩ <;> rfl

/-- Behind a gate comes what leaves its own exchanges behind; those for the gate come first. -/
theorem guarded_tried {α : Type} {e : Engine} {locked : Bool}
    {play : Engine → Except HostError α × Engine} {Asks : Exchange → Prop}
    (enters : ∀ x : Exchange, x.request.endpoint = .pinUnlock → Asks x)
    (rest : ∀ e' : Engine, ∃ ys, e'.Tried (play e').2 ys ∧ ∀ y ∈ ys, Asks y) :
    ∃ xs, e.Tried (e.guarded locked play).2 xs ∧ ∀ x ∈ xs, Asks x := by
  obtain ⟨xs, tried, asked⟩ := e.unlock_tried locked
  rw [guarded_eq]
  split
  next =>
    obtain ⟨ys, played, asked'⟩ := rest (e.unlock locked).2
    refine ⟨xs ++ ys, tried.trans played, ?_⟩
    intro x mem
    rcases List.mem_append.mp mem with mem | mem
    · exact enters x (asked x mem)
    · exact asked' x mem
  next =>
    refine ⟨xs, tried, ?_⟩
    intro x mem
    exact enters x (asked x mem)

theorem channelStream_tried (e : Engine) (uid : Nat) :
    ∃ xs, e.Tried (e.channelStream uid).2 xs ∧ ∀ x ∈ xs, x.request.endpoint = .pinUnlock := by
  rw [channelStream]
  split
  next => exact ⟨[], .refl e, List.forall_mem_nil _⟩
  next =>
    apply guarded_tried
    · exact fun _ enters => enters
    · exact fun e' => ⟨[], .refl e', List.forall_mem_nil _⟩

theorem recordingStream_tried (e : Engine) (id : String) :
    ∃ xs, e.Tried (e.recordingStream id).2 xs ∧ ∀ x ∈ xs, x.request.endpoint = .pinUnlock := by
  rw [recordingStream]
  split
  next => exact ⟨[], .refl e, List.forall_mem_nil _⟩
  next =>
    apply guarded_tried
    · exact fun _ enters => enters
    · exact fun e' => ⟨[], .refl e', List.forall_mem_nil _⟩

/-- Parameters of a request for the stream of a past event. -/
def streamParams (eventId : String) : Params := [("eventId", eventId), ("format", "m3u8")]

/-- Whatever the answer, the engine is left after the call. -/
theorem eventStream_snd (e : Engine) (eventId : String) : (e.eventStream eventId).2 =
    { e with client := (e.client.callInSession .eventStream (streamParams eventId)).2 } := by
  rw [eventStream, Client.eventStream, streamParams]
  obtain ⟨_ | root, client⟩ := e.client.callInSession .eventStream _
  · rfl
  · rfl

theorem eventStream_tried (e : Engine) (eventId : String) :
    ∃ xs, e.Tried (e.eventStream eventId).2 xs ∧
      ∀ x ∈ xs, x.request.endpoint = .eventStream ∧ x.request.params = streamParams eventId := by
  rw [eventStream_snd]
  exact tried_of_spoken (by decide) (e.client.callInSession_spoken _ _)

/-- What a call for a past broadcast asks the service for: to accept a PIN, or for the
stream of the event. -/
def SeeksStream (eventId : String) (x : Exchange) : Prop :=
  x.request.endpoint = .pinUnlock ∨
    x.request.endpoint = .eventStream ∧ x.request.params = streamParams eventId

theorem broadcastStream_tried {e : Engine} {uid id : Nat} {c : Channel} {entry : GuideEntry}
    (found : e.findBroadcast uid id = .ok (c, entry)) :
    ∃ xs, e.Tried (e.broadcastStream uid id).2 xs ∧ ∀ x ∈ xs, SeeksStream entry.eventId x := by
  rw [broadcastStream, found]
  apply guarded_tried
  · intro x enters
    exact .inl enters
  · intro e'
    split
    next recordId _ =>
      obtain ⟨xs, tried, asked⟩ := e'.recordingStream_tried recordId
      exact ⟨xs, tried, fun x mem => .inl (asked x mem)⟩
    next =>
      obtain ⟨xs, tried, asked⟩ := e'.eventStream_tried entry.eventId
      exact ⟨xs, tried, fun x mem => .inr (asked x mem)⟩

/-- Whether it succeeds or not, having something played publishes nothing. -/
theorem play_tried (e : Engine) (what : Playback) : ∃ xs, e.Tried (e.play what).2 xs := by
  cases what with
  | channel uid =>
      obtain ⟨xs, tried, -⟩ := e.channelStream_tried uid
      exact ⟨xs, tried⟩
  | recording id =>
      obtain ⟨xs, tried, -⟩ := e.recordingStream_tried id
      exact ⟨xs, tried⟩
  | broadcast uid id =>
      cases found : e.findBroadcast uid id with
      | error err =>
          rw [play, broadcastStream, found]
          exact ⟨[], .refl e⟩
      | ok there =>
          obtain ⟨xs, tried, -⟩ := broadcastStream_tried found
          exact ⟨xs, tried⟩

end Engine

/-! ### Recordings and timers -/

/-- The guides differ in the record of one broadcast and nowhere else. -/
structure Guide.DiffersAt (g g' : Guide) (id : String) (start : Int) (recordId : String) :
    Prop where
  noted : g'.entry? id start =
    (g.entry? id start).map fun entry => { entry with recordId := some recordId }
  others : ∀ id' start', ¬ (id' = id ∧ start' = start) → g'.entry? id' start' = g.entry? id' start'
  /-- All of the other channels is shared, and no channel comes or goes. -/
  channels : ∀ id', id' ≠ id → g'.channel? id' = g.channel? id'
  named : (g'.channel? id).map (·.id) = (g.channel? id).map (·.id)

theorem Guide.differsAt_setRecord (g : Guide) (id : String) (start : Int) (recordId : String) :
    g.DiffersAt (g.setRecord id start recordId) id start recordId := by
  have edited := g.view_setRecord id start recordId
  constructor
  case noted => exact (edited id start).trans (if_pos ⟨rfl, rfl⟩)
  case others =>
    intro id' start' other
    exact (edited id' start').trans (if_neg other)
  case channels =>
    intro id' other
    rw [setRecord]
    cases g.channel? id with
    | none => rfl
    | some c => exact g.channel?_put_of_ne other _
  case named =>
    rw [setRecord]
    cases there : g.channel? id with
    | none => rw [there]
    | some c => rw [channel?_put_self]; rfl

namespace Engine

/-- An event is booked: the service took the request for it, and the record that it
reported is noted with the broadcast. -/
inductive Booked (e : Engine) (uid : Nat) (start : Int) : Engine → Prop where
  | noted {c : Channel} {entry : GuideEntry} {reply : Reply} {root : Json} {server : Server}
      {guide : Guide} (found : e.findChannel uid = .ok c)
      (listed : e.store.guide.entry? c.id start = some entry) (taken : reply.value = .ok root)
      (differs : e.store.guide.DiffersAt guide c.id start (root.textAt "recordId")) :
      Booked e uid start
        { e with
          client := { e.client with
            server
            exchanges := e.client.exchanges ++
              [⟨e.client.request .recordEvent [("eventId", entry.eventId)] (some e.client.token),
                reply⟩] }
          store := { e.store with guide, loadRecordings := true } }

/-- How it ends when the host has an event recorded. -/
theorem addTimer_ends (e : Engine) (uid : Nat) (start : Int) :
    (∃ err, (e.addTimer uid start).1 = .error err ∧ ∃ xs, e.Tried (e.addTimer uid start).2 xs) ∨
      (e.addTimer uid start).1 = .ok () ∧ e.Booked uid start (e.addTimer uid start).2 := by
  rw [addTimer]
  split
  next err _ => exact .inl ⟨err, rfl, [], .refl e⟩
  next c found =>
    split
    next => exact .inl ⟨_, rfl, [], .refl e⟩
    next entry listed =>
      have spoken := e.client.callInSession_spoken .recordEvent [("eventId", entry.eventId)]
      obtain ⟨xs, tried, -⟩ := tried_of_spoken (by decide) spoken
      rw [Client.recordEvent]
      generalize e.client.callInSession .recordEvent _ = attempt at spoken tried ⊢
      cases spoken with
      | unsent closed => exact .inl ⟨_, rfl, xs, tried⟩
      | @sent client reply session called =>
          cases taken : reply.value with
          | error err => exact .inl ⟨_, rfl, xs, tried⟩
          | ok root =>
              obtain ⟨server, rfl⟩ := called
              exact .inr ⟨rfl, .noted found listed taken (Guide.differsAt_setRecord ..)⟩

theorem deleteRecording_tried {e : Engine} {id : String} {err : HostError}
    (failed : (e.deleteRecording id).1 = .error err) :
    ∃ xs, e.Tried (e.deleteRecording id).2 xs := by
  have spoken := e.client.callInSession_spoken .deleteRecord [("recordId", id)]
  obtain ⟨xs, tried, -⟩ := tried_of_spoken (by decide) spoken
  rw [deleteRecording, Client.deleteRecord] at failed ⊢
  generalize e.client.callInSession .deleteRecord _ = attempt at tried failed ⊢
  obtain ⟨_ | root, client⟩ := attempt
  · exact ⟨xs, tried⟩
  · cases failed

/-- A call of the host that fails changes nothing that is published, and nothing of the
session but whether a PIN counts as entered; a refresh of the recordings is due after it
if one was before, or if a PIN was accepted within the call. When an event is booked, the
guide differs in its record alone. -/
theorem failures_publish_nothing (e : Engine) :
    (∀ request err, (e.respond request).1 = .error err →
      ∃ xs, e.Tried (e.respond request).2 xs) ∧
    ∀ uid start, (e.addTimer uid start).1 = .ok () →
      e.Booked uid start (e.addTimer uid start).2 := by
  constructor
  · intro request err failed
    cases request with
    | play what => exact e.play_tried what
    | playProperties what =>
        obtain ⟨isLive, same⟩ := e.playProperties_eq what
        rw [respond, same]
        exact e.play_tried what
    | isPlayable uid id => exact ⟨[], .refl e⟩
    | isRecordable uid id => exact ⟨[], .refl e⟩
    | addTimer uid start =>
        rcases e.addTimer_ends uid start with ⟨_, -, tried⟩ | ⟨booked, -⟩
        · exact tried
        · cases booked.symm.trans failed
    | deleteRecording id => exact deleteRecording_tried failed
    | deleteTimer index => exact deleteRecording_tried failed
  · intro uid start booked
    rcases e.addTimer_ends uid start with ⟨_, failed, -⟩ | ⟨-, done⟩
    · cases failed.symm.trans booked
    · exact done

end Engine

namespace Course

/-- A service with one locked channel and one broadcast on it. It takes any PIN and records
what it is told to, but it has no streams and no listing of the recordings. -/
def airing : Server :=
  (((Client.welcoming.reroute "playlist"
    [.body "\x7b\"status\":1,\"channels\":[\x7b\"id\":\"ct1\",\"locked\":\"pin\"\x7d]\x7d"]).reroute
    "epg" [.body ("\x7b\"status\":1,\"channels\":\x7b\"ct1\":[\x7b\"eventId\":\"ct1:noon\"," ++
      "\"startTime\":\"2024-01-15 12:00\",\"endTime\":\"2024-01-15 12:30\"," ++
      "\"availability\":\"timeshift\"\x7d]\x7d\x7d")]).reroute
    "pin-unlock" [.body "\x7b\"status\":1\x7d"]).reroute
    "record-event" [.body "\x7b\"status\":1,\"recordId\":77\x7d"]

/-- The worker logs in, loads the lineup and an hour of the guide, and tries to refresh the
recordings. -/
def noon : Course :=
  let created : Course :=
    ⟨.create {} { account := default, server := airing, pairStore := {} } { pin := some "1234" }
      1705318200000, []⟩
  (((created.act (.work (.logIn 0 .launch))).act (.work .loadLineup)).act
    (.work (.loadChunk (.hour 1705316400)))).act (.work .recordings)

theorem run_noon : noon.Run := ((((Run.start _ _ _ _ _ _).act _).act _).act _).act _

/-- The broadcast at noon has no stream, but the PIN was accepted on the way, so a refresh
of the recordings is due. The event is booked all the same. -/
theorem failures_noon :
    (∃ cause, (noon.engine.respond (.play (.broadcast 1 1705316400))).1 =
        .error (.noStream cause) ∧
      ∃ xs, noon.engine.Tried (noon.engine.respond (.play (.broadcast 1 1705316400))).2 xs) ∧
    noon.engine.store.loadRecordings = false ∧
    (noon.engine.respond (.play (.broadcast 1 1705316400))).2.store.loadRecordings = true ∧
    (noon.engine.addTimer 1 1705316400).1 = .ok () ∧
    noon.engine.Booked 1 1705316400 (noon.engine.addTimer 1 1705316400).2 := by
  have failed : (noon.engine.respond (.play (.broadcast 1 1705316400))).1 =
      .error (.noStream (.transport "no route")) := by
    decide +kernel
  obtain ⟨idle, due, booked⟩ : noon.engine.store.loadRecordings = false ∧
      (noon.engine.respond (.play (.broadcast 1 1705316400))).2.store.loadRecordings = true ∧
      (noon.engine.addTimer 1 1705316400).1 = .ok () := by
    decide +kernel
  obtain ⟨failures, bookings⟩ := noon.engine.failures_publish_nothing
  exact ⟨⟨_, failed, failures _ _ failed⟩, idle, due, booked, bookings _ _ booked⟩

end Course

end PvrBackend
