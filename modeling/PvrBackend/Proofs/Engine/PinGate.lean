import PvrBackend.Proofs.Engine.Contacts

/-!
# The gate of the PIN

Channels and recordings that are locked by a PIN are played only in a session in which
the service accepted one. The host is asked for it when it is needed, and what is to be
played is refused if none comes or the service does not take it.

A past broadcast goes through two gates, that of its channel and that of its recording,
but a PIN that was accepted at the first opens the second. Between two logins the PIN
counts as entered only after a request to enter it was accepted, so an answer for
something locked always has such a request behind it.

Here a call comes to its gates with nothing in between, as all that happens in a course.
-/

namespace PvrBackend

namespace Client

/-- Requests were sent, and if the PIN counts as entered now, it did before or one of them
was accepted for it. -/
def Warranted (c c' : Client) : Prop :=
  ∃ xs, c'.exchanges = c.exchanges ++ xs ∧
    (c'.pinUnlocked = true → c.pinUnlocked = true ∨ ∃ x ∈ xs, x.unlocks = true)

theorem warranted_of_called {c c' : Client} (calls : ∃ xs, Called c c' xs) : Warranted c c' := by
  obtain ⟨xs, called⟩ := calls
  exact ⟨xs, called.exchanges, fun entered => .inl (called.pinUnlocked ▸ entered)⟩

theorem Warranted.refl (c : Client) : Warranted c c := warranted_of_called ⟨[], .refl c⟩

theorem Warranted.trans {c c' c'' : Client} (first : Warranted c c') (second : Warranted c' c'') :
    Warranted c c'' := by
  obtain ⟨xs, grown, entered⟩ := first
  obtain ⟨ys, grown', entered'⟩ := second
  refine ⟨xs ++ ys, by rw [grown', grown, List.append_assoc], fun now => ?_⟩
  rcases entered' now with before | ⟨y, mem, unlocks⟩
  · rcases entered before with before | ⟨x, mem, unlocks⟩
    · exact .inl before
    · exact .inr ⟨x, List.mem_append_left ys mem, unlocks⟩
  · exact .inr ⟨y, List.mem_append_right xs mem, unlocks⟩

end Client

namespace Engine

open Client (Called Warranted exists_called warranted_of_called)

/-! ### One gate -/

/-- No PIN comes from the host, or the service does not take it. -/
def PinRefused (e : Engine) : Prop :=
  ∀ pin, e.host.pin = some pin → (e.client.pinUnlock pin).1 ≠ .ok ()

/-- The engine once the host was asked for the PIN. -/
def prompted (e : Engine) : Engine := e.tell (.promptPin e.host.pinHeading)

/-- The engine once a PIN was accepted, with what is left of the client. -/
def unlocked (e : Engine) (client : Client) : Engine :=
  { e.prompted with
    client := { client with pinUnlocked := true }
    store := e.store.requestRecordings }

/-- The ways to come to a gate. -/
inductive Gate (e : Engine) (locked : Bool) : Bool × Engine → Prop where
  | free (free : locked = false ∨ e.client.pinUnlocked = true) : Gate e locked (true, e)
  | shut {client : Client} {xs : List Exchange} (needed : locked = true)
      (before : e.client.pinUnlocked = false) (called : Called e.client client xs)
      (asked : ∀ x ∈ xs, x.request.endpoint = .pinUnlock) :
      Gate e locked (false, { e.prompted with client })
  | opened {client : Client} {x : Exchange} (needed : locked = true)
      (before : e.client.pinUnlocked = false) (taken : ¬ e.PinRefused)
      (called : Called e.client client [x]) (unlocks : x.unlocks = true) :
      Gate e locked (true, e.unlocked client)

theorem unlock_gate (e : Engine) (locked : Bool) : Gate e locked (e.unlock locked) := by
  rw [unlock]
  split
  next free =>
    refine .free ?_
    simpa using free
  next shut =>
    obtain ⟨needed, before⟩ : locked = true ∧ e.client.pinUnlocked = false := by simpa using shut
    dsimp only
    split
    next cancelled =>
      exact .shut needed before (.refl e.client) (List.forall_mem_nil _)
    next pin entered =>
      have unlocking := e.client.pinUnlock_unlocking pin
      have taken : (e.client.pinUnlock pin).1 = .ok () → ¬ e.PinRefused :=
        fun ok refused => refused pin entered ok
      split
      next err client result =>
        have result : e.client.pinUnlock pin = (.error err, client) := result
        rw [result] at unlocking
        cases unlocking with
        | refused called asked => exact .shut needed before called asked
      next client result =>
        have result : e.client.pinUnlock pin = (.ok (), client) := result
        rw [result] at unlocking taken
        cases unlocking with
        | accepted called unlocks => exact .opened needed before (taken rfl) called unlocks

/-! ### Answers that passed gates -/

/-- What is kept by a call that has something played, where `locked` tells whether that is
locked. -/
structure Gated {α : Type} (e : Engine) (locked : Prop) (answer : Except HostError α × Engine) :
    Prop where
  warranted : Warranted e.client answer.2.client
  kept : Store.Kept e.store answer.2.store
  stays : e.client.pinUnlocked = true → answer.2.client.pinUnlocked = true
  opened : locked → answer.1.isOk = true → answer.2.client.pinUnlocked = true
  /-- Without a PIN nothing is sent but attempts to enter one. -/
  refused : locked → e.client.pinUnlocked = false → e.PinRefused →
    answer.1 = .error .pinRequired ∧ ∃ xs, answer.2.client.exchanges = e.client.exchanges ++ xs ∧
      ∀ x ∈ xs, x.request.endpoint = .pinUnlock
  prompts : answer.2.callbacks = e.callbacks ∨ (locked ∧ e.client.pinUnlocked = false ∧
    answer.2.callbacks = e.callbacks ++ [.promptPin e.host.pinHeading])

theorem Gated.congr {α : Type} {e : Engine} {locked locked' : Prop}
    {answer : Except HostError α × Engine} (gated : Gated e locked answer)
    (same : locked ↔ locked') : Gated e locked' answer := by
  rwa [← propext same]

/-- What needs no gate only calls within the session. -/
theorem gated_of_called {α : Type} {e e' : Engine} {locked : Prop} (free : ¬ locked)
    (calls : ∃ xs, Called e.client e'.client xs) (kept : e'.store = e.store)
    (silent : e'.callbacks = e.callbacks) (answer : Except HostError α) :
    Gated e locked (answer, e') := by
  obtain ⟨xs, called⟩ := calls
  constructor
  case warranted => exact warranted_of_called ⟨_, called⟩
  case kept => exact kept ▸ .refl e.store
  case stays => exact fun entered => called.pinUnlocked.trans entered
  case opened => exact fun needed => absurd needed free
  case refused => exact fun needed => absurd needed free
  case prompts => exact .inl silent

theorem gated_of_error {α : Type} {e : Engine} {locked : Prop} (free : ¬ locked) (err : HostError) :
    Gated (α := α) e locked (.error err, e) :=
  gated_of_called free ⟨[], .refl e.client⟩ rfl rfl (.error err)

/-- A gate that is passed freely leaves what comes behind it. -/
theorem Gated.behind_free {α : Type} {e : Engine} {locked : Bool} {inner : Prop}
    {answer : Except HostError α × Engine} (gated : Gated e inner answer)
    (free : locked = false ∨ e.client.pinUnlocked = true) :
    Gated e (locked = true ∨ inner) answer := by
  constructor
  case warranted => exact gated.warranted
  case kept => exact gated.kept
  case stays => exact gated.stays
  case opened =>
    rintro (needed | needed) ok
    · exact gated.stays (free.resolve_left (by simp [needed]))
    · exact gated.opened needed ok
  case refused =>
    rintro (needed | needed) before refused
    · simp [needed, before] at free
    · exact gated.refused needed before refused
  case prompts =>
    apply gated.prompts.imp_right
    rintro ⟨needed, rest⟩
    exact ⟨.inr needed, rest⟩

/-- A gate that stays shut ends the call. -/
theorem gated_of_shut {α : Type} {e : Engine} {locked : Prop} (needed : locked)
    (before : e.client.pinUnlocked = false) {client : Client} {xs : List Exchange}
    (called : Called e.client client xs) (asked : ∀ x ∈ xs, x.request.endpoint = .pinUnlock) :
    Gated (α := α) e locked (.error .pinRequired, { e.prompted with client }) := by
  constructor
  case warranted => exact warranted_of_called ⟨xs, called⟩
  case kept => exact .refl e.store
  case stays => exact fun entered => called.pinUnlocked.trans entered
  case opened =>
    intro _ ok
    cases ok
  case refused => exact fun _ _ _ => ⟨rfl, xs, called.exchanges, asked⟩
  case prompts => exact .inr ⟨needed, before, rfl⟩

/-- A gate that a PIN has opened leaves every other gate open. -/
theorem Gated.behind_opened {α : Type} {e : Engine} {locked inner : Prop} (needed : locked)
    (before : e.client.pinUnlocked = false) (taken : ¬ e.PinRefused) {client : Client}
    {x : Exchange} (called : Called e.client client [x]) (unlocks : x.unlocks = true)
    {answer : Except HostError α × Engine} (gated : Gated (e.unlocked client) inner answer) :
    Gated e locked answer := by
  have entered : Warranted e.client (e.unlocked client).client :=
    ⟨[x], called.exchanges, fun _ => .inr ⟨x, List.mem_singleton_self x, unlocks⟩⟩
  have stays := gated.stays rfl
  constructor
  case warranted => exact entered.trans gated.warranted
  case kept => exact e.store.kept_requestRecordings.trans gated.kept
  case stays => exact fun _ => stays
  case opened => exact fun _ _ => stays
  case refused => exact fun _ _ refused => absurd refused taken
  case prompts =>
    refine .inr ⟨needed, before, ?_⟩
    rcases gated.prompts with silent | ⟨-, shut, -⟩
    · exact silent
    · cases shut

/-- Behind a gate comes what may have a gate of its own. -/
theorem guarded_gated {α : Type} {e : Engine} {locked : Bool} {inner : Prop}
    {play : Engine → Except HostError α × Engine}
    (rest : ∀ e' : Engine, e'.store.recordings = e.store.recordings → Gated e' inner (play e')) :
    Gated e (locked = true ∨ inner) (e.guarded locked play) := by
  have gate := e.unlock_gate locked
  rw [guarded]
  generalize e.unlock locked = outcome at gate ⊢
  cases gate with
  | free free => exact (rest e rfl).behind_free free
  | shut needed before called asked => exact gated_of_shut (.inl needed) before called asked
  | @opened client x needed before taken called unlocks =>
      have gated := rest (e.unlocked client) rfl
      exact gated.behind_opened (.inl needed) before taken called unlocks

/-! ### What is locked -/

/-- Whether a recording is locked. -/
def RecordingLocked (e : Engine) (id : String) : Prop :=
  ∃ r, e.findRecording id = .ok r ∧ r.isPinLocked = true

/-- Whether the channel is locked, or the recording that the stream is taken from. -/
def Locked (e : Engine) : Playback → Prop
  | .channel uid => ∃ c, e.findChannel uid = .ok c ∧ c.isPinLocked = true
  | .recording id => e.RecordingLocked id
  | .broadcast uid id => ∃ c entry, e.findBroadcast uid id = .ok (c, entry) ∧
      (c.isPinLocked = true ∨ ∃ recordId, e.recordingOf? entry = some recordId ∧
        e.RecordingLocked recordId)

theorem channelStream_gated (e : Engine) (uid : Nat) :
    Gated e (e.Locked (.channel uid)) (e.channelStream uid) := by
  rw [channelStream]
  cases found : e.findChannel uid with
  | error err => exact gated_of_error (by simp [Locked, found]) err
  | ok c =>
      have gated : Gated e (c.isPinLocked = true ∨ False)
          (e.guarded c.isPinLocked fun e => (.ok (⟨c.streamUrl, c.streamType⟩ : Stream), e)) :=
        guarded_gated fun e' _ => gated_of_called not_false ⟨[], .refl e'.client⟩ rfl rfl _
      exact gated.congr (by simp [Locked, found])

theorem recordingStream_gated (e : Engine) (id : String) :
    Gated e (e.RecordingLocked id) (e.recordingStream id) := by
  rw [recordingStream]
  cases found : e.findRecording id with
  | error err => exact gated_of_error (by simp [RecordingLocked, found]) err
  | ok r =>
      have gated : Gated e (r.isPinLocked = true ∨ False)
          (e.guarded r.isPinLocked fun e => (.ok (⟨r.streamUrl, r.streamType⟩ : Stream), e)) :=
        guarded_gated fun e' _ => gated_of_called not_false ⟨[], .refl e'.client⟩ rfl rfl _
      exact gated.congr (by simp [RecordingLocked, found])

theorem eventStream_gated (e : Engine) (eventId : String) :
    Gated e False (e.eventStream eventId) := by
  rw [eventStream]
  split
  next cause client result =>
    apply gated_of_called not_false
    · exact exists_called (congrArg Prod.snd result)
    · rfl
    · rfl
  next s client result =>
    apply gated_of_called not_false
    · exact exists_called (congrArg Prod.snd result)
    · rfl
    · rfl

theorem broadcastStream_gated (e : Engine) (uid id : Nat) :
    Gated e (e.Locked (.broadcast uid id)) (e.broadcastStream uid id) := by
  rw [broadcastStream]
  cases found : e.findBroadcast uid id with
  | error err => exact gated_of_error (by simp [Locked, found]) err
  | ok there =>
      obtain ⟨c, entry⟩ := there
      have needs : e.Locked (.broadcast uid id) ↔ c.isPinLocked = true ∨
          ∃ recordId, e.recordingOf? entry = some recordId ∧ e.RecordingLocked recordId := by
        simp [Locked, found]
      rw [needs]
      dsimp only
      refine guarded_gated fun e' same => ?_
      -- Nothing that the first gate does changes what is recorded.
      have same' : e'.recordingOf? entry = e.recordingOf? entry := by
        unfold recordingOf? Store.recordingExists
        rw [same]
      rw [same']
      cases e.recordingOf? entry with
      | none => exact (e'.eventStream_gated entry.eventId).congr (by simp)
      | some recordId =>
          refine (e'.recordingStream_gated recordId).congr ?_
          simp [RecordingLocked, findRecording, same]

theorem play_gated (e : Engine) (what : Playback) : Gated e (e.Locked what) (e.play what) := by
  cases what with
  | channel uid => exact e.channelStream_gated uid
  | recording id => exact e.recordingStream_gated id
  | broadcast uid id => exact e.broadcastStream_gated uid id

/-- An answer is turned into another behind the gate. -/
theorem Gated.withProperties {e : Engine} {locked : Prop}
    {answer : Except HostError Stream × Engine} (gated : Gated e locked answer) (isLive : Bool) :
    Gated e locked (Engine.withProperties answer isLive) := by
  obtain ⟨result, e'⟩ := answer
  constructor
  case warranted => exact gated.warranted
  case kept => exact gated.kept
  case stays => exact gated.stays
  case opened =>
    intro needed ok
    cases result with
    | error err => cases ok
    | ok stream => exact gated.opened needed rfl
  case refused =>
    intro needed before refused
    obtain ⟨rejected, rest⟩ := gated.refused needed before refused
    obtain rfl : result = .error .pinRequired := rejected
    exact ⟨rfl, rest⟩
  case prompts => exact gated.prompts

theorem playProperties_gated (e : Engine) (what : Playback) :
    Gated e (e.Locked what) (e.playProperties what) := by
  obtain ⟨isLive, same⟩ := e.playProperties_eq what
  rw [same]
  exact (e.play_gated what).withProperties isLive

/-! ### Between two logins -/

/-- What the host calls opens nothing without a request to enter a PIN. -/
theorem serve_warranted (e : Engine) (call : HostCall) :
    Warranted e.client (e.serve call).client := by
  cases call with
  | channels radio => exact .refl e.client
  | guideOf uid start stop => exact .refl e.client
  | setMaxDays future past => exact .refl e.client
  | play what => exact (e.play_gated what).warranted
  | addTimer uid start =>
      have booking := e.addTimer_booking uid start
      rw [serve]
      generalize e.addTimer uid start = answer at booking ⊢
      cases booking with
      | failed err calls => exact warranted_of_called calls
      | noted found recordId calls => exact warranted_of_called calls
  | deleteRecording id => exact warranted_of_called (e.deleteRecording_called id).1
  | deleteTimer index => exact warranted_of_called (e.deleteRecording_called _).1
  | stop => exact .refl e.client

end Engine

/-- After how many requests a login began. -/
def Deed.login? : Deed → Option Nat
  | .login sent => some sent
  | .reading .. => none

namespace Client

/-- The PIN counts as entered only if it was accepted after so many requests. -/
structure OpenedSince (sent : Nat) (c : Client) : Prop where
  bound : sent ≤ c.exchanges.length
  accepted : c.pinUnlocked = true → ∃ x ∈ c.exchanges.drop sent, x.unlocks = true

theorem OpenedSince.warranted {sent : Nat} {c c' : Client} (since : OpenedSince sent c)
    (warranted : Warranted c c') : OpenedSince sent c' := by
  obtain ⟨xs, grown, entered⟩ := warranted
  have later : c'.exchanges.drop sent = c.exchanges.drop sent ++ xs := by
    rw [grown, List.drop_append_of_le_length since.bound]
  constructor
  case bound =>
    rw [grown, List.length_append]
    exact Nat.le_add_right_of_le since.bound
  case accepted =>
    intro now
    rw [later]
    rcases entered now with before | ⟨x, mem, unlocks⟩
    · obtain ⟨x, mem, unlocks⟩ := since.accepted before
      exact ⟨x, List.mem_append_left xs mem, unlocks⟩
    · exact ⟨x, List.mem_append_right _ mem, unlocks⟩

/-- A login starts anew. -/
theorem openedSince_login (c : Client) : OpenedSince c.exchanges.length c.login.2 := by
  have grown := grown_login c
  constructor
  case bound => exact grown.exchanges.length_le
  case accepted =>
    intro entered
    cases grown.pinUnlocked.symm.trans entered

end Client

namespace Course

open Client (OpenedSince openedSince_login warranted_of_called)

/-- How many requests had been sent when the worker last began to log in. -/
def lastLogin (s : Course) : Nat := (s.history.filterMap Deed.login?).getLast?.getD 0

theorem lastLogin_act (s : Course) (a : Action) :
    (s.act a).lastLogin =
      ((s.engine.deeds a).filterMap Deed.login?).getLast?.getD s.lastLogin := by
  rw [lastLogin, act_history, List.filterMap_append, List.getLast?_append]
  cases ((s.engine.deeds a).filterMap Deed.login?).getLast? <;> rfl

/-- Only a login is remembered as one. -/
theorem lastLogin_work (s : Course) (job : Job) : (s.act (.work job)).lastLogin =
    if s.engine.logsIn job then s.engine.client.exchanges.length else s.lastLogin := by
  rw [lastLogin_act]
  cases job with
  | logIn delay next =>
      cases delay with
      | zero =>
          simp only [Engine.deeds, Engine.logsIn]
          split <;> rfl
      | succ => rfl
  | loadChunk chunk =>
      simp only [Engine.deeds, Engine.logsIn]
      cases s.engine.answerOf? chunk <;> rfl
  | keepAlive | loadLineup | fullRefresh | requestRecordings | recordings | releaseGuide => rfl

/-- The PIN counts as entered only if it was accepted since the last login. -/
theorem openedSince_of_run {s : Course} (run : s.Run) :
    OpenedSince s.lastLogin s.engine.client := by
  induction run with
  | start =>
      refine ⟨Nat.le_refl 0, fun entered => ?_⟩
      cases entered
  | @act s run a ih =>
      cases a with
      | work job =>
          rw [lastLogin_work, act_engine]
          rcases s.engine.work_client job with ⟨login, client⟩ | ⟨quiet, calls⟩
          · rw [if_pos login]
            show OpenedSince _ (s.engine.work job).client
            rw [client]
            exact openedSince_login s.engine.client
          · rw [quiet]
            exact ih.warranted (warranted_of_called calls)
      | serve call =>
          have same : (s.act (.serve call)).lastLogin = s.lastLogin := s.lastLogin_act _
          rw [same]
          exact ih.warranted (s.engine.serve_warranted call)
      | meanwhile server pairStore host clock worker =>
          have same : (s.act (.meanwhile server pairStore host clock worker)).lastLogin =
              s.lastLogin := s.lastLogin_act _
          rw [same]
          exact ⟨ih.bound, ih.accepted⟩

/-- What holds of a call that has something played after a course, where `locked` tells
whether that is locked. -/
structure AsksPin {α : Type} (s : Course) (locked : Prop) (answer : Except HostError α × Engine) :
    Prop where
  /-- Something locked is played only if a PIN was accepted since the last login. -/
  opened : locked → answer.1.isOk = true →
    answer.2.client.pinUnlocked = true ∧
      ∃ x ∈ answer.2.client.exchanges.drop s.lastLogin, x.unlocks = true
  /-- Without a PIN it is refused, and nothing was sent but attempts to enter one. -/
  refused : locked → s.engine.client.pinUnlocked = false → s.engine.PinRefused →
    answer.1 = .error .pinRequired ∧
      ∃ xs, answer.2.client.exchanges = s.engine.client.exchanges ++ xs ∧
        ∀ x ∈ xs, x.request.endpoint = .pinUnlock
  /-- The host is asked once at most, and only if a PIN is needed. -/
  prompts : answer.2.callbacks = s.engine.callbacks ∨
    (locked ∧ s.engine.client.pinUnlocked = false ∧
      answer.2.callbacks = s.engine.callbacks ++ [.promptPin s.engine.host.pinHeading])

theorem asksPin_of_gated {α : Type} {s : Course} (run : s.Run) {locked : Prop}
    {answer : Except HostError α × Engine} (gated : s.engine.Gated locked answer) :
    AsksPin s locked answer := by
  have since := (openedSince_of_run run).warranted gated.warranted
  constructor
  case opened =>
    intro needed ok
    have entered := gated.opened needed ok
    exact ⟨entered, since.accepted entered⟩
  case refused => exact gated.refused
  case prompts => exact gated.prompts

/-- In every course something locked is played only in a session in which a PIN was
accepted, whether the host asks for the stream or for its properties. -/
theorem pin_guards_streams {s : Course} (run : s.Run) (what : Playback) :
    AsksPin s (s.engine.Locked what) (s.engine.play what) ∧
      AsksPin s (s.engine.Locked what) (s.engine.playProperties what) :=
  ⟨asksPin_of_gated run (s.engine.play_gated what),
    asksPin_of_gated run (s.engine.playProperties_gated what)⟩

end Course

end PvrBackend
