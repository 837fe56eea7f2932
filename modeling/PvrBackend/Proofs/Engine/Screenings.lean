import PvrBackend.Proofs.Engine.PinGate
import PvrBackend.Proofs.Engine.Visits
import PvrBackend.Proofs.Session.Outcomes

/-!
# The gate of the PIN among others

Several calls of the host may have something played at a time, and the worker may log in while they
do. A call is taken apart here into its moments: it looks at the store, comes to a gate, has the
host asked for the PIN, sends that to the service, waits for the answer, sets the flag by which the
PIN counts as entered, and goes on behind the gate. A login begins by taking the flag back, under no
lock, so it may do that between any two of these moments.

For a call that no login came in between, the gates are what they should be: what is locked is
played only while the PIN counts as entered, and the host is asked for it once at most. A login that
did come in between can leave the call behind a gate that is shut again. Whatever comes in between,
a call that got no PIN at a gate is refused, and asks for no stream of an event.
-/

namespace PvrBackend

namespace Screening

/-- What a call has still to do. -/
inductive Stage where
  | comes (v : Visit)
  /-- To have the host asked for the PIN. -/
  | prompts (behind : Visit)
  /-- To hear from the host. -/
  | listens (behind : Visit)
  /-- To send a request to enter the PIN. -/
  | tries (pin : String) (behind : Visit)
  /-- To hear from the service. -/
  | awaits (pin : String) (behind : Visit)
  /-- To have the PIN count as entered. -/
  | enters (behind : Visit)
  /-- To make a refresh of the recordings due. -/
  | refreshes (behind : Visit)
  /-- To hear from the service of the stream of an event. -/
  | hears (eventId : String) (finish : Stream → Answer)
  /-- To look up the type of the stream. -/
  | types (s : EventStream) (finish : Stream → Answer)

/-- What is remembered: that a login began, or something of the call with a number. -/
inductive Moment where
  | login
  /-- It comes to the gate of something that is locked or not, and sees whether the PIN counts as
  entered. -/
  | gate (call : Nat) (locked entered : Bool)
  | prompted (call : Nat)
  | cancelled (call : Nat)
  /-- It sends a request to enter a PIN. -/
  | tried (call : Nat)
  | failed (call : Nat)
  | accepted (call : Nat)
  /-- It has the PIN count as entered. -/
  | entered (call : Nat)
  | askedEvent (call : Nat)
deriving DecidableEq

namespace Moment

/-- The call that a moment is one of. -/
def call? : Moment → Option Nat
  | login => none
  | gate call .. | prompted call | cancelled call | tried call | failed call | accepted call
  | entered call | askedEvent call => some call

end Moment

/-- What a call refused for want of a PIN ends with. -/
@[simp] def Stage.refused : Stage := .comes (.ends (.error .pinRequired))

/-- The next moment of a call. -/
def Stage.next (call : Nat) : Stage → Engine → Stage × Engine × List Moment
  | .comes (.ends answer), e => (.comes (.ends answer), e, [])
  | .comes (.looks rest), e => (.comes (rest e), e, [])
  | .comes (.gate locked behind), e =>
    (if !locked || e.client.pinUnlocked then .comes behind else .prompts behind, e,
      [.gate call locked e.client.pinUnlocked])
  | .comes (.event id finish), e => (.hears id finish, e, [.askedEvent call])
  | .prompts behind, e => (.listens behind, e.prompted, [.prompted call])
  | .listens behind, e =>
    match e.host.pin with
    | none => (.refused, e, [.cancelled call])
    | some pin => (.tries pin behind, e, [])
  | .tries pin behind, e => (.awaits pin behind, e, [.tried call])
  | .awaits pin behind, e =>
    match e.client.callInSession .pinUnlock [("pin", pin)] with
    | (.error _, client) => (.refused, { e with client }, [.failed call])
    | (.ok _, client) => (.enters behind, { e with client }, [.accepted call])
  | .enters behind, e =>
    (.refreshes behind, { e with client := { e.client with pinUnlocked := true } },
      [.entered call])
  | .refreshes behind, e => (.comes behind, { e with store := e.store.requestRecordings }, [])
  | .hears id finish, e =>
    match e.client.eventStream id with
    | (.error cause, client) => (.comes (.ends (.error (.noStream cause))), { e with client }, [])
    | (.ok s, client) => (.types s finish, { e with client }, [])
  | .types s finish, e =>
    (.comes (.ends (.ok (finish
      ⟨s.url, Channel.streamTypeOf e.store.lineup.channels s.channel⟩))), e, [])

/-- A call of the host, with how much was remembered when it began and whether the PIN counted as
entered. -/
structure Call where
  start : Nat
  entered : Bool
  stage : Stage

end Screening

/-- An engine with the calls that have something played, and what is remembered, oldest first. -/
structure Screening where
  engine : Engine
  calls : List Screening.Call
  log : List Screening.Moment

namespace Screening

/-- A login begins. -/
def login (s : Screening) : Screening :=
  { s with engine := { s.engine with client := s.engine.client.locked }, log := s.log ++ [.login] }

/-- The host begins to call. -/
def call (s : Screening) (what : Playback) (wish : Wish) : Screening :=
  { s with
    calls := s.calls ++ [⟨s.log.length, s.engine.client.pinUnlocked,
      .comes (.of (wish.finish what s.engine.settings.useAdaptive) what)⟩] }

/-- A call goes on. -/
def goOn (s : Screening) (call : Nat) : Screening :=
  match s.calls[call]? with
  | none => s
  | some c =>
    let (stage, engine, seen) := c.stage.next call s.engine
    ⟨engine, s.calls.set call { c with stage }, s.log ++ seen⟩

/-- Runs of calls and logins, with anything in between that leaves the flag of the PIN alone. -/
inductive Run : Screening → Prop where
  | start (settings : Settings) (account : Account) (server : Server) (pairStore : PairStore)
      (host : Host) (clock : Int) :
      Run ⟨.create settings { account, server, pairStore } host clock, [], []⟩
  | login {s : Screening} (run : Run s) : Run s.login
  | call {s : Screening} (run : Run s) (what : Playback) (wish : Wish) : Run (s.call what wish)
  | goOn {s : Screening} (run : Run s) (call : Nat) : Run (s.goOn call)
  | others {s : Screening} (run : Run s) {e : Engine}
      (same : e.client.pinUnlocked = s.engine.client.pinUnlocked) : Run { s with engine := e }

/-! ### What one moment does -/

/-- The moments of a call, one by one: what it was about to do, what it does then, and what is
remembered of it. -/
inductive Step (call : Nat) : Stage → Engine → Stage → Engine → List Moment → Prop where
  | stay {e : Engine} (answer : Except HostError Answer) :
      Step call (.comes (.ends answer)) e (.comes (.ends answer)) e []
  | look {e : Engine} (rest : Engine → Visit) :
      Step call (.comes (.looks rest)) e (.comes (rest e)) e []
  | pass {e : Engine} {locked : Bool} (behind : Visit)
      (free : locked = true → e.client.pinUnlocked = true) :
      Step call (.comes (.gate locked behind)) e (.comes behind) e
        [.gate call locked e.client.pinUnlocked]
  | stop {e : Engine} (behind : Visit) (shut : e.client.pinUnlocked = false) :
      Step call (.comes (.gate true behind)) e (.prompts behind) e [.gate call true false]
  | ask {e : Engine} (id : String) (finish : Stream → Answer) :
      Step call (.comes (.event id finish)) e (.hears id finish) e [.askedEvent call]
  | prompt {e : Engine} (behind : Visit) :
      Step call (.prompts behind) e (.listens behind) e.prompted [.prompted call]
  | cancel {e : Engine} (behind : Visit) (unanswered : e.host.pin = none) :
      Step call (.listens behind) e .refused e [.cancelled call]
  | listen {e : Engine} {pin : String} (behind : Visit) (answered : e.host.pin = some pin) :
      Step call (.listens behind) e (.tries pin behind) e []
  | send {e : Engine} (pin : String) (behind : Visit) :
      Step call (.tries pin behind) e (.awaits pin behind) e [.tried call]
  | fail {e : Engine} {client : Client} (pin : String) (behind : Visit)
      (same : client.pinUnlocked = e.client.pinUnlocked) :
      Step call (.awaits pin behind) e .refused { e with client } [.failed call]
  | accept {e : Engine} {client : Client} (pin : String) (behind : Visit)
      (same : client.pinUnlocked = e.client.pinUnlocked) :
      Step call (.awaits pin behind) e (.enters behind) { e with client } [.accepted call]
  | enter {e : Engine} (behind : Visit) :
      Step call (.enters behind) e (.refreshes behind)
        { e with client := { e.client with pinUnlocked := true } } [.entered call]
  | refresh {e : Engine} (behind : Visit) :
      Step call (.refreshes behind) e (.comes behind)
        { e with store := e.store.requestRecordings } []
  | miss {e : Engine} {client : Client} (id : String) (finish : Stream → Answer) (cause : ApiError)
      (same : client.pinUnlocked = e.client.pinUnlocked) :
      Step call (.hears id finish) e (.comes (.ends (.error (.noStream cause))))
        { e with client } []
  | hear {e : Engine} {client : Client} (id : String) (finish : Stream → Answer) (s : EventStream)
      (same : client.pinUnlocked = e.client.pinUnlocked) :
      Step call (.hears id finish) e (.types s finish) { e with client } []
  | type {e : Engine} (s : EventStream) (finish : Stream → Answer) (stream : Stream) :
      Step call (.types s finish) e (.comes (.ends (.ok (finish stream)))) e []

/-- A call within the session leaves the flag of the PIN alone. -/
theorem pinUnlocked_of_call {c c' : Client} {e : Endpoint} {params : Params}
    (left : (c.callInSession e params).2 = c') : c'.pinUnlocked = c.pinUnlocked := by
  obtain ⟨xs, called⟩ := Client.exists_called left
  exact called.pinUnlocked

theorem step_next (call : Nat) (stage : Stage) (e : Engine) :
    Step call stage e (stage.next call e).1 (stage.next call e).2.1 (stage.next call e).2.2 := by
  cases stage with
  | comes v =>
      cases v with
      | ends answer => exact .stay answer
      | looks rest => exact .look rest
      | gate locked behind =>
          rw [Stage.next]
          split
          next passes => exact .pass behind (by simpa [or_iff_not_imp_left] using passes)
          next stops =>
            obtain ⟨rfl, shut⟩ : locked = true ∧ e.client.pinUnlocked = false := by
              simpa using stops
            rw [shut]
            exact .stop behind shut
      | event id finish => exact .ask id finish
  | prompts behind => exact .prompt behind
  | listens behind =>
      rw [Stage.next]
      split
      next unanswered => exact .cancel behind unanswered
      next pin answered => exact .listen behind answered
  | tries pin behind => exact .send pin behind
  | awaits pin behind =>
      rw [Stage.next]
      split
      next client result => exact .fail pin behind (pinUnlocked_of_call (congrArg Prod.snd result))
      next client result =>
        exact .accept pin behind (pinUnlocked_of_call (congrArg Prod.snd result))
  | enters behind => exact .enter behind
  | refreshes behind => exact .refresh behind
  | hears id finish =>
      rw [Stage.next]
      split
      next cause client result =>
        exact .miss id finish cause (pinUnlocked_of_call (congrArg Prod.snd result))
      next s client result =>
        exact .hear id finish s (pinUnlocked_of_call (congrArg Prod.snd result))
  | types s finish => exact .type s finish _

/-- What is remembered of a moment is of the call. -/
theorem Step.call?_eq {call : Nat} {stage stage' : Stage} {e e' : Engine} {seen : List Moment}
    (step : Step call stage e stage' e' seen) {m : Moment} (mem : m ∈ seen) :
    m.call? = some call := by
  cases step <;> simp_all [Moment.call?]

theorem Step.login_not_mem {call : Nat} {stage stage' : Stage} {e e' : Engine} {seen : List Moment}
    (step : Step call stage e stage' e' seen) : .login ∉ seen :=
  fun mem => nomatch step.call?_eq mem

/-- No moment of a call takes the PIN back. -/
theorem Step.stays_entered {call : Nat} {stage stage' : Stage} {e e' : Engine} {seen : List Moment}
    (step : Step call stage e stage' e' seen) (entered : e.client.pinUnlocked = true) :
    e'.client.pinUnlocked = true := by
  cases step with
  | fail pin behind same | accept pin behind same | miss id finish cause same
  | hear id finish s same => exact same.trans entered
  | enter => rfl
  | _ => exact entered

/-! ### What is known of a call -/

/-- No login began since the call did. -/
def Call.Quiet (c : Call) (log : List Moment) : Prop := .login ∉ log.drop c.start

/-- The host gave no PIN, or the service did not take it. -/
@[simp] def Refused (call : Nat) (log : List Moment) : Prop :=
  .cancelled call ∈ log ∨ .failed call ∈ log

namespace Stage

/-- Whether a call has come to a gate that was shut, and has no PIN yet. -/
@[simp] def atGate : Stage → Bool
  | prompts _ | listens _ | tries .. | awaits .. | enters _ => true
  | comes _ | refreshes _ | hears .. | types .. => false

/-- Whether the host is still to be asked at that gate. -/
@[simp] def unprompted : Stage → Bool
  | prompts _ => true
  | _ => false

/-- Whether there are no gates ahead. -/
@[simp] def pastGates : Stage → Bool
  | hears .. | types .. | comes (.ends _) => true
  | _ => false

end Stage

/-- What is known of a call, by whether the PIN counts as entered and by what is remembered. -/
structure Call.Known (c : Call) (call : Nat) (entered : Bool) (log : List Moment) : Prop where
  began : c.start ≤ log.length
  stays : c.Quiet log → c.entered = true → entered = true
  shut : .gate call true false ∈ log → c.Quiet log → c.entered = false
  atGate : c.stage.atGate = true → .gate call true false ∈ log
  unprompted : c.stage.unprompted = true → c.Quiet log → log.count (.prompted call) = 0
  prompted : .prompted call ∈ log → .gate call true false ∈ log
  once : c.Quiet log → log.count (.prompted call) ≤ 1
  /-- A call that is through a gate, or was refused there. -/
  opened : c.Quiet log → (∃ seen, .gate call true seen ∈ log) →
    c.stage.atGate = true ∨ Refused call log ∨ entered = true
  refused : Refused call log → c.stage = .refused ∧ .askedEvent call ∉ log
  asked : .askedEvent call ∈ log → c.stage.pastGates = true

namespace Call

variable {c : Call} {call : Nat} {log seen : List Moment}

theorem quiet_append (began : c.start ≤ log.length) :
    c.Quiet (log ++ seen) ↔ c.Quiet log ∧ .login ∉ seen := by
  rw [Quiet, Quiet, List.drop_append_of_le_length began, List.mem_append, not_or]

/-- A call that begins. -/
theorem known_begin {entered : Bool} (fresh : ∀ m ∈ log, m.call? ≠ some call) (v : Visit) :
    Known ⟨log.length, entered, .comes v⟩ call entered log := by
  have absent {m : Moment} (its : m.call? = some call) : m ∉ log := fun mem => fresh m mem its
  have ungated : ∀ seen, .gate call true seen ∉ log := fun _ => absent rfl
  have unrefused : ¬ Refused call log := fun refused => refused.elim (absent rfl) (absent rfl)
  constructor
  case began => exact Nat.le_refl _
  case stays => exact fun _ => id
  case shut => exact fun gate => absurd gate (ungated _)
  case atGate => exact nofun
  case unprompted => exact nofun
  case prompted => exact fun prompted => absurd prompted (absent rfl)
  case once => exact fun _ => (List.count_eq_zero.mpr (absent rfl)).trans_le (Nat.zero_le 1)
  case opened => exact fun _ ⟨seen, gate⟩ => absurd gate (ungated seen)
  case refused => exact fun refused => absurd refused unrefused
  case asked => exact fun asked => absurd asked (absent rfl)

/-- What others do, be it a login or not. -/
theorem Known.elsewhere {entered entered' : Bool} (known : c.Known call entered log)
    (foreign : ∀ m ∈ seen, m.call? ≠ some call)
    (opens : .login ∈ seen ∨ (entered = true → entered' = true)) :
    c.Known call entered' (log ++ seen) := by
  have absent {m : Moment} (its : m.call? = some call) : m ∉ seen := fun mem => foreign m mem its
  have same {m : Moment} (its : m.call? = some call) : m ∈ log ++ seen ↔ m ∈ log := by
    simp [absent its]
  have same' : Refused call (log ++ seen) ↔ Refused call log := by
    rw [Refused, Refused, same rfl, same rfl]
  have still : (log ++ seen).count (.prompted call) = log.count (.prompted call) := by
    rw [List.count_append, List.count_eq_zero.mpr (absent rfl), Nat.add_zero]
  have quiet : c.Quiet (log ++ seen) ↔ c.Quiet log ∧ .login ∉ seen := quiet_append known.began
  have keeps : c.Quiet (log ++ seen) → entered = true → entered' = true :=
    fun within => opens.resolve_left (quiet.mp within).2
  constructor
  case began => exact Nat.le_trans known.began (by simp)
  case stays => exact fun within was => keeps within (known.stays (quiet.mp within).1 was)
  case shut => exact fun gate within => known.shut ((same rfl).mp gate) (quiet.mp within).1
  case atGate => exact fun waits => (same rfl).mpr (known.atGate waits)
  case unprompted =>
    exact fun due within => still.trans (known.unprompted due (quiet.mp within).1)
  case prompted => exact fun prompted => (same rfl).mpr (known.prompted ((same rfl).mp prompted))
  case once => exact fun within => still.trans_le (known.once (quiet.mp within).1)
  case opened =>
    rintro within ⟨seen, gate⟩
    rcases known.opened (quiet.mp within).1 ⟨seen, (same rfl).mp gate⟩ with waits | refused | open'
    · exact .inl waits
    · exact .inr (.inl (same'.mpr refused))
    · exact .inr (.inr (keeps within open'))
  case refused =>
    exact fun refused => (known.refused (same'.mp refused)).imp_right (mt (same rfl).mp)
  case asked => exact fun asked => known.asked ((same rfl).mp asked)

/-- What the call does itself. A gate that it comes to stands open if it was there before, so it is
not stopped again. -/
theorem Known.step {e e' : Engine} {stage : Stage} (known : c.Known call e.client.pinUnlocked log)
    (step : Step call c.stage e stage e' seen) :
    Known { c with stage } call e'.client.pinUnlocked (log ++ seen) := by
  have quiet : Call.Quiet { c with stage } (log ++ seen) ↔ c.Quiet log ∧ .login ∉ seen :=
    quiet_append (c := c) known.began
  have began : c.start ≤ (log ++ seen).length := Nat.le_trans known.began (by simp)
  obtain ⟨start, entered, stage'⟩ := c
  obtain ⟨-, stays, shut, atGate, unprompted, prompted, once, opened, refused, asked⟩ := known
  dsimp only at *
  generalize Call.Quiet ⟨start, entered, stage'⟩ log = within at *
  cases step with
  | @pass _ _ behind free =>
      have unrefused : ¬ Refused call log := fun before => nomatch (refused before).1
      constructor
      case began => exact began
      case shut =>
        intro gate inside
        rcases List.mem_append.mp gate with before | now
        · exact shut before (quiet.mp inside).1
        · obtain ⟨-, rfl, closed⟩ := Moment.gate.inj (List.mem_singleton.mp now)
          exact absurd (free rfl) (by simp [← closed])
      case opened =>
        rintro inside ⟨seen, gate⟩
        rcases List.mem_append.mp gate with before | now
        · rcases opened (quiet.mp inside).1 ⟨seen, before⟩ with waits | before | entered
          · cases waits
          · exact absurd before unrefused
          · exact .inr (.inr entered)
        · obtain ⟨-, rfl, -⟩ := Moment.gate.inj (List.mem_singleton.mp now)
          exact .inr (.inr (free rfl))
      all_goals simp_all
  | stop behind closed =>
      constructor
      case began => exact began
      case unprompted =>
        intro _ inside
        -- whoever was asked before has come through a gate, and would find this one open
        have ungated : .gate call true false ∉ log := by
          intro before
          have := opened (quiet.mp inside).1 ⟨false, before⟩
          simp_all
        have never : .prompted call ∉ log := mt prompted ungated
        simp [List.count_eq_zero.mpr never]
      all_goals simp_all
  | _ =>
      constructor
      case began => exact began
      all_goals simp_all

end Call

/-! ### What is known of the flag -/

/-- What is remembered of a call that has a request to enter a PIN under way: that it sent it, and
that it was accepted, if so. -/
def Stage.Tried (call : Nat) (log : List Moment) : Stage → Prop
  | awaits .. => ∃ early middle, log = early ++ .tried call :: middle ∧ .entered call ∉ middle
  | enters _ => ∃ early middle, log = early ++ .tried call :: middle ∧ .entered call ∉ middle ∧
      .accepted call ∈ middle
  | _ => True

/-- A PIN that was accepted came to count as entered since the last login began. If no login began
between the request and that, the PIN was sent and accepted since the last login, too. -/
def EnteredSince (log : List Moment) : Prop :=
  ∃ call early middle late, log = early ++ .tried call :: (middle ++ .entered call :: late) ∧
    .entered call ∉ middle ∧ .accepted call ∈ middle ∧ .login ∉ late

theorem Stage.Tried.append {call : Nat} {log seen : List Moment} {stage : Stage}
    (tried : stage.Tried call log) (foreign : .entered call ∉ seen) :
    stage.Tried call (log ++ seen) := by
  cases stage with
  | awaits pin behind =>
      obtain ⟨early, middle, rfl, unentered⟩ := tried
      exact ⟨early, middle ++ seen, by simp, by simp [unentered, foreign]⟩
  | enters behind =>
      obtain ⟨early, middle, rfl, unentered, accepted⟩ := tried
      exact ⟨early, middle ++ seen, by simp, by simp [unentered, foreign],
        List.mem_append_left _ accepted⟩
  | _ => trivial

theorem EnteredSince.append {log seen : List Moment} (since : EnteredSince log)
    (quiet : .login ∉ seen) : EnteredSince (log ++ seen) := by
  obtain ⟨call, early, middle, late, rfl, unentered, accepted, still⟩ := since
  exact ⟨call, early, middle, late ++ seen, by simp, unentered, accepted, by simp [still, quiet]⟩

theorem Step.tried {call : Nat} {log seen : List Moment} {stage stage' : Stage} {e e' : Engine}
    (step : Step call stage e stage' e' seen) (tried : stage.Tried call log) :
    stage'.Tried call (log ++ seen) := by
  cases step with
  | send pin behind => exact ⟨log, [], rfl, List.not_mem_nil⟩
  | accept pin behind same =>
      obtain ⟨early, middle, rfl, unentered⟩ := tried
      exact ⟨early, middle ++ [.accepted call], by simp, by simp [unentered], by simp⟩
  | _ => trivial

/-- A PIN that comes to count as entered was accepted before. -/
theorem Step.enteredSince {call : Nat} {log seen : List Moment} {stage stage' : Stage}
    {e e' : Engine} (step : Step call stage e stage' e' seen) (tried : stage.Tried call log)
    (since : e.client.pinUnlocked = true → EnteredSince log)
    (entered : e'.client.pinUnlocked = true) : EnteredSince (log ++ seen) := by
  have before (was : e.client.pinUnlocked = true) : EnteredSince (log ++ seen) :=
    (since was).append step.login_not_mem
  cases step with
  | enter behind =>
      obtain ⟨early, middle, rfl, unentered, accepted⟩ := tried
      exact ⟨call, early, middle, [], by simp, unentered, accepted, List.not_mem_nil⟩
  | fail pin behind same | accept pin behind same | miss id finish cause same
  | hear id finish s same => exact before (same ▸ entered)
  | _ => exact before entered

/-! ### Runs -/

/-- What is known of the calls and of the flag. -/
structure Kept (s : Screening) : Prop where
  calls : ∀ (call : Nat) (c : Call), s.calls[call]? = some c →
    c.Known call s.engine.client.pinUnlocked s.log ∧ c.stage.Tried call s.log
  begun : ∀ m ∈ s.log, ∀ call, m.call? = some call → call < s.calls.length
  entered : s.engine.client.pinUnlocked = true → EnteredSince s.log

theorem Kept.login {s : Screening} (kept : s.Kept) : s.login.Kept where
  calls call c there := by
    obtain ⟨known, tried⟩ := kept.calls call c there
    have foreign : ∀ m ∈ [Moment.login], m.call? ≠ some call := by simp [Moment.call?]
    exact ⟨known.elsewhere foreign (.inl (List.mem_singleton_self _)), tried.append (by simp)⟩
  begun m mem call its := by
    rcases List.mem_append.mp mem with before | now
    · exact kept.begun m before call its
    · rw [List.mem_singleton.mp now] at its
      cases its
  entered := nofun

theorem Kept.others {s : Screening} (kept : s.Kept) {e : Engine}
    (same : e.client.pinUnlocked = s.engine.client.pinUnlocked) : Kept { s with engine := e } := by
  obtain ⟨calls, begun, entered⟩ := kept
  rw [← same] at calls entered
  exact ⟨calls, begun, entered⟩

theorem Kept.call {s : Screening} (kept : s.Kept) (what : Playback) (wish : Wish) :
    (s.call what wish).Kept where
  calls call c there := by
    rw [Screening.call, List.getElem?_append] at there
    split at there
    next => exact kept.calls call c there
    next late =>
      rw [List.getElem?_singleton] at there
      split at there
      next =>
        obtain rfl := Option.some.inj there
        refine ⟨Call.known_begin (fun m mem its => late (kept.begun m mem call its)) _, trivial⟩
      next => cases there
  begun m mem call its := by
    have before := kept.begun m mem call its
    rw [Screening.call, List.length_append]
    exact Nat.lt_add_right _ before
  entered := kept.entered

theorem Kept.goOn {s : Screening} (kept : s.Kept) (call : Nat) : (s.goOn call).Kept := by
  rw [Screening.goOn]
  split
  next => exact kept
  next c there =>
    have step := step_next call c.stage s.engine
    generalize c.stage.next call s.engine = outcome at step ⊢
    obtain ⟨stage, e, seen⟩ := outcome
    obtain ⟨known, tried⟩ := kept.calls call c there
    constructor
    case calls =>
      intro call' c' there'
      rw [List.getElem?_set] at there'
      split at there'
      next same =>
        subst same
        split at there'
        · obtain rfl := Option.some.inj there'
          exact ⟨known.step step, step.tried tried⟩
        · cases there'
      next other =>
        obtain ⟨known, tried⟩ := kept.calls call' c' there'
        have foreign : ∀ m ∈ seen, m.call? ≠ some call' := by
          intro m mem its
          exact other (Option.some.inj ((step.call?_eq mem).symm.trans its))
        exact ⟨known.elsewhere foreign (.inr step.stays_entered),
          tried.append fun mem => foreign _ mem rfl⟩
    case begun =>
      intro m mem call' its
      rw [List.length_set]
      rcases List.mem_append.mp mem with before | now
      · exact kept.begun m before call' its
      · obtain rfl := Option.some.inj ((step.call?_eq now).symm.trans its)
        exact (List.getElem?_eq_some_iff.mp there).1
    case entered => exact step.enteredSince tried kept.entered

theorem kept_of_run {s : Screening} (run : s.Run) : s.Kept := by
  induction run with
  | start => exact ⟨nofun, nofun, nofun⟩
  | login _ ih => exact ih.login
  | call _ what wish ih => exact ih.call what wish
  | goOn _ call ih => exact ih.goOn call
  | others _ same ih => exact ih.others same

/-- What holds of a call that has something played while others do, too. -/
structure Guarded (s : Screening) (call : Nat) (c : Call) : Prop where
  /-- Something locked is played only if the PIN counts as entered when the call returns, unless a
  login came in between. Then a PIN that was accepted came to count as entered since the last
  login. -/
  opened : ∀ answer seen, c.stage = .comes (.ends (.ok answer)) → .gate call true seen ∈ s.log →
    c.Quiet s.log → s.engine.client.pinUnlocked = true ∧ EnteredSince s.log
  /-- Without a PIN it is refused, and no stream of an event is asked for. -/
  refused : Refused call s.log → c.stage = .refused ∧ .askedEvent call ∉ s.log
  /-- The host is asked once at most, unless a login came in between. -/
  once : c.Quiet s.log → s.log.count (.prompted call) ≤ 1
  /-- It is asked only for something locked that is found shut. -/
  needed : .prompted call ∈ s.log → .gate call true false ∈ s.log ∧
    (c.Quiet s.log → c.entered = false)

theorem guarded_of_run {s : Screening} (run : s.Run) {call : Nat} {c : Call}
    (there : s.calls[call]? = some c) : s.Guarded call c := by
  have kept := kept_of_run run
  obtain ⟨known, -⟩ := kept.calls call c there
  constructor
  case opened =>
    intro answer seen returns gate quiet
    have entered : s.engine.client.pinUnlocked = true := by
      rcases known.opened quiet ⟨seen, gate⟩ with waits | refused | entered
      · rw [returns] at waits
        cases waits
      · have ends := (known.refused refused).1
        rw [returns] at ends
        cases ends
      · exact entered
    exact ⟨entered, kept.entered entered⟩
  case refused => exact known.refused
  case once => exact known.once
  case needed =>
    intro prompted
    have gate := known.prompted prompted
    exact ⟨gate, known.shut gate⟩

/-! ### Calls that nobody comes between -/

/-- From a moment on only one call goes on. -/
inductive Alone (s₀ : Screening) (call : Nat) : Screening → Prop where
  | start : Alone s₀ call s₀
  | goOn {s : Screening} (alone : Alone s₀ call s) : Alone s₀ call (s.goOn call)

theorem Alone.run {s₀ s : Screening} {call : Nat} (alone : s₀.Alone call s) (run : s₀.Run) :
    s.Run := by
  induction alone with
  | start => exact run
  | goOn _ ih => exact ih.goOn call

/-- Alone, a call comes to a stage, with the engine as it is then. -/
def Comes (s₀ : Screening) (call : Nat) (stage : Stage) (e : Engine) : Prop :=
  ∃ s : Screening, s₀.Alone call s ∧ s.engine = e ∧
    ∃ c : Call, s.calls[call]? = some c ∧ c.stage = stage

section

variable {s₀ : Screening} {call : Nat} {e : Engine}

theorem Comes.next {stage stage' : Stage} {e' : Engine} {seen : List Moment}
    (comes : s₀.Comes call stage e) (goes : stage.next call e = (stage', e', seen)) :
    s₀.Comes call stage' e' := by
  obtain ⟨s, alone, rfl, c, there, rfl⟩ := comes
  have inside : call < s.calls.length := (List.getElem?_eq_some_iff.mp there).1
  refine ⟨s.goOn call, alone.goOn, ?_⟩
  rw [Screening.goOn, there]
  dsimp only
  rw [goes]
  exact ⟨rfl, _, List.getElem?_set_self inside, rfl⟩

/-- At a gate a call does what the engine does in one go. -/
theorem Comes.unlock {locked passed : Bool} {behind : Visit} {e' : Engine}
    (comes : s₀.Comes call (.comes (.gate locked behind)) e)
    (outcome : e.unlock locked = (passed, e')) :
    s₀.Comes call (bif passed then .comes behind else .refused) e' := by
  rw [Engine.unlock] at outcome
  split at outcome
  next free =>
    obtain ⟨rfl, rfl⟩ := Prod.mk.inj outcome
    exact comes.next (by rw [Stage.next, if_pos free]; rfl)
  next shut =>
    have prompts : s₀.Comes call (.prompts behind) e := comes.next (by rw [Stage.next, if_neg shut])
    have listens : s₀.Comes call (.listens behind) e.prompted := prompts.next rfl
    dsimp only at outcome
    split at outcome
    next unanswered =>
      obtain ⟨rfl, rfl⟩ := Prod.mk.inj outcome
      exact listens.next (by rw [Stage.next, Engine.prompted, unanswered]; rfl)
    next pin answered =>
      have tries : s₀.Comes call (.tries pin behind) e.prompted :=
        listens.next (by rw [Stage.next, Engine.prompted, answered])
      have awaits : s₀.Comes call (.awaits pin behind) e.prompted := tries.next rfl
      rw [Client.pinUnlock] at outcome
      rcases answer : e.prompted.client.callInSession .pinUnlock [("pin", pin)] with
        ⟨_ | root, client⟩
      · have refused : s₀.Comes call .refused { e.prompted with client } :=
          awaits.next (by rw [Stage.next, answer])
        rw [show (e.tell _).client.callInSession _ _ = _ from answer] at outcome
        obtain ⟨rfl, rfl⟩ := Prod.mk.inj outcome
        exact refused
      · have enters : s₀.Comes call (.enters behind) { e.prompted with client } :=
          awaits.next (by rw [Stage.next, answer])
        rw [show (e.tell _).client.callInSession _ _ = _ from answer] at outcome
        obtain ⟨rfl, rfl⟩ := Prod.mk.inj outcome
        exact (enters.next rfl).next rfl

/-- A call that nobody comes between ends as it does in one go. -/
theorem Comes.left {v : Visit} (comes : s₀.Comes call (.comes v) e) :
    s₀.Comes call (.comes (.ends (v.run e).1)) (v.run e).2 := by
  induction v generalizing e with
  | ends answer => exact comes
  | looks rest ih => exact ih e (comes.next rfl)
  | gate locked behind ih =>
      rw [Visit.run, Engine.guarded]
      rcases outcome : e.unlock locked with ⟨_ | _, e'⟩
      · exact comes.unlock outcome
      · exact ih (comes.unlock outcome)
  | event id finish =>
      have hears : s₀.Comes call (.hears id finish) e := comes.next rfl
      rw [Visit.run, Engine.eventStream]
      split
      next cause client result => exact hears.next (by rw [Stage.next, result]; rfl)
      next s client result =>
        have types : s₀.Comes call (.types s finish) { e with client } :=
          hears.next (by rw [Stage.next, result])
        exact types.next rfl

/-- A call that nobody comes between has played what the engine plays. -/
theorem comes_of_call (s : Screening) (what : Playback) (wish : Wish) :
    (s.call what wish).Comes s.calls.length
      (.comes (.ends ((s.engine.play what).1.map
        (wish.finish what s.engine.settings.useAdaptive)))) (s.engine.play what).2 := by
  have begins : (s.call what wish).Comes s.calls.length
      (.comes (.of (wish.finish what s.engine.settings.useAdaptive) what)) s.engine :=
    ⟨_, .start, rfl, _, List.getElem?_concat_length, rfl⟩
  have left := begins.left
  rwa [Visit.run_of] at left

/-- So what happens in a course happens in a run, a login and each call in one go. -/
theorem exists_run {s : Course} (run : s.Run) : ∃ t : Screening, t.Run ∧ t.engine = s.engine := by
  induction run with
  | start settings account server pairStore host clock =>
      exact ⟨_, .start settings account server pairStore host clock, rfl⟩
  | @act s run a ih =>
      obtain ⟨t, goes, same⟩ := ih
      rw [Course.act_engine, ← same]
      have quiet {e' : Engine} (called : ∃ xs, Client.Called t.engine.client e'.client xs) :
          ∃ t : Screening, t.Run ∧ t.engine = e' :=
        ⟨_, goes.others called.choose_spec.pinUnlocked, rfl⟩
      have still : ∃ xs, Client.Called t.engine.client t.engine.client xs := ⟨[], .refl _⟩
      cases a with
      | work job =>
          rcases t.engine.work_client job with ⟨-, client⟩ | ⟨-, called⟩
          · have shut : (t.engine.work job).client.pinUnlocked = false :=
              client ▸ (Client.grown_login t.engine.client).pinUnlocked
            exact ⟨_, goes.login.others shut, rfl⟩
          · exact quiet called
      | serve call =>
          cases call with
          | play what =>
              obtain ⟨t', alone, ends, -⟩ := t.comes_of_call what .stream
              exact ⟨t', alone.run (goes.call what .stream), ends⟩
          | addTimer uid start =>
              have booking := t.engine.addTimer_booking uid start
              rw [Engine.act, Engine.serve]
              generalize t.engine.addTimer uid start = answer at booking ⊢
              cases booking with
              | failed err called | noted found recordId called => exact quiet called
          | deleteRecording id => exact quiet (t.engine.deleteRecording_called id).1
          | deleteTimer index => exact quiet (t.engine.deleteRecording_called _).1
          | channels | guideOf | setMaxDays | stop => exact quiet still
      | meanwhile server pairStore host clock worker =>
          exact ⟨_, goes.others (e := t.engine.act (.meanwhile server pairStore host clock worker))
            rfl, rfl⟩

end

/-- Calls that have something played keep to the gate of the PIN, whatever comes in between their
moments. If nothing does, they do what the engine does in one go, as in a course. Then what is
locked is known when the call begins. -/
theorem pin_guards_calls :
    (∀ s : Screening, s.Run →
      (∀ (call : Nat) (c : Call), s.calls[call]? = some c → s.Guarded call c) ∧
      ∀ (what : Playback) (wish : Wish), (s.call what wish).Comes s.calls.length
        (.comes (.ends ((s.engine.play what).1.map
          (wish.finish what s.engine.settings.useAdaptive)))) (s.engine.play what).2) ∧
    ∀ s : Course, s.Run → ∀ what : Playback,
      s.AsksPin (s.engine.Locked what) (s.engine.play what) ∧
        s.AsksPin (s.engine.Locked what) (s.engine.playProperties what) := by
  refine ⟨fun s run => ⟨fun call c there => ?_, fun what wish => ?_⟩, fun s run what => ?_⟩
  · exact guarded_of_run run there
  · exact s.comes_of_call what wish
  · exact Course.pin_guards_streams run what

/-- The calls go on in this order. -/
def follow (s : Screening) (calls : List Nat) : Screening := calls.foldl goOn s

theorem Run.follow {s : Screening} (run : s.Run) (calls : List Nat) : (s.follow calls).Run := by
  induction calls generalizing s with
  | nil => exact run
  | cons call calls ih => exact ih (run.goOn call)

/-- Whether a call has come to an end with an answer. -/
def Stage.answered : Stage → Bool
  | comes (.ends (.ok _)) => true
  | _ => false

theorem Stage.exists_of_answered {stage : Stage} (answered : stage.answered = true) :
    ∃ answer, stage = .comes (.ends (.ok answer)) := by
  unfold Stage.answered at answered
  split at answered
  · exact ⟨_, rfl⟩
  · cases answered

/-- A channel as the service lists it when it says no more than that it is locked. -/
def lockedChannel : Channel :=
  { id := "ct1", uniqueId := 1, channelNumber := 1, isRadio := true, isPinLocked := true }

/-- A course to an engine with a session and a locked channel, whose service accepts a PIN
once. -/
def behindPin : Course :=
  let server := (Client.welcoming.reroute "playlist"
    [.body "\x7b\"status\":1,\"channels\":[\x7b\"id\":\"ct1\",\"locked\":\"pin\"\x7d]\x7d"]).reroute
    "pin-unlock" [.body "\x7b\"status\":1\x7d", .unreachable "timeout"]
  let start : Course :=
    ⟨.create {} { account := default, server, pairStore := {} } { pin := some "1234" } 0, []⟩
  (start.act (.work (.logIn 0 .launch))).act (.work .loadLineup)

theorem run_behindPin : behindPin.Run := ((Course.Run.start _ _ _ _ _ _).act _).act _

/-- A login has begun, and then the service has listed a locked channel. It will accept a PIN
once. -/
def shutIn : Screening := ⟨behindPin.engine, [], [.login]⟩

theorem run_shutIn : shutIn.Run := by
  have shut : behindPin.engine.client.pinUnlocked = false := by decide +kernel
  exact (Run.start {} default {} {} {} 0).login.others shut

/-- Two calls for the channel have sent a PIN each. That of the first is accepted. -/
def twoAtGate : Screening :=
  ((shutIn.call (.channel 1) .stream).call (.channel 1) .properties).follow
    [0, 0, 0, 0, 0, 1, 1, 1, 1, 1, 0, 0, 0, 1]

theorem run_twoAtGate : twoAtGate.Run :=
  ((run_shutIn.call (.channel 1) .stream).call (.channel 1) .properties).follow _

/-- The first call is answered, the PIN entered. The other is refused. If the first call is alone,
as in a course, it is answered as well. -/
theorem two_calls_at_gate :
    (twoAtGate.engine.client.pinUnlocked = true ∧ EnteredSince twoAtGate.log ∧
      twoAtGate.log.count (.prompted 0) ≤ 1) ∧
    (∃ c, twoAtGate.calls[1]? = some c ∧ c.stage = .comes (.ends (.error .pinRequired)) ∧
      .gate 1 true false ∈ twoAtGate.log) ∧
    (behindPin.engine.play (.channel 1)).2.client.pinUnlocked = true := by
  obtain ⟨moments, course⟩ := pin_guards_calls
  obtain ⟨calls, -⟩ := moments twoAtGate run_twoAtGate
  obtain ⟨first, second, later, gate, failed, prompted⟩ :
      twoAtGate.calls[0]?.map (fun c => (c.start, c.stage.answered)) = some (1, true) ∧
      twoAtGate.calls[1]?.map Call.start = some 1 ∧ .login ∉ twoAtGate.log.drop 1 ∧
      .gate 0 true false ∈ twoAtGate.log ∧ .failed 1 ∈ twoAtGate.log ∧
      .prompted 1 ∈ twoAtGate.log := by
    decide +kernel
  obtain ⟨c, there, known⟩ := Option.map_eq_some_iff.mp first
  obtain ⟨c', there', -⟩ := Option.map_eq_some_iff.mp second
  obtain ⟨start, answered⟩ := Prod.mk.inj known
  obtain ⟨answer, returns⟩ := Stage.exists_of_answered answered
  have guarded := calls 0 c there
  have guarded' := calls 1 c' there'
  have quiet : c.Quiet twoAtGate.log := by rwa [Call.Quiet, start]
  obtain ⟨entered, since⟩ := guarded.opened answer false returns gate quiet
  refine ⟨⟨entered, since, guarded.once quiet⟩,
    ⟨c', there', (guarded'.refused (.inr failed)).1, (guarded'.needed prompted).1⟩, ?_⟩
  obtain ⟨found, played⟩ : behindPin.engine.findChannel 1 = .ok lockedChannel ∧
      (behindPin.engine.play (.channel 1)).1.isOk = true := by
    decide +kernel
  have locked : behindPin.engine.Locked (.channel 1) := ⟨lockedChannel, found, rfl⟩
  exact ((course behindPin run_behindPin (.channel 1)).1.opened locked played).1

/-- A call for the channel has had the PIN entered, and a login begins before it returns. -/
def overtaken : Screening :=
  ((shutIn.call (.channel 1) .stream).follow [0, 0, 0, 0, 0, 0, 0]).login.goOn 0

/-- It is not true that something locked is played only if the PIN counts as entered when the call
returns: a login may take it back behind the gate. -/
theorem not_always_entered : ¬ ∀ s : Screening, s.Run → ∀ (call : Nat) (c : Call),
    s.calls[call]? = some c → ∀ answer seen, c.stage = .comes (.ends (.ok answer)) →
      .gate call true seen ∈ s.log → s.engine.client.pinUnlocked = true := by
  intro always
  have run : overtaken.Run := (((run_shutIn.call (.channel 1) .stream).follow _).login).goOn 0
  obtain ⟨first, gate, shut⟩ : overtaken.calls[0]?.map (·.stage.answered) = some true ∧
      .gate 0 true false ∈ overtaken.log ∧ overtaken.engine.client.pinUnlocked = false := by
    decide +kernel
  obtain ⟨c, there, answered⟩ := Option.map_eq_some_iff.mp first
  obtain ⟨answer, returns⟩ := Stage.exists_of_answered answered
  have entered := always overtaken run 0 c there answer false returns gate
  exact absurd (shut.symm.trans entered) (by decide)

end Screening

end PvrBackend
