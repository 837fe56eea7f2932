import PvrBackend.Proofs.Engine.Frames
import PvrBackend.Proofs.Engine.Scenes
import PvrBackend.Proofs.Session.Exchanges

/-!
# What the host is told of lineups

The worker loads the lineup from time to time, and the host fetches channels whenever it likes, by
several calls at a time. Both are taken apart here into their moments. In a load the service
answers, the host is told how many channels there are, the lineup is published, and the changes are
reported. A call waits for a lineup, reads the channels, notes that the host has channels, and
returns. Any moments of others may come in between any two of these.

A log keeps what counts of all this. It says what is published: the lineup of the last answer that
was loaded, channels and groups alike, and none before the first. It says as well what the host was
told: the number of channels of each lineup that was published, and the changes of channels and of
groups for those before which a call had noted that the host has channels. So a host that has got
channels learns that they have changed. A call that still waits when a lineup is published changes
nothing, and has that lineup to read.
-/

namespace PvrBackend

/-- Whether the host is told this because of the lineup. -/
def Callback.isOfLineup : Callback → Bool
  | .notify _ | .channelsChanged | .channelGroupsChanged => true
  | _ => false

namespace Publication

/-- What a load of the lineup has still to do. -/
inductive Stage where
  | idle
  /-- The service is to answer. -/
  | asking
  /-- The host is to be told the number of channels. -/
  | answered (root : Json)
  /-- The lineup is to be published. -/
  | told (root : Json)
  /-- The host is to be told of changes of channels and of groups. -/
  | channels
  /-- The host is to be told of changes of groups. -/
  | groups

instance (stage : Stage) : Decidable (stage = .idle) :=
  match stage with
  | .idle => isTrue rfl
  | .asking | .answered _ | .told _ | .channels | .groups => isFalse nofun

/-- What a call of the host for channels has still to do. -/
inductive CallStage where
  /-- To wait for a lineup. How long it does is left open: until there is one, or the worker is to
  end, or its time is up. -/
  | waits
  | reads
  /-- To note that the host has channels. -/
  | marks (found : List Channel)
  | returns (found : List Channel)
  | ended

/-- A call of the host for television or radio channels. -/
structure Call where
  radio : Bool
  stage : CallStage

/-- What is remembered. The calls of the host are numbered in the order in which they begin. -/
inductive Moment where
  | called (call : Nat) (radio : Bool)
  /-- A call waits no longer; whether there is a lineup. -/
  | waited (call : Nat) (isThere : Bool)
  | read (call : Nat) (found : List Channel)
  | marked (call : Nat)
  | returned (call : Nat) (found : List Channel)
  /-- The service gave no lineup. -/
  | failed
  /-- The lineup of an answer was published. -/
  | loaded (root : Json)

namespace Moment

def isCalled : Moment → Bool
  | called .. => true
  | _ => false

def isMarked : Moment → Bool
  | marked _ => true
  | _ => false

/-- The answer that was loaded. -/
def root? : Moment → Option Json
  | loaded root => some root
  | _ => none

end Moment

/-- The lineup of the last answer that was loaded. -/
def lineup (s : Settings) (log : List Moment) : Lineup :=
  ((log.filterMap Moment.root?).getLast?.map (Lineup.ofAnswer s)).getD {}

/-- Text that tells the number of channels in an answer. -/
def countText (s : Settings) (root : Json) : String :=
  Engine.loadedMessage (Lineup.ofAnswer s root).channels.length

/-- The changes that are reported with a lineup: both if the host was noted to have channels. -/
def changes (before : List Moment) : List Callback :=
  if before.any Moment.isMarked then [.channelsChanged, .channelGroupsChanged] else []

/-- What the host is told because of a moment. -/
def report (s : Settings) (before : List Moment) : Moment → List Callback
  | .loaded root => .notify (countText s root) :: changes before
  | _ => []

/-- What the host is told because of moments, after those before. -/
def reports (s : Settings) : List Moment → List Moment → List Callback
  | _, [] => []
  | before, m :: rest => report s before m ++ reports s (before ++ [m]) rest

/-- What a moment of a call comes after. -/
def Moment.Follows (s : Settings) (before : List Moment) : Moment → Prop
  | .waited call isThere =>
      (∃ radio, .called call radio ∈ before) ∧ (isThere = true ↔ ∃ root, .loaded root ∈ before)
  | .read call found => (∃ isThere, .waited call isThere ∈ before) ∧
      ∃ radio, .called call radio ∈ before ∧
        found = (lineup s before).channels.filter (·.isRadio == radio)
  | .marked call => ∃ found, .read call found ∈ before
  | .returned call found => .marked call ∈ before ∧ .read call found ∈ before
  | .called .. | .failed | .loaded _ => True

/-- What was remembered of a call that has come to its stage. -/
def Call.Reached (c : Call) (call : Nat) (log : List Moment) : Prop :=
  .called call c.radio ∈ log ∧
    match c.stage with
    | .waits | .ended => True
    | .reads => ∃ isThere, .waited call isThere ∈ log
    | .marks found => .read call found ∈ log
    | .returns found => .marked call ∈ log ∧ .read call found ∈ log

/-- What the host was told before its moment. -/
def Stage.ahead (s : Settings) : Stage → List Callback
  | .told root => [.notify (countText s root)]
  | _ => []

/-- What the host is still to be told. -/
def Stage.behind : Stage → List Callback
  | .channels => [.channelsChanged, .channelGroupsChanged]
  | .groups => [.channelGroupsChanged]
  | _ => []

end Publication

/-- An engine with the stage of a load, the calls for channels, and what is remembered, oldest
first. -/
structure Publication where
  engine : Engine
  stage : Publication.Stage
  calls : List Publication.Call
  log : List Publication.Moment

namespace Engine

/-- Something else happens: whatever has to do with the lineup stays. -/
structure Aside (e e' : Engine) : Prop where
  settings : e'.settings = e.settings
  lineup : e'.store.lineup = e.store.lineup
  loaded : e'.store.lineupLoaded = e.store.lineupLoaded
  delivered : e'.store.channelsDelivered = e.store.channelsDelivered
  callbacks : e'.callbacks.filter Callback.isOfLineup = e.callbacks.filter Callback.isOfLineup

/-- The first part of starting over: forget what is loaded of the guide, and move the window. -/
def startOver (e : Engine) : Engine :=
  { e with
    store := e.store.setMaxDays e.store.futureDays e.store.pastDays e.now
    worker := { e.worker with coverage := e.worker.coverage.reset } }

theorem fullRefresh_eq (e : Engine) : e.fullRefresh = e.startOver.loadLineup := rfl

end Engine

namespace Publication

/-- A load begins, unless the worker is to end. -/
def begin (s : Publication) : Publication :=
  { s with stage := if s.engine.store.running then .asking else .idle }

/-- The service answers. -/
def answer (s : Publication) : Publication :=
  let e := s.engine
  match e.client.playlist e.settings.quality e.settings.useH265 e.settings.useAdaptive with
  | (.error _, client) => ⟨{ e with client }, .idle, s.calls, s.log ++ [.failed]⟩
  | (.ok root, client) => ⟨{ e with client }, .answered root, s.calls, s.log⟩

/-- The lineup is published, and the changes are due if the host was noted to have channels. -/
def publish (s : Publication) (root : Json) : Publication :=
  let (delivered, store) := s.engine.store.publishLineup (Lineup.ofAnswer s.engine.settings root)
  ⟨{ s.engine with store }, if delivered then .channels else .idle, s.calls,
    s.log ++ [.loaded root]⟩

/-- The next moment of a load. -/
def next (s : Publication) : Publication :=
  match s.stage with
  | .idle => s
  | .asking => s.answer
  | .answered root =>
    { s with
      engine := s.engine.tell (.notify (countText s.engine.settings root))
      stage := .told root }
  | .told root => s.publish root
  | .channels => { s with engine := s.engine.tell .channelsChanged, stage := .groups }
  | .groups => { s with engine := s.engine.tell .channelGroupsChanged, stage := .idle }

/-- The host begins to call for channels. -/
def call (s : Publication) (radio : Bool) : Publication :=
  { s with
    calls := s.calls ++ [⟨radio, .waits⟩]
    log := s.log ++ [.called s.calls.length radio] }

/-- A call comes to a stage, and this is remembered of it. -/
def turn (s : Publication) (call : Nat) (c : Call) (m : Moment) : Publication :=
  { s with calls := s.calls.set call c, log := s.log ++ [m] }

/-- The next moment of a call that has come to a stage. -/
def serve (s : Publication) (call : Nat) (c : Call) : Publication :=
  match c.stage with
  | .waits => s.turn call { c with stage := .reads } (.waited call s.engine.store.lineupLoaded)
  | .reads =>
    let found := (s.engine.channels c.radio).1
    s.turn call { c with stage := .marks found } (.read call found)
  | .marks found =>
    let s := s.turn call { c with stage := .returns found } (.marked call)
    { s with engine := (s.engine.channels c.radio).2 }
  | .returns found => s.turn call { c with stage := .ended } (.returned call found)
  | .ended => s

/-- The next moment of a call. -/
def goOn (s : Publication) (call : Nat) : Publication :=
  match s.calls[call]? with
  | none => s
  | some c => s.serve call c

/-- Runs of loads, full refreshes and calls for channels, with anything else in between. -/
inductive Run : Publication → Prop where
  | start (settings : Settings) (account : Account) (server : Server) (pairStore : PairStore)
      (host : Host) (clock : Int) :
      Run ⟨.create settings { account, server, pairStore } host clock, .idle, [], []⟩
  | load {s : Publication} (run : Run s) (idle : s.stage = .idle) : Run s.begin
  | refresh {s : Publication} (run : Run s) (idle : s.stage = .idle) :
      Run { s with engine := s.engine.startOver }.begin
  | next {s : Publication} (run : Run s) : Run s.next
  | call {s : Publication} (run : Run s) (radio : Bool) : Run (s.call radio)
  | goOn {s : Publication} (run : Run s) (call : Nat) : Run (s.goOn call)
  | aside {s : Publication} (run : Run s) {e : Engine} (aside : s.engine.Aside e) :
      Run { s with engine := e }

/-! ### What the log says -/

theorem reports_concat (s : Settings) (before log : List Moment) (m : Moment) :
    reports s before (log ++ [m]) = reports s before log ++ report s (before ++ log) m := by
  induction log generalizing before with
  | nil => simp [reports]
  | cons m' log ih =>
      rw [List.cons_append, reports, reports, ih, List.append_assoc, List.append_assoc]
      rfl

theorem lineup_loaded (s : Settings) (log : List Moment) (root : Json) :
    lineup s (log ++ [.loaded root]) = Lineup.ofAnswer s root := by
  simp [lineup, Moment.root?]

/-- Only loads count for the lineup. -/
theorem lineup_other (s : Settings) (log : List Moment) {m : Moment} (other : m.root? = none) :
    lineup s (log ++ [m]) = lineup s log := by
  simp [lineup, other]

/-- What the log says of the engine. -/
structure Kept (s : Publication) : Prop where
  lineup : s.engine.store.lineup = lineup s.engine.settings s.log
  loaded : s.engine.store.lineupLoaded = s.log.any (·.root?.isSome)
  delivered : s.engine.store.channelsDelivered = s.log.any Moment.isMarked
  callbacks : s.engine.callbacks.filter Callback.isOfLineup ++ s.stage.behind =
    reports s.engine.settings [] s.log ++ s.stage.ahead s.engine.settings

theorem Kept.aside {s : Publication} (kept : s.Kept) {e : Engine} (aside : s.engine.Aside e) :
    Kept { s with engine := e } := by
  constructor
  case lineup => rw [aside.lineup, aside.settings, kept.lineup]
  case loaded => rw [aside.loaded, kept.loaded]
  case delivered => rw [aside.delivered, kept.delivered]
  case callbacks => rw [aside.callbacks, aside.settings, kept.callbacks]

/-- At another stage with as much to tell. -/
theorem Kept.turn {s : Publication} (kept : s.Kept) {stage : Stage}
    (behind : stage.behind = s.stage.behind)
    (ahead : stage.ahead s.engine.settings = s.stage.ahead s.engine.settings) :
    Kept { s with stage } := by
  constructor
  case lineup => exact kept.lineup
  case loaded => exact kept.loaded
  case delivered => exact kept.delivered
  case callbacks => rw [behind, ahead, kept.callbacks]

theorem Kept.begin {s : Publication} (kept : s.Kept) (idle : s.stage = .idle) : s.begin.Kept := by
  rw [Publication.begin]
  split
  · exact kept.turn (idle ▸ rfl) (idle ▸ rfl)
  · exact kept.turn (idle ▸ rfl) (idle ▸ rfl)

/-- Moments that are no loads and tell the host nothing. -/
theorem Kept.remember {s : Publication} (kept : s.Kept) {m : Moment} (other : m.root? = none)
    (unmarked : m.isMarked = false) (calls : List Call) :
    Kept { s with calls, log := s.log ++ [m] } := by
  have silent : report s.engine.settings s.log m = [] := by
    cases m with
    | loaded root => cases other
    | _ => rfl
  constructor
  case lineup => exact kept.lineup.trans (lineup_other _ _ other).symm
  case loaded =>
    show s.engine.store.lineupLoaded = _
    simp [kept.loaded, other]
  case delivered =>
    show s.engine.store.channelsDelivered = _
    simp [kept.delivered, unmarked]
  case callbacks =>
    show s.engine.callbacks.filter Callback.isOfLineup ++ s.stage.behind =
      reports s.engine.settings [] (s.log ++ [m]) ++ s.stage.ahead s.engine.settings
    rw [reports_concat, List.nil_append, silent, List.append_nil, kept.callbacks]

theorem Kept.mark {s : Publication} (kept : s.Kept) (call : Nat) (calls : List Call)
    (radio : Bool) :
    Kept ⟨(s.engine.channels radio).2, s.stage, calls, s.log ++ [.marked call]⟩ := by
  constructor
  case lineup => exact kept.lineup.trans (lineup_other _ _ rfl).symm
  case loaded =>
    show s.engine.store.lineupLoaded = _
    simp [kept.loaded, Moment.root?]
  case delivered =>
    show true = _
    simp [Moment.isMarked]
  case callbacks =>
    show s.engine.callbacks.filter Callback.isOfLineup ++ s.stage.behind =
      reports s.engine.settings [] (s.log ++ [.marked call]) ++ s.stage.ahead s.engine.settings
    rw [reports_concat, kept.callbacks]
    simp [report]

theorem Kept.serve {s : Publication} (kept : s.Kept) (call : Nat) (c : Call) :
    (s.serve call c).Kept := by
  rw [Publication.serve]
  split
  next => exact kept.remember rfl rfl _
  next => exact kept.remember rfl rfl _
  next => exact kept.mark _ _ _
  next => exact kept.remember rfl rfl _
  next => exact kept

theorem Kept.goOn {s : Publication} (kept : s.Kept) (call : Nat) : (s.goOn call).Kept := by
  rw [Publication.goOn]
  split
  next => exact kept
  next c _ => exact kept.serve call c

theorem Kept.answer {s : Publication} (kept : s.Kept) (asking : s.stage = .asking) :
    s.answer.Kept := by
  have asked (client : Client) : Kept { s with engine := { s.engine with client } } :=
    kept.aside ⟨rfl, rfl, rfl, rfl, rfl⟩
  rw [Publication.answer]
  split
  next client _ =>
    exact ((asked client).turn (asking ▸ rfl) (asking ▸ rfl)).remember rfl rfl s.calls
  next root client _ => exact (asked client).turn (asking ▸ rfl) (asking ▸ rfl)

/-- The host is told something that is due. -/
theorem Kept.tell {s : Publication} (kept : s.Kept) {c : Callback} (proper : c.isOfLineup = true)
    {stage : Stage} (free : s.stage.ahead s.engine.settings = [])
    (due : s.stage.behind ++ stage.ahead s.engine.settings = c :: stage.behind) :
    Kept { s with engine := s.engine.tell c, stage } := by
  constructor
  case lineup => exact kept.lineup
  case loaded => exact kept.loaded
  case delivered => exact kept.delivered
  case callbacks =>
    have before := kept.callbacks
    rw [free, List.append_nil] at before
    show (s.engine.callbacks ++ [c]).filter Callback.isOfLineup ++ stage.behind =
      reports s.engine.settings [] s.log ++ stage.ahead s.engine.settings
    rw [List.filter_append, List.filter_singleton, proper, cond_true, List.append_assoc,
      List.singleton_append, ← due, ← List.append_assoc, before]

theorem Kept.publish {s : Publication} (kept : s.Kept) {root : Json}
    (told : s.stage = .told root) : (s.publish root).Kept := by
  have callbacks : s.engine.callbacks.filter Callback.isOfLineup =
      reports s.engine.settings [] s.log ++ [.notify (countText s.engine.settings root)] := by
    simpa [told, Stage.behind, Stage.ahead] using kept.callbacks
  have due : (s.publish root).stage.behind = changes s.log := by
    rw [changes, ← kept.delivered, Publication.publish, Store.publishLineup]
    dsimp only
    split <;> rfl
  have free : (s.publish root).stage.ahead s.engine.settings = [] := by
    rw [Publication.publish]
    dsimp only
    split <;> rfl
  constructor
  case lineup => exact (lineup_loaded ..).symm
  case loaded => simp [Publication.publish, Store.publishLineup, Moment.root?]
  case delivered =>
    simpa [Publication.publish, Store.publishLineup, Moment.isMarked] using kept.delivered
  case callbacks =>
    show s.engine.callbacks.filter Callback.isOfLineup ++ _ =
      reports s.engine.settings [] (s.log ++ [.loaded root]) ++
        (s.publish root).stage.ahead s.engine.settings
    rw [due, free, reports_concat, List.nil_append, report, callbacks, List.append_assoc,
      List.append_nil, List.singleton_append]

theorem Kept.next {s : Publication} (kept : s.Kept) : s.next.Kept := by
  rw [Publication.next]
  split
  next => exact kept
  next asking => exact kept.answer asking
  next root answered => exact kept.tell rfl (answered ▸ rfl) (answered ▸ rfl)
  next root told => exact kept.publish told
  next due => exact kept.tell rfl (due ▸ rfl) (due ▸ rfl)
  next due => exact kept.tell rfl (due ▸ rfl) (due ▸ rfl)

theorem aside_startOver (e : Engine) : e.Aside e.startOver := ⟨rfl, rfl, rfl, rfl, rfl⟩

/-- The log says it all along. -/
theorem kept_of_run {s : Publication} (run : s.Run) : s.Kept := by
  induction run with
  | start => exact ⟨rfl, rfl, rfl, rfl⟩
  | load _ idle ih => exact ih.begin idle
  | refresh _ idle ih => exact (ih.aside (aside_startOver _)).begin idle
  | next _ ih => exact ih.next
  | call _ radio ih => exact ih.remember rfl rfl _
  | goOn _ call ih => exact ih.goOn call
  | aside _ aside ih => exact ih.aside aside

theorem Kept.loaded_iff {s : Publication} (kept : s.Kept) :
    s.engine.store.lineupLoaded = true ↔ ∃ root, .loaded root ∈ s.log := by
  rw [kept.loaded, List.any_eq_true]
  constructor
  · rintro ⟨m, mem, loads⟩
    cases m with
    | loaded root => exact ⟨root, mem⟩
    | _ => cases loads
  · rintro ⟨root, mem⟩
    exact ⟨_, mem, rfl⟩

/-! ### The order of the moments of a call -/

theorem Call.Reached.mono {c : Call} {call : Nat} {log log' : List Moment}
    (reached : c.Reached call log) (more : log ⊆ log') : c.Reached call log' := by
  obtain ⟨radio, stage⟩ := c
  refine ⟨more reached.1, ?_⟩
  have before := reached.2
  cases stage with
  | waits | ended => trivial
  | reads =>
      obtain ⟨isThere, waited⟩ := before
      exact ⟨isThere, more waited⟩
  | marks found => exact more before
  | returns found => exact ⟨more before.1, more before.2⟩

/-- The moments of each call are remembered in their order. -/
structure Orderly (settings : Settings) (calls : List Call) (log : List Moment) : Prop where
  follows : ∀ before m after, log = before ++ m :: after → m.Follows settings before
  calls : ∀ (call : Nat) (c : Call), calls[call]? = some c → c.Reached call log

namespace Orderly

variable {settings : Settings} {calls : List Call} {log : List Moment}

/-- One moment more that comes after what it should. -/
theorem remember (orderly : Orderly settings calls log) {m : Moment}
    (follows : m.Follows settings log) : Orderly settings calls (log ++ [m]) where
  follows := each_concat orderly.follows follows
  calls call c there := (orderly.calls call c there).mono (List.subset_append_left _ _)

/-- A call begins. -/
theorem call (orderly : Orderly settings calls log) (radio : Bool) :
    Orderly settings (calls ++ [⟨radio, .waits⟩]) (log ++ [.called calls.length radio]) where
  follows := each_concat orderly.follows trivial
  calls call c there := by
    rw [List.getElem?_append] at there
    split at there
    next => exact (orderly.calls call c there).mono (List.subset_append_left _ _)
    next late =>
      rw [List.getElem?_singleton] at there
      split at there
      next first =>
        obtain rfl := Option.some.inj there
        obtain rfl : call = calls.length := by omega
        exact ⟨List.mem_append_right _ (List.mem_singleton_self _), trivial⟩
      next => cases there

/-- A call comes to a stage by a moment. -/
theorem turn (orderly : Orderly settings calls log) {call : Nat} {c : Call} {m : Moment}
    (follows : m.Follows settings log) (reached : c.Reached call (log ++ [m])) :
    Orderly settings (calls.set call c) (log ++ [m]) where
  follows := each_concat orderly.follows follows
  calls call' c' there := by
    rw [List.getElem?_set] at there
    split at there
    next same =>
      subst same
      split at there
      · obtain rfl := Option.some.inj there
        exact reached
      · cases there
    next => exact (orderly.calls call' c' there).mono (List.subset_append_left _ _)

end Orderly

theorem Kept.orderly_serve {s : Publication} (kept : s.Kept)
    (orderly : Orderly s.engine.settings s.calls s.log) {call : Nat} {c : Call}
    (there : s.calls[call]? = some c) :
    Orderly (s.serve call c).engine.settings (s.serve call c).calls (s.serve call c).log := by
  obtain ⟨radio, stage⟩ := c
  obtain ⟨called, before⟩ := orderly.calls call _ there
  have still {m : Moment} : .called call radio ∈ s.log ++ [m] := List.mem_append_left _ called
  have last {m : Moment} : m ∈ s.log ++ [m] := List.mem_append_right _ (List.mem_singleton_self _)
  cases stage with
  | waits =>
      have follows : Moment.Follows s.engine.settings s.log
        (.waited call s.engine.store.lineupLoaded) := ⟨⟨radio, called⟩, kept.loaded_iff⟩
      exact orderly.turn follows ⟨still, _, last⟩
  | reads =>
      have follows : Moment.Follows s.engine.settings s.log
          (.read call (s.engine.channels radio).1) := by
        refine ⟨before, radio, called, ?_⟩
        rw [← kept.lineup]
        rfl
      exact orderly.turn follows ⟨still, last⟩
  | marks found =>
      have follows : Moment.Follows s.engine.settings s.log (.marked call) := ⟨found, before⟩
      exact orderly.turn follows ⟨still, last, List.mem_append_left _ before⟩
  | returns found =>
      have follows : Moment.Follows s.engine.settings s.log (.returned call found) := before
      exact orderly.turn follows ⟨still, trivial⟩
  | ended => exact orderly

theorem orderly_next {s : Publication} (orderly : Orderly s.engine.settings s.calls s.log) :
    Orderly s.next.engine.settings s.next.calls s.next.log := by
  rw [Publication.next]
  split
  next => exact orderly
  next =>
    rw [answer]
    split
    next => exact orderly.remember trivial
    next => exact orderly
  next => exact orderly
  next root _ => exact orderly.remember (m := .loaded root) trivial
  next => exact orderly
  next => exact orderly

theorem orderly_of_run {s : Publication} (run : s.Run) :
    Orderly s.engine.settings s.calls s.log := by
  induction run with
  | start => exact ⟨each_nil, nofun⟩
  | load _ idle ih => exact ih
  | refresh _ idle ih => exact ih
  | next _ ih => exact orderly_next ih
  | call _ radio ih => exact ih.call radio
  | goOn run call ih =>
      rw [goOn]
      split
      next => exact ih
      next c there => exact (kept_of_run run).orderly_serve ih there
  | aside _ aside ih =>
      rw [← aside.settings] at ih
      exact ih

end Publication

/-! ### Every course is such a run -/

namespace Engine

theorem filter_tellChanges (e : Engine) (changes : List GuideChange) :
    (e.tellChanges changes).callbacks.filter Callback.isOfLineup =
      e.callbacks.filter Callback.isOfLineup := by
  simp [tellChanges, List.filter_map, Function.comp_def, Callback.isOfLineup]

theorem aside_of_kept {e e' : Engine} (settings : e'.settings = e.settings)
    (kept : Store.Kept e.store e'.store)
    (callbacks : e'.callbacks.filter Callback.isOfLineup =
      e.callbacks.filter Callback.isOfLineup) : e.Aside e' := by
  obtain ⟨due, store⟩ := kept
  refine ⟨settings, ?_, ?_, ?_, callbacks⟩
  all_goals rw [store]

theorem aside_loginStep (e : Engine) (delay : Nat) (next : Resume) :
    e.Aside (e.loginStep delay next) := by
  unfold loginStep
  split
  · split
    · exact ⟨rfl, rfl, rfl, rfl, rfl⟩
    · split <;> refine ⟨rfl, rfl, rfl, rfl, ?_⟩ <;>
        simp [tell, proceed, sleep, Callback.isOfLineup]
  · exact ⟨rfl, rfl, rfl, rfl, rfl⟩

theorem aside_keepAliveJob (e : Engine) : e.Aside e.keepAliveJob := by
  unfold keepAliveJob
  split
  · split <;> exact ⟨rfl, rfl, rfl, rfl, rfl⟩
  · exact ⟨rfl, rfl, rfl, rfl, rfl⟩

theorem aside_publishListing (e : Engine) (l : Listing) : e.Aside (e.publishListing l) := by
  rw [publishListing_eq]
  refine ⟨rfl, rfl, rfl, rfl, ?_⟩
  cases e.recordingsChange l <;> cases e.timersChange l <;> simp [Callback.isOfLineup]

theorem aside_recordingsJob (e : Engine) : e.Aside e.recordingsJob.2 := by
  rw [recordingsJob]
  split
  · dsimp only
    split
    · rw [loadRecordings]
      split
      next => exact ⟨rfl, rfl, rfl, rfl, rfl⟩
      next root client _ =>
        have published := aside_publishListing
          { e with store := e.store.takeRequest.2, client } (Listing.ofAnswer
            e.store.lineup.channels e.host.lockedLabel e.now root)
        exact ⟨published.settings, published.lineup, published.loaded, published.delivered,
          published.callbacks⟩
    · exact ⟨rfl, rfl, rfl, rfl, rfl⟩
  · exact ⟨rfl, rfl, rfl, rfl, rfl⟩

theorem aside_loadChunk (e : Engine) (chunk : Chunk) : e.Aside (e.loadChunk chunk).2 := by
  rw [loadChunk]
  split
  · exact ⟨rfl, rfl, rfl, rfl, rfl⟩
  · split
    · exact ⟨rfl, rfl, rfl, rfl, rfl⟩
    · exact ⟨rfl, rfl, rfl, rfl, filter_tellChanges ..⟩

/-- Every job but the loads of the lineup is something else. -/
theorem aside_work {e : Engine} {job : Job} (other : job ≠ .loadLineup)
    (other' : job ≠ .fullRefresh) : e.Aside (e.work job) := by
  cases job with
  | logIn delay next => exact e.aside_loginStep delay next
  | keepAlive => exact e.aside_keepAliveJob
  | loadLineup => exact absurd rfl other
  | fullRefresh => exact absurd rfl other'
  | requestRecordings => exact ⟨rfl, rfl, rfl, rfl, rfl⟩
  | recordings => exact e.aside_recordingsJob
  | loadChunk chunk => exact e.aside_loadChunk chunk
  | releaseGuide => exact ⟨rfl, rfl, rfl, rfl, filter_tellChanges ..⟩

theorem aside_deleteRecording (e : Engine) (id : String) : e.Aside (e.deleteRecording id).2 := by
  rw [deleteRecording]
  split <;> exact ⟨rfl, rfl, rfl, rfl, rfl⟩

/-- Every call of the host but that for channels is something else. -/
theorem aside_serve {e : Engine} {call : HostCall} (other : ∀ radio, call ≠ .channels radio) :
    e.Aside (e.serve call) := by
  have settings := (e.disturbed_serve call).settings
  cases call with
  | channels radio => exact absurd rfl (other radio)
  | guideOf uid start stop => exact ⟨rfl, rfl, rfl, rfl, rfl⟩
  | setMaxDays future past => exact ⟨rfl, rfl, rfl, rfl, rfl⟩
  | play what =>
      have gated := e.play_gated what
      refine aside_of_kept settings gated.kept ?_
      rcases gated.prompts with silent | ⟨-, -, asked⟩
      · exact congrArg _ silent
      · show (e.play what).2.callbacks.filter _ = _
        simp [asked, Callback.isOfLineup]
  | addTimer uid start =>
      have booking := e.addTimer_booking uid start
      rw [serve]
      generalize e.addTimer uid start = answer at booking ⊢
      cases booking <;> exact ⟨rfl, rfl, rfl, rfl, rfl⟩
  | deleteRecording id => exact aside_deleteRecording e id
  | deleteTimer index => exact aside_deleteRecording e _
  | stop => exact ⟨rfl, rfl, rfl, rfl, rfl⟩

end Engine

namespace Publication

variable {e : Engine} {stage : Stage} {calls : List Call} {log : List Moment}

/-- The call that began last goes on. -/
theorem goOn_last (c : Call) : goOn ⟨e, stage, calls ++ [c], log⟩ calls.length =
    serve ⟨e, stage, calls ++ [c], log⟩ calls.length c := by
  rw [goOn, List.getElem?_concat_length]

theorem turn_last (c c' : Call) (m : Moment) :
    turn ⟨e, stage, calls ++ [c], log⟩ calls.length c' m =
      ⟨e, stage, calls ++ [c'], log ++ [m]⟩ := by
  simp [turn]

/-- A call that nothing comes in between. -/
theorem Run.channels (run : Run ⟨e, stage, calls, log⟩) (radio : Bool) :
    ∃ calls' log', Run ⟨(e.channels radio).2, stage, calls', log'⟩ := by
  have returned := ((((run.call radio).goOn calls.length).goOn calls.length).goOn
    calls.length).goOn calls.length
  simp only [Publication.call, goOn_last, serve, turn_last] at returned
  exact ⟨_, _, returned⟩

/-- An answer that comes to a load is published, and the changes are reported. -/
theorem Run.publishLineup {root : Json} (run : Run ⟨e, .answered root, calls, log⟩) :
    ∃ log', Run ⟨e.publishLineup root, .idle, calls, log'⟩ := by
  have published := run.next.next
  refine ⟨log ++ [.loaded root], ?_⟩
  cases delivered : e.store.channelsDelivered with
  | false =>
      simpa [Publication.next, publish, Engine.publishLineup, Store.publishLineup, Engine.tell,
        countText, delivered] using published
  | true =>
      simpa [Publication.next, publish, Engine.publishLineup, Store.publishLineup, Engine.tell,
        countText, delivered] using published.next.next

/-- A load that nothing comes in between is the job of the worker. -/
theorem Run.loadLineup (run : Run (begin ⟨e, .idle, calls, log⟩)) :
    ∃ log', Run ⟨e.loadLineup, .idle, calls, log'⟩ := by
  rw [begin] at run
  rw [Engine.loadLineup]
  split
  next running =>
    rw [if_pos running] at run
    have answered := run.next
    rw [Publication.next, Publication.answer] at answered
    dsimp only at answered
    rcases result : e.client.playlist e.settings.quality e.settings.useH265
      e.settings.useAdaptive with ⟨err | root, client⟩
    · rw [result] at answered
      exact ⟨_, answered⟩
    · rw [result] at answered
      exact answered.publishLineup
  next stopped =>
    rw [if_neg stopped] at run
    exact ⟨log, run⟩

/-- Courses of an engine are runs. -/
theorem exists_run {s : Course} (run : s.Run) :
    ∃ calls log, Run ⟨s.engine, .idle, calls, log⟩ := by
  induction run with
  | start settings account server pairStore host clock => exact ⟨[], [], .start ..⟩
  | @act s _ a ih =>
      obtain ⟨calls, log, run⟩ := ih
      cases a with
      | meanwhile server pairStore host clock worker =>
          exact ⟨calls, log, run.aside ⟨rfl, rfl, rfl, rfl, rfl⟩⟩
      | serve call =>
          by_cases fetches : ∃ radio, call = .channels radio
          · obtain ⟨radio, rfl⟩ := fetches
            exact run.channels radio
          · exact ⟨calls, log, run.aside (Engine.aside_serve (not_exists.mp fetches))⟩
      | work job =>
          by_cases loads : job = .loadLineup
          · subst loads
            exact ⟨calls, (run.load rfl).loadLineup⟩
          · by_cases refreshes : job = .fullRefresh
            · subst refreshes
              have refreshed := (run.refresh rfl).loadLineup
              rw [← Engine.fullRefresh_eq] at refreshed
              exact ⟨calls, refreshed⟩
            · exact ⟨calls, log, run.aside (Engine.aside_work loads refreshes)⟩

/-- What is published and what the host is told follow from the log. The lineup is that of the last
answer that was loaded, and until one was loaded there is none to wait for. With each lineup the
host is told the number of its channels, and if a call had noted that it has channels, of the
changes of channels and groups, once each and in this order. It is told nothing else. A call
returns the channels that were published when it read them, after it noted that: so the changes are
reported if a call had returned, and not if none had come to read. -/
theorem host_follows_lineups {s : Publication} (run : s.Run) :
    s.engine.store.lineup = lineup s.engine.settings s.log ∧
    (s.engine.store.lineupLoaded = true ↔ ∃ root, .loaded root ∈ s.log) ∧
    s.engine.callbacks.filter Callback.isOfLineup ++ s.stage.behind =
      reports s.engine.settings [] s.log ++ s.stage.ahead s.engine.settings ∧
    (∀ before m after, s.log = before ++ m :: after → m.Follows s.engine.settings before) ∧
    (∀ before root after, s.log = before ++ .loaded root :: after →
      ((∃ call found, .returned call found ∈ before) →
        changes before = [.channelsChanged, .channelGroupsChanged]) ∧
      ((∀ call found, .read call found ∉ before) → changes before = [])) := by
  have kept := kept_of_run run
  have follows := (orderly_of_run run).follows
  refine ⟨kept.lineup, kept.loaded_iff, kept.callbacks, follows, ?_⟩
  rintro before root after split
  -- what a moment before the load comes after is itself before the load
  have earlier {m : Moment} (mem : m ∈ before) :
      ∃ front, front ⊆ before ∧ m.Follows s.engine.settings front := by
    obtain ⟨front, back, rfl⟩ := List.append_of_mem mem
    refine ⟨front, List.subset_append_left _ _, follows front m (back ++ .loaded root :: after) ?_⟩
    rw [split, List.append_assoc, List.cons_append]
  constructor
  · rintro ⟨call, found, returned⟩
    obtain ⟨front, within, marked, -⟩ := earlier returned
    rw [changes, if_pos (List.any_eq_true.mpr ⟨_, within marked, rfl⟩)]
  · intro unread
    rw [changes, if_neg]
    intro some
    obtain ⟨m, mem, marks⟩ := List.any_eq_true.mp some
    cases m with
    | marked call =>
        obtain ⟨front, within, found, read⟩ := earlier mem
        exact unread call found (within read)
    | _ => cases marks

/-- A service that lists one channel the first time that it is asked. -/
def listingOnce : Server :=
  Client.welcoming.reroute "playlist"
    [.body "\x7b\"status\":1,\"channels\":[\x7b\"id\":\"ct1\",\"name\":\"One\"\x7d]\x7d",
      .unreachable "timeout"]

/-- An engine that was let in. -/
def admitted : Engine :=
  (Engine.create {} { account := default, server := listingOnce, pairStore := {} } {}
    1705316400000).work (.logIn 0 .launch)

theorem run_admitted : Run ⟨admitted, .idle, [], []⟩ :=
  (Run.start _ _ _ _ _ _).aside (Engine.aside_work nofun nofun)

/-- The host called for channels, and gave up waiting before there were any. -/
def askedEarly : Publication :=
  ((((call ⟨admitted, .idle, [], []⟩ false).goOn 0).goOn 0).goOn 0).goOn 0

/-- A load succeeds after that, and the next one fails. -/
def loadedLater : Publication := askedEarly.begin.next.next.next.next.next.begin.next

/-- The host is told of the first lineup, and that it changed. -/
theorem host_follows_first_lineup :
    loadedLater.Run ∧ loadedLater.log.length = 7 ∧
    loadedLater.engine.callbacks.filter Callback.isOfLineup =
      [.notify "1 channels loaded.", .channelsChanged, .channelGroupsChanged] ∧
    loadedLater.engine.store.lineup = lineup loadedLater.engine.settings loadedLater.log ∧
    loadedLater.engine.store.lineup.channels.map (·.id) = ["ct1"] := by
  have asked : askedEarly.Run :=
    ((((run_admitted.call false).goOn 0).goOn 0).goOn 0).goOn 0
  have loaded := (asked.load rfl).next.next.next.next.next
  have run : loadedLater.Run := (loaded.load (by decide +kernel)).next
  exact ⟨run, by decide +kernel, by decide +kernel, (host_follows_lineups run).1,
    by decide +kernel⟩

/-- The host called for channels, and still waits when the first lineup is published. -/
def stillWaiting : Publication := (call ⟨admitted, .idle, [], []⟩ false).begin.next.next.next

/-- It is not true that the host is told of changes whenever it had called for channels before. -/
theorem not_always_reported : ¬ ∀ s : Publication, s.Run → s.stage = .idle →
    (∃ before root after call radio,
      s.log = before ++ .loaded root :: after ∧ .called call radio ∈ before) →
    .channelsChanged ∈ s.engine.callbacks := by
  intro reported
  have run : stillWaiting.Run := ((run_admitted.call false).load rfl).next.next.next
  have idle : stillWaiting.stage = .idle := by decide +kernel
  have silent : .channelsChanged ∉ stillWaiting.engine.callbacks := by decide +kernel
  have shape : stillWaiting.log.map (fun m => (m.isCalled, m.root?.isSome)) =
      [(true, false), (false, true)] := by
    decide +kernel
  obtain ⟨m, m', log⟩ := List.length_eq_two.mp (by simpa using congrArg List.length shape)
  rw [log] at shape
  cases m with
  | called call radio =>
      cases m' with
      | loaded root =>
          exact silent (reported _ run idle
            ⟨[.called call radio], root, [], call, radio, log, List.mem_singleton_self _⟩)
      | _ => simp [Moment.root?] at shape
  | _ => simp [Moment.isCalled] at shape

end Publication

end PvrBackend
