import PvrBackend.Proofs.Engine.PinGate
import PvrBackend.Proofs.Engine.Routines

/-!
# The worker among others

While the worker follows its routines, others get at the engine too: the host calls, the service
changes its mind, and time passes, during requests and while the worker sleeps. A scene is an
engine with what is remembered of its past. A run takes the worker from scene to scene, by one
moment of its routine at a time, and lets the others come in between any two.

What holds in every run is shown by an outline: labels for what is known at the points of the
routines, such that the others change nothing of it and every routine leads from label to label.
-/

namespace PvrBackend

/-- What is remembered. -/
inductive Event where
  | noted (m : Mark) (time : Int)
  /-- The worker sent a request. The time is that at which it began to ask. -/
  | sent (x : Exchange) (time : Int)
  /-- The host made a refresh of the recordings due, which none was. -/
  | requested
  /-- The host had the worker end. -/
  | stopped
deriving DecidableEq, Repr

/-- An engine with what is remembered of its past, oldest first. -/
structure Scene where
  engine : Engine
  past : List Event

/-! ### What others do -/

namespace Engine

/-- What others do to an engine: they leave the worker, the clock and the settings alone, and the
worker that is to end stays so. -/
structure Disturbed (e e' : Engine) : Prop where
  settings : e'.settings = e.settings
  clock : e'.clock = e.clock
  worker : e'.worker = e.worker
  running : e.store.running = false → e'.store.running = false

/-- What is remembered of it. -/
def traces (e e' : Engine) : List Event :=
  (if e.store.running && !e'.store.running then [.stopped] else []) ++
    (if !e.store.loadRecordings && e'.store.loadRecordings then [.requested] else [])

theorem Disturbed.refl (e : Engine) : Disturbed e e := ⟨rfl, rfl, rfl, id⟩

theorem Disturbed.trans {e e' e'' : Engine} (first : Disturbed e e') (second : Disturbed e' e'') :
    Disturbed e e'' :=
  ⟨second.settings.trans first.settings, second.clock.trans first.clock,
    second.worker.trans first.worker, fun stopped => second.running (first.running stopped)⟩

/-- The service, the stored pairing and the host may become others. -/
theorem disturbed_surroundings (e : Engine) (server : Server) (pairStore : PairStore)
    (host : Host) :
    Disturbed e { e with client := { e.client with server, pairStore }, host } :=
  ⟨rfl, rfl, rfl, id⟩

theorem disturbed_guarded {α : Type} (e : Engine) (locked : Bool)
    {play : Engine → Except HostError α × Engine} (plays : ∀ e', Disturbed e' (play e').2) :
    Disturbed e (e.guarded locked play).2 := by
  have gate := e.unlock_gate locked
  rw [guarded]
  generalize e.unlock locked = answer at gate ⊢
  cases gate with
  | free => exact plays e
  | shut => exact ⟨rfl, rfl, rfl, id⟩
  | @opened client =>
      have opened : Disturbed e (e.unlocked client) := ⟨rfl, rfl, rfl, id⟩
      exact opened.trans (plays (e.unlocked client))

theorem disturbed_recordingStream (e : Engine) (id : String) :
    Disturbed e (e.recordingStream id).2 := by
  rw [recordingStream]
  split
  · exact .refl e
  · exact disturbed_guarded e _ .refl

theorem disturbed_play (e : Engine) (what : Playback) : Disturbed e (e.play what).2 := by
  cases what with
  | channel uid =>
      rw [play, channelStream]
      split
      · exact .refl e
      · exact disturbed_guarded e _ .refl
  | recording id => exact e.disturbed_recordingStream id
  | broadcast uid id =>
      rw [play, broadcastStream]
      split
      · exact .refl e
      · refine disturbed_guarded e _ fun e' => ?_
        split
        · exact e'.disturbed_recordingStream _
        · rw [eventStream]
          split <;> exact ⟨rfl, rfl, rfl, fun stopped => stopped⟩

theorem disturbed_deleteRecording (e : Engine) (id : String) :
    Disturbed e (e.deleteRecording id).2 := by
  rw [deleteRecording]
  split <;> exact ⟨rfl, rfl, rfl, fun stopped => stopped⟩

/-- Every call of the host is something that others do. -/
theorem disturbed_serve (e : Engine) (call : HostCall) : Disturbed e (e.serve call) := by
  cases call with
  | channels radio => exact ⟨rfl, rfl, rfl, id⟩
  | guideOf uid start stop => exact ⟨rfl, rfl, rfl, id⟩
  | setMaxDays future past => exact ⟨rfl, rfl, rfl, id⟩
  | play what => exact e.disturbed_play what
  | addTimer uid start =>
      have booking := e.addTimer_booking uid start
      rw [serve]
      generalize e.addTimer uid start = answer at booking ⊢
      cases booking <;> exact ⟨rfl, rfl, rfl, id⟩
  | deleteRecording id => exact e.disturbed_deleteRecording id
  | deleteTimer index => exact e.disturbed_deleteRecording _
  | stop => exact ⟨rfl, rfl, rfl, fun _ => rfl⟩

end Engine

/-! ### Runs -/

/-- The requests that are sent to ask for something. -/
def Ask.exchanges {β : Type} (q : Ask β) (c : Client) : List Exchange :=
  (q.run c).2.exchanges.drop c.exchanges.length

namespace Scene

/-- An engine whose client and worker have done nothing yet. -/
def start (settings : Settings) (account : Account) (server : Server) (pairStore : PairStore)
    (host : Host) (clock : Int) : Scene :=
  ⟨.create settings { account, server, pairStore } host clock, []⟩

/-- The worker notes something. -/
def note (s : Scene) (m : Mark) : Scene :=
  { s with past := s.past ++ [.noted m s.engine.clock] }

/-- The worker acts. -/
def act {β : Type} (s : Scene) (a : Act β) : Scene := { s with engine := (a.run s.engine).2 }

/-- The worker asks the service, which takes until later. -/
def ask {β : Type} (s : Scene) (q : Ask β) (later : Int) : Scene where
  engine := { s.engine with client := (q.run s.engine.client).2, clock := later }
  past := s.past ++ (q.exchanges s.engine.client).map (.sent · s.engine.clock)

/-- Others do something. -/
def disturb (s : Scene) (e : Engine) : Scene := ⟨e, s.past ++ s.engine.traces e⟩

/-- Time passes. -/
def wait (s : Scene) (later : Int) : Scene := { s with engine := { s.engine with clock := later } }

/-- The worker wakes up. -/
def wake (s : Scene) : Scene :=
  { s with engine := { s.engine with worker := { s.engine.worker with wakeAt := none } } }

/-- A run comes to a scene, with what the worker has still to do there before it turns to the next
phase. -/
inductive Run : Scene → Routine Unit → Prop where
  | start (settings : Settings) (account : Account) (server : Server) (pairStore : PairStore)
      (host : Host) (clock : Int) :
      Run (start settings account server pairStore host clock) (.done ())
  | turn {s : Scene} (run : Run s (.done ())) (awake : s.engine.worker.wakeAt = none) :
      Run s (.step s.engine.worker.phase)
  | note {s : Scene} {m : Mark} {rest : Routine Unit} (run : Run s (.mark m rest)) :
      Run (s.note m) rest
  | act {s : Scene} {β : Type} {a : Act β} {rest : β → Routine Unit} (run : Run s (.act a rest)) :
      Run (s.act a) (rest (a.run s.engine).1)
  | ask {s : Scene} {β : Type} {q : Ask β} {rest : β → Routine Unit} (run : Run s (.ask q rest))
      {later : Int} (passed : s.engine.clock ≤ later) :
      Run (s.ask q later) (rest (q.run s.engine.client).1)
  | disturb {s : Scene} {todo : Routine Unit} (run : Run s todo) {e : Engine}
      (disturbed : s.engine.Disturbed e) : Run (s.disturb e) todo
  | wait {s : Scene} (run : Run s (.done ())) (rests : s.engine.atRest = true) {later : Int}
      (passed : s.engine.clock ≤ later) : Run (s.wait later) (.done ())
  | wake {s : Scene} (run : Run s (.done ())) {time : Int}
      (asleep : s.engine.worker.wakeAt = some time) (due : time ≤ s.engine.clock) :
      Run s.wake (.done ())

end Scene

/-! ### Runs in which nothing comes in between -/

namespace Routine

/-- The scene that a routine leads to if nothing comes in between and requests take no time. -/
def play {α : Type} : Routine α → Scene → Scene
  | done _, s => s
  | mark m rest, s => rest.play (s.note m)
  | act a rest, s => (rest (a.run s.engine).1).play (s.act a)
  | ask q rest, s => (rest (q.run s.engine.client).1).play (s.ask q s.engine.clock)

theorem play_engine {α : Type} (r : Routine α) (s : Scene) :
    (r.play s).engine = (r.run s.engine).2 := by
  induction r generalizing s with
  | done a => rfl
  | mark m rest ih => exact ih (s.note m)
  | act a rest ih => exact ih _ (s.act a)
  | ask q rest ih => exact ih _ (s.ask q s.engine.clock)

end Routine

namespace Scene

theorem Run.play {s : Scene} {todo : Routine Unit} (run : Run s todo) :
    Run (todo.play s) (.done ()) := by
  induction todo generalizing s with
  | done => exact run
  | mark m rest ih => exact ih run.note
  | act a rest ih => exact ih _ run.act
  | ask q rest ih => exact ih _ (run.ask (Int.le_refl _))

/-- The next scene in a run of the worker alone: it sleeps as long as it has to, and else takes a
step. -/
def next (s : Scene) : Scene :=
  match s.engine.worker.wakeAt with
  | some time => (s.wait (max s.engine.clock time)).wake
  | none => (Routine.step s.engine.worker.phase).play s

theorem Run.next {s : Scene} (run : Run s (.done ())) : Run s.next (.done ()) := by
  rw [Scene.next]
  split
  next time asleep =>
    have rests : s.engine.atRest = true := by rw [Engine.atRest, asleep]; rfl
    exact (run.wait rests (Int.le_max_left _ _)).wake asleep (Int.le_max_right _ _)
  next awake => exact (run.turn awake).play

/-- A worker that is awake takes its step. -/
theorem next_engine {s : Scene} (awake : s.engine.worker.wakeAt = none) :
    s.next.engine = s.engine.step := by
  rw [Scene.next, awake]
  dsimp only
  rw [Routine.play_engine, Routine.run_step]

/-- A stretch of steps is part of a run. -/
theorem Run.runFor {s : Scene} (run : Run s (.done ())) (limit : Nat) :
    ∃ past, Run ⟨s.engine.runFor limit, past⟩ (.done ()) := by
  induction limit generalizing s with
  | zero => exact ⟨s.past, run⟩
  | succ limit ih =>
      rw [Engine.runFor]
      split
      next => exact ⟨s.past, run⟩
      next busy =>
        have awake : s.engine.worker.wakeAt = none := by
          cases asleep : s.engine.worker.wakeAt with
          | none => rfl
          | some time => exact absurd (by rw [Engine.atRest, asleep]; rfl) busy
        rw [← next_engine awake]
        exact ih run.next

/-- An engine that was started is in a run. -/
theorem run_of_start (settings : Settings) (account : Account) (server : Server)
    (pairStore : PairStore) (host : Host) (clock : Int) :
    ∃ past, Run ⟨.start settings { account, server, pairStore } host clock, past⟩ (.done ()) :=
  (Run.start settings account server pairStore host clock).runFor Engine.stepLimit

end Scene

/-! ### Outlines -/

namespace Routine

/-- A routine leads from a label to others: what a label says holds when the routine comes to a
point that has it, and with the result the routine comes to a label as wanted. -/
def Leads {ι α : Type} (Holds : ι → Scene → Prop) : Routine α → ι → (α → ι → Prop) → Prop
  | done a, i, post => post a i
  | mark m rest, i, post => ∀ s, Holds i s → ∃ j, Holds j (s.note m) ∧ rest.Leads Holds j post
  | act a rest, i, post => ∀ s, Holds i s →
    ∃ j, Holds j (s.act a) ∧ (rest (a.run s.engine).1).Leads Holds j post
  | ask q rest, i, post => ∀ s later, Holds i s → s.engine.clock ≤ later →
    ∃ j, Holds j (s.ask q later) ∧ (rest (q.run s.engine.client).1).Leads Holds j post

section Rules

variable {ι α β : Type} {Holds : ι → Scene → Prop} {i : ι}

theorem Leads.mono {r : Routine α} {post post' : α → ι → Prop} (leads : r.Leads Holds i post)
    (weaker : ∀ a j, post a j → post' a j) : r.Leads Holds i post' := by
  induction r generalizing i with
  | done a => exact weaker a i leads
  | mark m rest ih =>
      intro s holds
      obtain ⟨j, holds', leads'⟩ := leads s holds
      exact ⟨j, holds', ih leads'⟩
  | act a rest ih =>
      intro s holds
      obtain ⟨j, holds', leads'⟩ := leads s holds
      exact ⟨j, holds', ih _ leads'⟩
  | ask q rest ih =>
      intro s later holds passed
      obtain ⟨j, holds', leads'⟩ := leads s later holds passed
      exact ⟨j, holds', ih _ leads'⟩

theorem Leads.bind {r : Routine α} {k : α → Routine β} {post : β → ι → Prop}
    (leads : r.Leads Holds i fun a j => (k a).Leads Holds j post) :
    (r >>= k).Leads Holds i post := by
  induction r generalizing i with
  | done a => exact leads
  | mark m rest ih =>
      intro s holds
      obtain ⟨j, holds', leads'⟩ := leads s holds
      exact ⟨j, holds', ih leads'⟩
  | act a rest ih =>
      intro s holds
      obtain ⟨j, holds', leads'⟩ := leads s holds
      exact ⟨j, holds', ih _ leads'⟩
  | ask q rest ih =>
      intro s later holds passed
      obtain ⟨j, holds', leads'⟩ := leads s later holds passed
      exact ⟨j, holds', ih _ leads'⟩

theorem leads_ite {c : Prop} [Decidable c] {r r' : Routine α} {post : α → ι → Prop}
    (yes : c → r.Leads Holds i post) (no : ¬ c → r'.Leads Holds i post) :
    (if c then r else r').Leads Holds i post := by
  split
  next h => exact yes h
  next h => exact no h

/-- Quiet acts lead nowhere else. -/
theorem Leads.quiet {r : Routine α} {post : α → ι → Prop} (quiet : r.Quiet)
    (stable : ∀ {s β} {a : Act β}, a.Quiet → Holds i s → Holds i (s.act a))
    (arrives : ∀ a, post a i) : r.Leads Holds i post := by
  induction r with
  | done a => exact arrives a
  | mark m rest ih => exact quiet.elim
  | act a rest ih => exact fun s holds => ⟨i, stable quiet.1 holds, ih _ (quiet.2 _)⟩
  | ask q rest ih => exact quiet.elim

/-- One routine leads to the label that the next one starts from. -/
theorem Leads.andThen {j : ι} {r : Routine α} {k : α → Routine β} {post : β → ι → Prop}
    (first : r.Leads Holds i fun _ j' => j' = j) (leads : ∀ a, (k a).Leads Holds j post) :
    (r >>= k).Leads Holds i post :=
  Leads.bind (first.mono fun a _ same => same ▸ leads a)

section Moments

variable {k : β → Routine α} {post : α → ι → Prop} (label : β → ι)

/-- What is seen can tell more than what was known. -/
theorem Leads.look {f : Engine → β} (seen : ∀ s, Holds i s → Holds (label (f s.engine)) s)
    (leads : ∀ b, (k b).Leads Holds (label b) post) :
    (Routine.look f >>= k).Leads Holds i post :=
  fun s holds => ⟨_, seen s holds, leads _⟩

theorem Leads.edit {f : Engine → β × Store}
    (edited : ∀ s, Holds i s → Holds (label (f s.engine).1)
      { s with engine := { s.engine with store := (f s.engine).2 } })
    (leads : ∀ b, (k b).Leads Holds (label b) post) :
    (Routine.edit f >>= k).Leads Holds i post :=
  fun s holds => ⟨_, edited s holds, leads _⟩

theorem Leads.arrange {f : Engine → β × Worker}
    (arranged : ∀ s, Holds i s → Holds (label (f s.engine).1)
      { s with engine := { s.engine with worker := (f s.engine).2 } })
    (leads : ∀ b, (k b).Leads Holds (label b) post) :
    (Routine.arrange f >>= k).Leads Holds i post :=
  fun s holds => ⟨_, arranged s holds, leads _⟩

theorem Leads.request {q : Ask β}
    (asked : ∀ s later, Holds i s → s.engine.clock ≤ later →
      Holds (label (q.run s.engine.client).1) (s.ask q later))
    (leads : ∀ b, (k b).Leads Holds (label b) post) :
    (Routine.request q >>= k).Leads Holds i post :=
  fun s later holds passed => ⟨_, asked s later holds passed, leads _⟩

end Moments

/-- A job looks whether it is to go on. -/
theorem Leads.running {j j' : ι} {k : Bool → Routine α} {post : α → ι → Prop}
    (onward : ∀ s, s.engine.store.running = true → Holds i s → Holds j s)
    (lapse : ∀ s, Holds i s → Holds j' s) (goes : (k true).Leads Holds j post)
    (ends : (k false).Leads Holds j' post) :
    (Routine.look (·.store.running) >>= k).Leads Holds i post := by
  refine Leads.look (fun running : Bool => if running then j else j') (fun s holds => ?_) ?_
  · split
    next running => exact onward s running holds
    next => exact lapse s holds
  · intro running
    cases running with
    | true => exact goes
    | false => exact ends

end Rules

end Routine

/-- An outline of all runs. Some labels are those of a worker that has nothing in hand. -/
structure Outline (ι : Type) where
  Holds : ι → Scene → Prop
  Rests : ι → Prop
  start : ∀ settings account server pairStore host clock,
    ∃ i, Rests i ∧ Holds i (.start settings account server pairStore host clock)
  disturb : ∀ {i s e}, Holds i s → s.engine.Disturbed e → Holds i (s.disturb e)
  wait : ∀ {i s later}, Rests i → Holds i s → s.engine.clock ≤ later → Holds i (s.wait later)
  wake : ∀ {i s}, Rests i → Holds i s → Holds i s.wake
  step : ∀ {i s}, Rests i → Holds i s →
    (Routine.step s.engine.worker.phase).Leads Holds i fun _ => Rests

namespace Outline

variable {ι : Type} (o : Outline ι)

/-- In every run one of the labels holds, and what is still to be done leads on from it. -/
theorem sound {s : Scene} {todo : Routine Unit} (run : s.Run todo) :
    ∃ i, o.Holds i s ∧ todo.Leads o.Holds i fun _ => o.Rests := by
  induction run with
  | start settings account server pairStore host clock =>
      obtain ⟨i, rests, holds⟩ := o.start settings account server pairStore host clock
      exact ⟨i, holds, rests⟩
  | turn run awake ih =>
      obtain ⟨i, holds, rests⟩ := ih
      exact ⟨i, holds, o.step rests holds⟩
  | note run ih =>
      obtain ⟨i, holds, leads⟩ := ih
      exact leads _ holds
  | act run ih =>
      obtain ⟨i, holds, leads⟩ := ih
      exact leads _ holds
  | ask run passed ih =>
      obtain ⟨i, holds, leads⟩ := ih
      exact leads _ _ holds passed
  | disturb run disturbed ih =>
      obtain ⟨i, holds, leads⟩ := ih
      exact ⟨i, o.disturb holds disturbed, leads⟩
  | wait run atRest passed ih =>
      obtain ⟨i, holds, rests⟩ := ih
      exact ⟨i, o.wait rests holds passed, rests⟩
  | wake run asleep due ih =>
      obtain ⟨i, holds, rests⟩ := ih
      exact ⟨i, o.wake rests holds, rests⟩

end Outline

end PvrBackend
