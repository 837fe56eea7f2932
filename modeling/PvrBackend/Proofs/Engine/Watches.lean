import PvrBackend.Proofs.Engine.Refusals
import PvrBackend.Proofs.Engine.Scenes

/-!
# Watching the worker

A watch is an engine with what was seen of its worker since the watch began: that it acted, what it
told the host by that, for how long it lay down, and whom it asked for what. It goes as far as the
worker follows a routine and, as long as it then turns to log in, tries that again.

Others come in between any two moments. Unlike those of a scene they leave the token of the session
alone, as every call of the host does and every change of heart of the service.
-/

namespace PvrBackend

/-! ### What others leave alone -/

namespace Engine

/-- The token of the session is not touched by any call of the host. -/
theorem serve_token (e : Engine) (call : HostCall) :
    (e.serve call).client.token = e.client.token := by
  have played : ∀ e' xs, e.Tried e' xs → e'.client.token = e.client.token := by
    rintro _ _ ⟨_, _, rfl⟩
    rfl
  have deleted : ∀ id, (e.deleteRecording id).2.client.token = e.client.token := by
    intro id
    have kept := e.client.callInSession_token .deleteRecord [("recordId", id)]
    rw [deleteRecording, Client.deleteRecord]
    generalize e.client.callInSession .deleteRecord _ = attempt at kept ⊢
    obtain ⟨_ | root, client⟩ := attempt <;> exact kept
  cases call with
  | channels radio => rfl
  | guideOf uid start stop => rfl
  | setMaxDays future past => rfl
  | play what =>
      obtain ⟨xs, tried⟩ := e.play_tried what
      exact played _ xs tried
  | addTimer uid start =>
      rw [serve]
      rcases e.addTimer_ends uid start with ⟨-, -, xs, tried⟩ | ⟨-, booked⟩
      · exact played _ xs tried
      · generalize (e.addTimer uid start).2 = e' at booked ⊢
        cases booked
        rfl
  | deleteRecording id => exact deleted id
  | deleteTimer index => exact deleted _
  | stop => rfl

/-- What others do while the worker is watched. -/
structure Beside (e e' : Engine) : Prop extends Disturbed e e' where
  token : e'.client.token = e.client.token

theorem beside_serve (e : Engine) (call : HostCall) : Beside e (e.serve call) :=
  ⟨e.disturbed_serve call, e.serve_token call⟩

theorem beside_surroundings (e : Engine) (server : Server) (pairStore : PairStore) (host : Host) :
    Beside e { e with client := { e.client with server, pairStore }, host } :=
  ⟨e.disturbed_surroundings server pairStore host, rfl⟩

end Engine

/-! ### What is seen -/

/-- What is seen of a worker, and that others want it to end. -/
inductive Moment : Type 1 where
  /-- It looks at the engine, or changes something. -/
  | acted
  | told (c : Callback)
  /-- It lies down for a time, in milliseconds. -/
  | sleeps (millis : Int)
  /-- It asks the service. The client is the one that asks. -/
  | asked {β : Type} (q : Ask β) (c : Client)
  | stopped

namespace Engine

/-- Whether the worker lies down, and for how long. -/
def rest? (e e' : Engine) : List Moment :=
  match e.worker.wakeAt, e'.worker.wakeAt with
  | none, some time => [.sleeps (time - e.clock)]
  | _, _ => []

theorem rest?_of_eq {e e' : Engine} (same : e'.worker.wakeAt = e.worker.wakeAt) :
    e.rest? e' = [] := by
  rw [rest?, same]
  cases e.worker.wakeAt <;> rfl

theorem rest?_of_awake {e e' : Engine} (awake : e'.worker.wakeAt = none) : e.rest? e' = [] := by
  rw [rest?, awake]
  cases e.worker.wakeAt <;> rfl

/-- A sleep of the worker lasts for a poll interval. -/
theorem rest?_sleep {e : Engine} (awake : e.worker.wakeAt = none) (phase : Phase) :
    e.rest? (e.sleep phase) = [.sleeps e.settings.poll] := by
  have length : e.clock + e.settings.poll - e.clock = e.settings.poll := by omega
  rw [rest?, awake, sleep]
  dsimp only
  rw [length]

end Engine

/-- What is seen of an act: what the host is told by it, and for how long the worker lies down. -/
def Act.moments {β : Type} (a : Act β) (e : Engine) : List Moment :=
  .acted :: (((a.run e).2.callbacks.drop e.callbacks.length).map .told ++ e.rest? (a.run e).2)

/-- An engine with what was seen of its worker, oldest first. -/
structure Watch where
  engine : Engine
  log : List Moment

namespace Watch

/-- The worker acts. -/
def act {β : Type} (s : Watch) (a : Act β) : Watch :=
  ⟨(a.run s.engine).2, s.log ++ a.moments s.engine⟩

theorem act_eq {β : Type} {a : Act β} {s : Watch} {e : Engine} {cs : List Callback}
    {rest : List Moment} (engine : (a.run s.engine).2 = e)
    (told : e.callbacks = s.engine.callbacks ++ cs) (lies : s.engine.rest? e = rest) :
    s.act a = ⟨e, s.log ++ .acted :: (cs.map .told ++ rest)⟩ := by
  rw [act, Act.moments, engine, told, List.drop_left, lies]

/-- The worker asks the service, which takes until later. -/
def ask {β : Type} (s : Watch) (q : Ask β) (later : Int) : Watch :=
  ⟨{ s.engine with client := (q.run s.engine.client).2, clock := later },
    s.log ++ [.asked q s.engine.client]⟩

/-- Others do something. -/
def others (s : Watch) (e : Engine) : Watch :=
  ⟨e, s.log ++ if s.engine.store.running && !e.store.running then [.stopped] else []⟩

/-- Time passes. -/
def wait (s : Watch) (later : Int) : Watch := { s with engine := { s.engine with clock := later } }

/-- The worker wakes up. -/
def wake (s : Watch) : Watch :=
  { s with engine := { s.engine with worker := { s.engine.worker with wakeAt := none } } }

/-- From a watch and a routine on the worker comes to a watch and to what it has still to do. -/
inductive Run (s₀ : Watch) (r₀ : Routine Unit) : Watch → Routine Unit → Prop where
  | start : Run s₀ r₀ s₀ r₀
  | turn {s : Watch} {delay : Nat} {next : Resume} (run : Run s₀ r₀ s (.done ()))
      (awake : s.engine.worker.wakeAt = none) (phase : s.engine.worker.phase = .login delay next) :
      Run s₀ r₀ s (.step (.login delay next))
  | note {s : Watch} {m : Mark} {rest : Routine Unit} (run : Run s₀ r₀ s (.mark m rest)) :
      Run s₀ r₀ s rest
  | act {s : Watch} {β : Type} {a : Act β} {rest : β → Routine Unit}
      (run : Run s₀ r₀ s (.act a rest)) : Run s₀ r₀ (s.act a) (rest (a.run s.engine).1)
  | ask {s : Watch} {β : Type} {q : Ask β} {rest : β → Routine Unit}
      (run : Run s₀ r₀ s (.ask q rest)) {later : Int} (passed : s.engine.clock ≤ later) :
      Run s₀ r₀ (s.ask q later) (rest (q.run s.engine.client).1)
  | others {s : Watch} {todo : Routine Unit} (run : Run s₀ r₀ s todo) {e : Engine}
      (beside : s.engine.Beside e) : Run s₀ r₀ (s.others e) todo
  | wait {s : Watch} {time : Int} (run : Run s₀ r₀ s (.done ()))
      (asleep : s.engine.worker.wakeAt = some time) {later : Int}
      (passed : s.engine.clock ≤ later) : Run s₀ r₀ (s.wait later) (.done ())
  | wake {s : Watch} {time : Int} (run : Run s₀ r₀ s (.done ()))
      (asleep : s.engine.worker.wakeAt = some time) (due : time ≤ s.engine.clock) :
      Run s₀ r₀ s.wake (.done ())

/-- The worker is done, and has something else before it than to log in. -/
structure Returned (s : Watch) (todo : Routine Unit) : Prop where
  done : todo = .done ()
  awake : s.engine.worker.wakeAt = none
  onward : ∀ delay next, s.engine.worker.phase ≠ .login delay next

/-- What is watched is a part of a run of the worker. -/
theorem Run.scene {s₀ s : Watch} {r₀ todo : Routine Unit} (run : Run s₀ r₀ s todo)
    {past : List Event} (before : Scene.Run ⟨s₀.engine, past⟩ r₀) :
    ∃ past', Scene.Run ⟨s.engine, past'⟩ todo := by
  induction run with
  | start => exact ⟨past, before⟩
  | @turn s delay next run awake phase ih =>
      obtain ⟨past', goes⟩ := ih
      have turned := goes.turn awake
      rw [phase] at turned
      exact ⟨_, turned⟩
  | note run ih =>
      obtain ⟨past', goes⟩ := ih
      exact ⟨_, goes.note⟩
  | act run ih =>
      obtain ⟨past', goes⟩ := ih
      exact ⟨_, goes.act⟩
  | ask run passed ih =>
      obtain ⟨past', goes⟩ := ih
      exact ⟨_, goes.ask passed⟩
  | others run beside ih =>
      obtain ⟨past', goes⟩ := ih
      exact ⟨_, goes.disturb beside.toDisturbed⟩
  | @wait s time run asleep later passed ih =>
      obtain ⟨past', goes⟩ := ih
      have rests : s.engine.atRest = true := by rw [Engine.atRest, asleep]; rfl
      exact ⟨_, goes.wait rests passed⟩
  | wake run asleep due ih =>
      obtain ⟨past', goes⟩ := ih
      exact ⟨_, goes.wake asleep due⟩

end Watch

/-! ### Routines that are left to themselves -/

namespace Routine

/-- What is seen of a routine if nothing comes in between and requests take no time. -/
def watch : Routine Unit → Watch → Watch
  | done _, s => s
  | mark _ rest, s => rest.watch s
  | act a rest, s => (rest (a.run s.engine).1).watch (s.act a)
  | ask q rest, s => (rest (q.run s.engine.client).1).watch (s.ask q s.engine.clock)

theorem watch_engine (r : Routine Unit) (s : Watch) : (r.watch s).engine = (r.run s.engine).2 := by
  induction r generalizing s with
  | done a => rfl
  | mark m rest ih => exact ih s
  | act a rest ih => exact ih _ (s.act a)
  | ask q rest ih => exact ih _ (s.ask q s.engine.clock)

end Routine

theorem Watch.Run.watch {s₀ s : Watch} {r₀ todo : Routine Unit} (run : Run s₀ r₀ s todo) :
    Run s₀ r₀ (todo.watch s) (.done ()) := by
  induction todo generalizing s with
  | done => exact run
  | mark m rest ih => exact ih run.note
  | act a rest ih => exact ih _ run.act
  | ask q rest ih => exact ih _ (run.ask (Int.le_refl _))

/-! ### Points of a routine -/

namespace Routine

variable {ι β : Type} {Holds : ι → Watch → Prop} {i j : ι} {post : ι → Prop}

/-- What is known leads on from one point of a routine to the next, to some that are wanted. -/
def Upholds (Holds : ι → Watch → Prop) : Routine Unit → ι → (ι → Prop) → Prop
  | done _, i, post => post i
  | mark _ rest, i, post => rest.Upholds Holds i post
  | act a rest, i, post => ∀ s, Holds i s →
    ∃ j, Holds j (s.act a) ∧ (rest (a.run s.engine).1).Upholds Holds j post
  | ask q rest, i, post => ∀ s later, Holds i s →
    ∃ j, Holds j (s.ask q later) ∧ (rest (q.run s.engine.client).1).Upholds Holds j post

theorem upholds_note {m : Mark} {r : Routine Unit} (upholds : r.Upholds Holds i post) :
    (note m >>= fun _ => r).Upholds Holds i post := upholds

theorem upholds_look {f : Engine → β} {k : β → Routine Unit} (point : β → ι)
    (seen : ∀ s, Holds i s → Holds (point (f s.engine)) ⟨s.engine, s.log ++ [.acted]⟩)
    (goes : ∀ b, (k b).Upholds Holds (point b) post) :
    (look f >>= k).Upholds Holds i post := by
  intro s holds
  refine ⟨point (f s.engine), ?_, goes _⟩
  rw [Watch.act_eq rfl (List.append_nil _).symm (Engine.rest?_of_eq rfl)]
  exact seen s holds

/-- The worker looks whether it is to go on. -/
theorem upholds_running {k : Bool → Routine Unit} {j' : ι}
    (onward : ∀ s, s.engine.store.running = true → Holds i s →
      Holds j ⟨s.engine, s.log ++ [.acted]⟩)
    (lapse : ∀ s, s.engine.store.running = false → Holds i s →
      Holds j' ⟨s.engine, s.log ++ [.acted]⟩)
    (goes : (k true).Upholds Holds j post) (ends : (k false).Upholds Holds j' post) :
    (look (·.store.running) >>= k).Upholds Holds i post := by
  refine upholds_look (fun running : Bool => if running then j else j') (fun s holds => ?_) ?_
  · split
    next running => exact onward s running holds
    next stopped => exact lapse s (Bool.eq_false_iff.mpr stopped) holds
  · intro running
    cases running with
    | true => exact goes
    | false => exact ends

/-- The worker that is known to be told to end sees that when it looks. -/
theorem upholds_stopped {k : Bool → Routine Unit}
    (stopped : ∀ s, Holds i s → s.engine.store.running = false)
    (seen : ∀ s, Holds i s → Holds j ⟨s.engine, s.log ++ [.acted]⟩)
    (ends : (k false).Upholds Holds j post) :
    (look (·.store.running) >>= k).Upholds Holds i post := by
  intro s holds
  refine ⟨j, ?_, ?_⟩
  · rw [Watch.act_eq rfl (List.append_nil _).symm (Engine.rest?_of_eq rfl)]
    exact seen s holds
  · change (k s.engine.store.running).Upholds Holds j post
    rw [stopped s holds]
    exact ends

theorem upholds_tell {c : Callback} {k : Unit → Routine Unit}
    (told : ∀ s, Holds i s → Holds j ⟨s.engine.tell c, s.log ++ [.acted, .told c]⟩)
    (goes : (k ()).Upholds Holds j post) : (tell c >>= k).Upholds Holds i post := by
  intro s holds
  refine ⟨j, ?_, goes⟩
  rw [Watch.act_eq (e := s.engine.tell c) rfl rfl (Engine.rest?_of_eq rfl)]
  exact told s holds

theorem upholds_proceed {phase : Phase}
    (turned : ∀ s, Holds i s → Holds j ⟨s.engine.proceed phase, s.log ++ [.acted]⟩)
    (arrives : post j) : (proceed phase).Upholds Holds i post := by
  intro s holds
  refine ⟨j, ?_, arrives⟩
  rw [Watch.act_eq (e := s.engine.proceed phase) rfl (List.append_nil _).symm
    (Engine.rest?_of_awake rfl)]
  exact turned s holds

theorem upholds_sleep {phase : Phase} (awake : ∀ s, Holds i s → s.engine.worker.wakeAt = none)
    (laid : ∀ s, Holds i s → Holds j
      ⟨s.engine.sleep phase, s.log ++ [.acted, .sleeps s.engine.settings.poll]⟩)
    (arrives : post j) : (sleep phase).Upholds Holds i post := by
  intro s holds
  refine ⟨j, ?_, arrives⟩
  rw [Watch.act_eq (e := s.engine.sleep phase) rfl (List.append_nil _).symm
    (Engine.rest?_sleep (awake s holds) phase)]
  exact laid s holds

theorem upholds_request {q : Ask β} {k : β → Routine Unit} (point : β → ι)
    (asked : ∀ s later, Holds i s → Holds (point (q.run s.engine.client).1) (s.ask q later))
    (goes : ∀ b, (k b).Upholds Holds (point b) post) :
    (request q >>= k).Upholds Holds i post :=
  fun s later holds => ⟨_, asked s later holds, goes _⟩

/-- The points may be some among others. -/
theorem Upholds.map {κ : Type} {Holds' : κ → Watch → Prop} {post' : κ → Prop} {r : Routine Unit}
    (upholds : r.Upholds Holds i post) (f : ι → κ) (same : ∀ i s, Holds' (f i) s ↔ Holds i s)
    (arrives : ∀ i, post i → post' (f i)) : r.Upholds Holds' (f i) post' := by
  induction r generalizing i with
  | done a => exact arrives i upholds
  | mark m rest ih => exact ih upholds
  | act a rest ih =>
      intro s holds
      obtain ⟨j, holds, upholds⟩ := upholds s ((same i s).mp holds)
      exact ⟨f j, (same j _).mpr holds, ih _ upholds⟩
  | ask q rest ih =>
      intro s later holds
      obtain ⟨j, holds, upholds⟩ := upholds s later ((same i s).mp holds)
      exact ⟨f j, (same j _).mpr holds, ih _ upholds⟩

end Routine

/-- What is known at the points of all that is watched. Some points are those of a worker that has
nothing in hand. -/
structure Watch.Outline (ι : Type) where
  Holds : ι → Watch → Prop
  Rests : ι → Prop
  others : ∀ {i s e}, Holds i s → s.engine.Beside e → Holds i (s.others e)
  wait : ∀ {i s later}, Rests i → Holds i s → Holds i (s.wait later)
  wake : ∀ {i s}, Rests i → Holds i s → Holds i s.wake
  turn : ∀ {i s delay next}, Rests i → Holds i s → s.engine.worker.wakeAt = none →
    s.engine.worker.phase = .login delay next →
    ∃ j, Holds j s ∧ (Routine.step (.login delay next)).Upholds Holds j Rests

/-- If what the worker begins with leads on from a point then so does what it has still to do. -/
theorem Watch.Outline.sound {ι : Type} (o : Outline ι) {s₀ s : Watch} {r₀ todo : Routine Unit}
    (run : Run s₀ r₀ s todo) {i : ι} (holds : o.Holds i s₀)
    (upholds : r₀.Upholds o.Holds i o.Rests) :
    ∃ j, o.Holds j s ∧ todo.Upholds o.Holds j o.Rests := by
  induction run with
  | start => exact ⟨i, holds, upholds⟩
  | turn run awake phase ih =>
      obtain ⟨j, holds, rests⟩ := ih
      exact o.turn rests holds awake phase
  | note run ih => exact ih
  | act run ih =>
      obtain ⟨j, holds, upholds⟩ := ih
      exact upholds _ holds
  | ask run passed ih =>
      obtain ⟨j, holds, upholds⟩ := ih
      exact upholds _ _ holds
  | others run beside ih =>
      obtain ⟨j, holds, upholds⟩ := ih
      exact ⟨j, o.others holds beside, upholds⟩
  | wait run asleep passed ih =>
      obtain ⟨j, holds, rests⟩ := ih
      exact ⟨j, o.wait rests holds, rests⟩
  | wake run asleep due ih =>
      obtain ⟨j, holds, rests⟩ := ih
      exact ⟨j, o.wake rests holds, rests⟩

end PvrBackend
