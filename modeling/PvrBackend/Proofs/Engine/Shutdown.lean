import PvrBackend.Proofs.Engine.Scenes

/-!
# The end of the worker

Once the host wants the worker to end, its jobs do nothing: they ask for nothing, tell the host
nothing and publish nothing. The worker ends after at most three more steps, and none of them does
anything either.

Jobs look whether they are to go on when they begin, so a job that began before goes on to its end,
whenever the host comes in between. What is sent after the host wanted the end belongs to that job:
no request follows the beginning of another.
-/

namespace PvrBackend

namespace Engine

/-! ### Jobs that begin when the worker is to end -/

/-- Nothing was sent, told or published, and no request for a refresh was taken. -/
structure Still (e e' : Engine) : Prop where
  client : e'.client = e.client
  callbacks : e'.callbacks = e.callbacks
  lineup : e'.store.lineup = e.store.lineup
  guide : e'.store.guide = e.store.guide
  recordings : e'.store.recordings = e.store.recordings
  timers : e'.store.timers = e.store.timers
  driveSpace : e'.store.driveSpace = e.store.driveSpace
  requested : e'.store.loadRecordings = e.store.loadRecordings
  running : e'.store.running = e.store.running

theorem Still.refl (e : Engine) : Still e e := ⟨rfl, rfl, rfl, rfl, rfl, rfl, rfl, rfl, rfl⟩

theorem Still.trans {e e' e'' : Engine} (first : Still e e') (second : Still e' e'') :
    Still e e'' :=
  ⟨second.client.trans first.client, second.callbacks.trans first.callbacks,
    second.lineup.trans first.lineup, second.guide.trans first.guide,
    second.recordings.trans first.recordings, second.timers.trans first.timers,
    second.driveSpace.trans first.driveSpace, second.requested.trans first.requested,
    second.running.trans first.running⟩

section Stopped

variable {e : Engine} (stopped : e.store.running = false)
include stopped

theorem loadLineup_of_stopped : e.loadLineup = e := by
  rw [loadLineup, stopped]
  rfl

theorem fullRefresh_still : Still e e.fullRefresh := by
  rw [fullRefresh]
  dsimp only
  rw [loadLineup_of_stopped (by exact stopped)]
  exact ⟨rfl, rfl, rfl, rfl, rfl, rfl, rfl, rfl, rfl⟩

theorem recordingsJob_of_stopped : e.recordingsJob = (false, e) := by
  rw [recordingsJob, stopped]
  rfl

theorem guideJob_of_stopped : e.guideJob = (false, e) := by
  rw [guideJob, stopped]
  rfl

theorem keepAliveJob_of_stopped : e.keepAliveJob = e := by
  rw [keepAliveJob, stopped]
  rfl

theorem loginStep_of_stopped (delay : Nat) (next : Resume) :
    e.loginStep delay next = e.proceed next.phase := by
  rw [loginStep.eq_def, stopped]
  rfl

end Stopped

/-- How many steps it takes to the end of a worker that is to end. -/
def stepsLeft : Phase → Nat
  | .login _ .launch => 3
  | .login _ .pass => 2
  | .launch => 2
  | .pass => 1
  | .ended => 0

/-- A worker that is to end comes nearer to its end with every step, and does nothing else. -/
theorem step_of_stopped {e : Engine} (stopped : e.store.running = false)
    (goesOn : e.worker.phase ≠ .ended) :
    Still e e.step ∧ e.step.worker.wakeAt = none ∧
      stepsLeft e.step.worker.phase + 1 = stepsLeft e.worker.phase := by
  rw [step]
  cases phase : e.worker.phase with
  | login delay next =>
      dsimp only
      rw [loginStep_of_stopped stopped]
      refine ⟨⟨rfl, rfl, rfl, rfl, rfl, rfl, rfl, rfl, rfl⟩, rfl, ?_⟩
      cases next <;> rfl
  | launch =>
      dsimp only
      rw [launch, loadLineup_of_stopped stopped]
      exact ⟨⟨rfl, rfl, rfl, rfl, rfl, rfl, rfl, rfl, rfl⟩, rfl, rfl⟩
  | pass =>
      dsimp only
      rw [stopped, if_neg Bool.false_ne_true]
      exact ⟨⟨rfl, rfl, rfl, rfl, rfl, rfl, rfl, rfl, rfl⟩, rfl, rfl⟩
  | ended => exact absurd phase goesOn

theorem runFor_of_stopped {e : Engine} (stopped : e.store.running = false)
    (awake : e.worker.wakeAt = none) {limit : Nat} (enough : stepsLeft e.worker.phase ≤ limit) :
    Still e (e.runFor limit) ∧ (e.runFor limit).worker.phase = .ended := by
  induction limit generalizing e with
  | zero =>
      refine ⟨.refl e, ?_⟩
      rw [runFor]
      cases phase : e.worker.phase with
      | ended => rfl
      | login delay next => cases next <;> simp [phase, stepsLeft] at enough
      | launch => simp [phase, stepsLeft] at enough
      | pass => simp [phase, stepsLeft] at enough
  | succ limit ih =>
      rw [runFor]
      split
      next rest =>
        refine ⟨.refl e, ?_⟩
        simpa [Engine.atRest, awake] using rest
      next busy =>
        have goesOn : e.worker.phase ≠ .ended := fun ended => busy (by simp [Engine.atRest, ended])
        obtain ⟨still, awake', less⟩ := step_of_stopped stopped goesOn
        obtain ⟨still', ended⟩ := ih (still.running.trans stopped) awake' (by omega)
        exact ⟨still.trans still', ended⟩

end Engine

/-! ### Requests after the end was wanted -/

/-- Something was begun after the host wanted the worker to end. -/
def Hushed (past : List Event) : Prop :=
  ∃ m time, [.stopped, .noted m time].Sublist past

/-- Nothing was sent that belongs to what was begun after the host wanted the worker to end. -/
def Obeyed (past : List Event) : Prop :=
  ∀ m time x time', ¬ [.stopped, .noted m time, .sent x time'].Sublist past

theorem obeyed_of_not_hushed {past : List Event} (free : ¬ Hushed past) : Obeyed past :=
  fun m time x time' sent => free ⟨m, time, .trans (by simp) sent⟩

/-- The last of a chain of events is new, or the chain is not. -/
theorem sublist_append_cases {α : Type} {chain past new : List α} {last : α}
    (sub : (chain ++ [last]).Sublist (past ++ new)) :
    (chain ++ [last]).Sublist past ∨ last ∈ new := by
  obtain ⟨front, back, split, before, after⟩ := List.sublist_append_iff.mp sub
  rcases List.eq_nil_or_concat back with rfl | ⟨back, last', rfl⟩
  · rw [List.append_nil] at split
    exact .inl (split ▸ before)
  · rw [List.concat_eq_append, ← List.append_assoc] at split
    obtain ⟨-, same⟩ := List.append_inj' split rfl
    rw [List.concat_eq_append] at after
    exact .inr (after.subset (by simp [(List.cons.inj same).1]))

theorem not_hushed_append {past new : List Event} (free : ¬ Hushed past)
    (unmarked : ∀ m time, .noted m time ∉ new) : ¬ Hushed (past ++ new) := by
  rintro ⟨m, time, sub⟩
  have chain : ([Event.stopped] ++ [Event.noted m time]).Sublist (past ++ new) := sub
  rcases sublist_append_cases chain with before | marked
  · exact free ⟨m, time, before⟩
  · exact unmarked m time marked

theorem Obeyed.append {past new : List Event} (obeyed : Obeyed past)
    (unsent : ∀ x time, .sent x time ∉ new) : Obeyed (past ++ new) := by
  intro m time x time' sub
  have chain : ([Event.stopped, .noted m time] ++ [Event.sent x time']).Sublist (past ++ new) := sub
  rcases sublist_append_cases chain with before | sent
  · exact obeyed m time x time' before
  · exact unsent x time' sent

/-- What a routine knows of its leave to ask the service. -/
inductive Leave where
  | unknown
  /-- The job it belongs to began before the host wanted the worker to end, if it does. -/
  | given

/-- What is known with or without leave. -/
def Leave.Holds : Leave → Scene → Prop
  | .unknown, s => (.stopped ∈ s.past → s.engine.store.running = false) ∧ Obeyed s.past
  | .given, s => (.stopped ∈ s.past → s.engine.store.running = false) ∧ ¬ Hushed s.past

namespace Leave

theorem Holds.obeyed {i : Leave} {s : Scene} (holds : i.Holds s) : Obeyed s.past := by
  cases i with
  | unknown => exact holds.2
  | given => exact obeyed_of_not_hushed holds.2

theorem Holds.stopped {i : Leave} {s : Scene} (holds : i.Holds s) :
    .stopped ∈ s.past → s.engine.store.running = false := by
  cases i <;> exact holds.1

/-- A worker that is to go on has leave to ask. -/
theorem Holds.given {s : Scene} (holds : Leave.unknown.Holds s)
    (running : s.engine.store.running = true) : Leave.given.Holds s := by
  refine ⟨holds.1, fun hushed => ?_⟩
  obtain ⟨m, time, sub⟩ := hushed
  have stopped := holds.1 (sub.subset (by simp))
  rw [running] at stopped
  cases stopped

/-- Only the flag and the past matter. -/
theorem Holds.congr {i : Leave} {s : Scene} (holds : i.Holds s) {e : Engine}
    (running : e.store.running = s.engine.store.running) : i.Holds { s with engine := e } := by
  cases i with
  | unknown => exact ⟨fun stopped => running.trans (holds.1 stopped), holds.2⟩
  | given => exact ⟨fun stopped => running.trans (holds.1 stopped), holds.2⟩

theorem Holds.act {i : Leave} {s : Scene} {β : Type} {a : Act β} (holds : i.Holds s)
    (running : (a.run s.engine).2.store.running = s.engine.store.running) :
    i.Holds (s.act a) :=
  holds.congr running

theorem Holds.note {i : Leave} {s : Scene} (holds : i.Holds s) (m : Mark) :
    Leave.unknown.Holds (s.note m) := by
  refine ⟨fun stopped => holds.stopped ?_, holds.obeyed.append (by simp)⟩
  simpa [Scene.note] using stopped

theorem Holds.ask {s : Scene} {β : Type} (holds : Leave.given.Holds s) (q : Ask β) (later : Int) :
    Leave.given.Holds (s.ask q later) := by
  refine ⟨fun stopped => holds.1 ?_, not_hushed_append holds.2 (by simp)⟩
  simpa [Scene.ask] using stopped

theorem Holds.disturb {i : Leave} {s : Scene} {e : Engine} (holds : i.Holds s)
    (disturbed : s.engine.Disturbed e) : i.Holds (s.disturb e) := by
  have unmarked : ∀ m time, .noted m time ∉ s.engine.traces e := by simp [Engine.traces]
  have unsent : ∀ x time, .sent x time ∉ s.engine.traces e := by simp [Engine.traces]
  have stopped : .stopped ∈ s.past ++ s.engine.traces e → e.store.running = false := by
    intro member
    rcases List.mem_append.mp member with before | now
    · exact disturbed.running (holds.stopped before)
    · simp [Engine.traces] at now
      exact now.2
  cases i with
  | unknown => exact ⟨stopped, holds.2.append unsent⟩
  | given => exact ⟨stopped, not_hushed_append holds.2 unmarked⟩

end Leave

/-! ### Every routine asks with leave only -/

namespace Routine

/-- Wherever a routine begins, it asks with leave only. -/
def Careful {α : Type} (r : Routine α) : Prop :=
  ∀ i, r.Leads Leave.Holds i fun _ _ => True

section Rules

variable {α β : Type} {i : Leave} {post : α → Leave → Prop}

theorem leads_of_note {m : Mark} {r : Routine α} (leads : r.Leads Leave.Holds .unknown post) :
    (note m >>= fun _ => r).Leads Leave.Holds i post :=
  fun _ holds => ⟨.unknown, holds.note m, leads⟩

/-- A job looks first whether the worker is to go on. -/
theorem leads_of_running {k : Bool → Routine α} (goes : (k true).Leads Leave.Holds .given post)
    (ends : (k false).Leads Leave.Holds .unknown post) :
    (look (·.store.running) >>= k).Leads Leave.Holds .unknown post :=
  Leads.running (fun _ running holds => holds.given running) (fun _ => id) goes ends

theorem leads_of_request {q : Ask β} {k : β → Routine α}
    (leads : ∀ b, (k b).Leads Leave.Holds .given post) :
    (request q >>= k).Leads Leave.Holds .given post :=
  Leads.request (fun _ => .given) (fun _ later holds _ => holds.ask q later) leads

theorem leads_of_quiet {r : Routine β} {k : β → Routine α} (quiet : r.Quiet)
    (leads : ∀ b, (k b).Leads Leave.Holds i post) : (r >>= k).Leads Leave.Holds i post := by
  refine Leads.bind ?_
  exact Leads.quiet quiet (fun quiet holds => Leave.Holds.act holds (quiet _).running) leads

theorem leads_of_arrange {f : Engine → β × Worker} {k : β → Routine α}
    (leads : ∀ b, (k b).Leads Leave.Holds i post) : (arrange f >>= k).Leads Leave.Holds i post :=
  Leads.arrange (fun _ => i) (fun _ holds => holds.congr rfl) leads

theorem leads_of_edit {f : Engine → β × Store} {k : β → Routine α}
    (running : ∀ e, (f e).2.running = e.store.running)
    (leads : ∀ b, (k b).Leads Leave.Holds i post) : (edit f >>= k).Leads Leave.Holds i post :=
  Leads.edit (fun _ => i) (fun s holds => holds.congr (running s.engine)) leads

theorem careful_arrange (f : Engine → α × Worker) : (arrange f).Careful :=
  fun i _ holds => ⟨i, holds.act rfl, trivial⟩

theorem Quiet.careful {r : Routine α} (quiet : r.Quiet) : r.Careful :=
  fun _ => Leads.quiet quiet (fun quiet holds => Leave.Holds.act holds (quiet _).running)
    fun _ => trivial

end Rules

theorem careful_loadLineup : loadLineup.Careful := by
  intro i
  refine leads_of_note (leads_of_running ?_ trivial)
  refine leads_of_quiet (quiet_look _) fun s => leads_of_request fun answer => ?_
  cases answer with
  | error => trivial
  | ok root => exact (quiet_publishLineup root).careful .given

theorem careful_fullRefresh : fullRefresh.Careful :=
  fun _ => leads_of_note (leads_of_quiet quiet_startOver fun _ => careful_loadLineup _)

/-- The streams are asked for one after the other, with the leave that the listing was. -/
theorem leads_resolveStreams (channels : List Channel) (rs : List Recording) :
    (resolveStreams channels rs).Leads Leave.Holds .given fun _ j => j = .given := by
  induction rs with
  | nil => rfl
  | cons r rs ih =>
      refine leads_of_request fun answer => Leads.bind (ih.mono fun _ _ given => ?_)
      exact given

theorem leads_publishListing (channels : List Channel) (listing : Listing) :
    (publishListing channels listing).Leads Leave.Holds .given fun _ _ => True := by
  refine leads_of_quiet (quiet_look _) fun published => leads_ite (fun _ => ?_) fun _ => ?_
  · refine Leads.bind ((leads_resolveStreams channels _).mono fun recordings j _ => ?_)
    exact (quiet_publishRecordings _ _ _).careful j
  · exact (quiet_publishRecordings _ _ _).careful .given

theorem leads_loadRecordings :
    loadRecordings.Leads Leave.Holds .given fun _ _ => True := by
  refine leads_of_request fun answer => ?_
  cases answer with
  | error => trivial
  | ok root =>
      refine leads_of_quiet (quiet_look _) fun channels => ?_
      refine leads_of_quiet (quiet_look _) fun label => ?_
      exact leads_of_quiet (quiet_look _) fun now => leads_publishListing _ _

theorem careful_recordingsJob : recordingsJob.Careful := by
  intro i
  refine leads_of_note (leads_of_running ?_ trivial)
  refine leads_of_edit (fun _ => rfl) fun requested => leads_ite (fun _ => ?_) fun _ => trivial
  exact Leads.bind (leads_loadRecordings.mono fun _ _ _ => trivial)

theorem leads_loadChunk (chunk : Chunk) :
    (loadChunk chunk).Leads Leave.Holds .given fun _ _ => True := by
  refine leads_of_quiet (quiet_look _) fun covered => leads_ite (fun _ => trivial) fun _ => ?_
  exact leads_of_request fun answer => (quiet_takeChunk chunk answer).careful .given

theorem careful_guideJob : guideJob.Careful := by
  intro i
  -- the second look at the flag comes with any label, and asks for nothing
  have settles : ∀ (updated : Bool) (j : Leave),
      (do
        if ← look (·.store.running) then releaseGuide
        pure updated : Routine Bool).Leads Leave.Holds j fun _ _ => True := by
    intro updated j
    refine leads_of_quiet (quiet_look _) fun running => leads_ite (fun _ => ?_) fun _ => trivial
    exact leads_of_quiet quiet_releaseGuide fun _ => trivial
  refine leads_of_note (leads_of_running ?_ trivial)
  refine leads_of_quiet (quiet_look _) fun chunk => ?_
  cases chunk with
  | none => exact settles false .given
  | some chunk =>
      exact Leads.bind ((leads_loadChunk chunk).mono fun updated j _ => settles updated j)

theorem careful_keepAliveJob : keepAliveJob.Careful := by
  intro i
  refine leads_of_note (leads_of_running ?_ trivial)
  refine leads_of_request fun answer => ?_
  cases answer with
  | ok => trivial
  | error => exact careful_arrange _ .given

theorem careful_loginStep (delay : Nat) (next : Resume) : (loginStep delay next).Careful := by
  intro i
  refine leads_of_note (leads_of_running ?_ (careful_arrange _ .unknown))
  cases delay with
  | succ delay => exact careful_arrange _ .given
  | zero =>
      refine leads_of_request fun answer => ?_
      cases answer with
      | ok => exact leads_of_quiet (quiet_tell _) fun _ => careful_arrange _ .given
      | error =>
          refine leads_of_quiet (quiet_tell _) fun _ => ?_
          exact leads_of_quiet (quiet_look _) fun _ => careful_arrange _ .given

theorem careful_pollFullRefresh : pollFullRefresh.Careful := by
  intro i
  refine leads_of_arrange fun fires => leads_ite (fun _ => ?_) fun _ => trivial
  exact Leads.bind ((careful_fullRefresh i).mono fun _ _ _ => trivial)

theorem careful_pollRecordings : pollRecordings.Careful := by
  intro i
  refine leads_of_arrange fun fires => leads_ite (fun _ => ?_) fun _ => trivial
  exact leads_of_edit (fun _ => rfl) fun _ => trivial

theorem careful_pollGuide : pollGuide.Careful := by
  intro i
  refine leads_of_arrange fun looks => leads_ite (fun _ => ?_) fun _ => ?_
  · refine Leads.bind ((careful_guideJob i).mono fun updated j _ => ?_)
    exact leads_of_arrange fun _ => trivial
  · exact leads_of_arrange fun _ => trivial

theorem careful_pollKeepAlive : pollKeepAlive.Careful := by
  intro i
  refine leads_of_arrange fun fires => leads_ite (fun _ => ?_) fun _ => trivial
  exact Leads.bind ((careful_keepAliveJob i).mono fun _ _ _ => trivial)

theorem Careful.bind {α β : Type} {r : Routine α} {k : α → Routine β} (careful : r.Careful)
    (goesOn : ∀ a, (k a).Careful) : (r >>= k).Careful :=
  fun i => Leads.bind ((careful i).mono fun a j _ => goesOn a j)

theorem careful_pass : pass.Careful := by
  refine careful_recordingsJob.bind fun loaded => careful_pollFullRefresh.bind fun refreshed => ?_
  refine careful_pollRecordings.bind fun asked => careful_pollGuide.bind fun looked => ?_
  refine careful_pollKeepAlive.bind fun kept => fun i => leads_ite (fun _ => trivial) fun _ => ?_
  exact careful_arrange _ i

theorem careful_step (phase : Phase) : (step phase).Careful := by
  intro i
  refine leads_of_note ?_
  cases phase with
  | login delay next => exact careful_loginStep delay next .unknown
  | launch =>
      refine Leads.bind ((careful_loadLineup .unknown).mono fun _ j _ => ?_)
      exact leads_of_note (careful_arrange _ .unknown)
  | pass => exact leads_of_running (careful_pass .given) (careful_arrange _ .unknown)
  | ended => trivial

end Routine

/-- The outline of all runs: routines are careful, and leave that was given is not taken back. -/
def Leave.outline : Outline Leave where
  Holds := Leave.Holds
  Rests _ := True
  start _ _ _ _ _ _ := ⟨.unknown, trivial, by simp [Leave.Holds, Scene.start, Obeyed]⟩
  disturb holds disturbed := holds.disturb disturbed
  wait _ holds _ := holds.congr rfl
  wake _ holds := holds.congr rfl
  step _ _ := Routine.careful_step _ _

namespace Scene

/-- Once the worker is to end its jobs do nothing, it ends soon, and in every run each request that
is sent from then on belongs to the job that was under way: none follows a beginning. -/
theorem shutdown_is_quiet :
    (∀ e : Engine, e.store.running = false →
      (∀ delay next, e.Still (e.loginStep delay next) ∧
        (e.loginStep delay next).worker.phase = next.phase) ∧
      e.Still e.loadLineup ∧ e.Still e.fullRefresh ∧ e.Still e.keepAliveJob ∧
      e.recordingsJob.1 = false ∧ e.Still e.recordingsJob.2 ∧
      e.guideJob.1 = false ∧ e.Still e.guideJob.2) ∧
    (∀ (e : Engine) (time : Int), e.store.running = false →
      e.Still ((e.wake time).runFor 3) ∧ ((e.wake time).runFor 3).worker.phase = .ended) ∧
    ∀ s todo, Run s todo →
      (.stopped ∈ s.past → s.engine.store.running = false) ∧
      ∀ m time x time', ¬ [.stopped, .noted m time, .sent x time'].Sublist s.past := by
  refine ⟨fun e stopped => ?_, fun e time stopped => ?_, fun s todo run => ?_⟩
  · rw [Engine.loadLineup_of_stopped stopped, Engine.keepAliveJob_of_stopped stopped,
      Engine.recordingsJob_of_stopped stopped, Engine.guideJob_of_stopped stopped]
    have login : ∀ delay next, e.Still (e.loginStep delay next) ∧
        (e.loginStep delay next).worker.phase = next.phase := by
      intro delay next
      rw [Engine.loginStep_of_stopped stopped]
      exact ⟨⟨rfl, rfl, rfl, rfl, rfl, rfl, rfl, rfl, rfl⟩, rfl⟩
    exact ⟨login, .refl e, Engine.fullRefresh_still stopped, .refl e, rfl, .refl e, rfl, .refl e⟩
  · have most : Engine.stepsLeft (e.wake time).worker.phase ≤ 3 := by
      cases (e.wake time).worker.phase with
      | login delay next => cases next <;> simp [Engine.stepsLeft]
      | launch => simp [Engine.stepsLeft]
      | pass => simp [Engine.stepsLeft]
      | ended => simp [Engine.stepsLeft]
    have woken : e.Still (e.wake time) := ⟨rfl, rfl, rfl, rfl, rfl, rfl, rfl, rfl, rfl⟩
    obtain ⟨still, ended⟩ := Engine.runFor_of_stopped (e := e.wake time) stopped rfl most
    exact ⟨woken.trans still, ended⟩
  · obtain ⟨i, holds, -⟩ := Leave.outline.sound run
    exact ⟨Leave.Holds.stopped holds, Leave.Holds.obeyed holds⟩

/-- A worker that was about to log in when the host wanted it to end, and did. -/
def stoppedAmidLogin : Scene :=
  let s := ((start {} default {} {} {} 0).note .turns).note (.begins .logIn)
  (s.disturb (s.engine.serve .stop)).ask .login 0

theorem run_stoppedAmidLogin : ∃ todo, Run stoppedAmidLogin todo := by
  have begun := ((Run.start {} default {} {} {} 0).turn rfl).note.note.act
  exact ⟨_, (begun.disturb (Engine.disturbed_serve _ .stop)).ask (Int.le_refl 0)⟩

/-- Its request is the last: no job does anything any more, and three steps lead to the end. -/
theorem shutdown_amid_login :
    let s := stoppedAmidLogin
    s.past.length = 4 ∧ s.engine.store.running = false ∧
    s.engine.Still s.engine.loadLineup ∧ s.engine.Still s.engine.keepAliveJob ∧
    ((s.engine.wake 0).runFor 3).worker.phase = .ended ∧
    ∀ m time x time', ¬ [.stopped, .noted m time, .sent x time'].Sublist s.past := by
  obtain ⟨todo, run⟩ := run_stoppedAmidLogin
  obtain ⟨jobs, ends, runs⟩ := shutdown_is_quiet
  have stopped := (runs _ todo run).1 (by decide +kernel)
  exact ⟨by decide +kernel, stopped, (jobs _ stopped).2.1, (jobs _ stopped).2.2.2.1,
    (ends _ 0 stopped).2, (runs _ todo run).2⟩

end Scene

end PvrBackend
