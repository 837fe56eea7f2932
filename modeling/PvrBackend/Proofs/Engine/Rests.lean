import PvrBackend.Proofs.Engine.Contacts

/-!
# The worker comes to rest

The worker sleeps after a pass in which nothing was done. What is done in one pass can give the
next one something to do: the limiter of the recordings asks for a refresh that the next pass
makes, and a part of the guide that came is followed by a look for the next. But a limiter that
has an interval is not due again at the time at which it was polled, and the clock stands still
while the worker works. So the second pass does nothing but what the first one left to it, and
the third does nothing, unless the service goes on giving parts of the guide.

A limiter without an interval is due at every poll, and keeps the worker from ever sleeping.
-/

namespace PvrBackend

/-- Whether a part of the guide was asked for and came. -/
def Exchange.loadsGuide (x : Exchange) : Bool :=
  x.request.endpoint = .guide && x.reply.value.isOk

/-- How often a part of the guide came. -/
def Client.guideLoads (c : Client) : Nat := c.exchanges.countP Exchange.loadsGuide

/-- Every periodic job has an interval. -/
structure Settings.Paced (s : Settings) : Prop where
  keepAlive : 0 < s.keepAlive
  fullRefresh : 0 < s.fullRefresh
  recordings : 0 < s.recordingsRefresh
  guideCheck : 0 < s.guideCheck

instance (s : Settings) : Decidable s.Paced :=
  decidable_of_iff (0 < s.keepAlive ∧ 0 < s.fullRefresh ∧ 0 < s.recordingsRefresh ∧
      0 < s.guideCheck)
    ⟨fun ⟨keepAlive, fullRefresh, recordings, guideCheck⟩ =>
      ⟨keepAlive, fullRefresh, recordings, guideCheck⟩,
      fun paced => ⟨paced.keepAlive, paced.fullRefresh, paced.recordings, paced.guideCheck⟩⟩

namespace Limiters

/-- The limiters have the intervals of the settings. -/
structure Fit (l : Limiters) (s : Settings) : Prop where
  keepAlive : l.keepAlive.interval = s.keepAlive
  fullRefresh : l.fullRefresh.interval = s.fullRefresh
  recordings : l.recordings.interval = s.recordingsRefresh
  guideCheck : l.guideCheck.interval = s.guideCheck

/-- The limiters after a poll of each. -/
def polled (l : Limiters) (now : Int) : Limiters where
  keepAlive := (l.keepAlive.poll now).2
  fullRefresh := (l.fullRefresh.poll now).2
  recordings := (l.recordings.poll now).2
  guideCheck := (l.guideCheck.poll now).2

/-- Whether none of the limiters is due. -/
def silent (l : Limiters) (now : Int) : Bool :=
  !(l.keepAlive.poll now).1 && !(l.fullRefresh.poll now).1 && !(l.recordings.poll now).1 &&
    !(l.guideCheck.poll now).1

end Limiters

/-- A limiter with an interval does not fire twice at one time. -/
theorem Limiter.poll_poll {l : Limiter} (interval : 0 < l.interval) (now : Int) :
    ((l.poll now).2.poll now).1 = false := by
  by_cases due : now < l.next
  · rw [poll_of_lt due, poll_of_lt due]
  · have later : now < ({ l with next := l.following now } : Limiter).next :=
      l.lt_following now interval
    rw [poll_of_le (Int.not_lt.mp due), poll_of_lt later]

theorem Limiters.Fit.polled {l : Limiters} {s : Settings} (fit : l.Fit s) (now : Int) :
    (l.polled now).Fit s :=
  ⟨(l.keepAlive.poll_interval now).trans fit.keepAlive,
    (l.fullRefresh.poll_interval now).trans fit.fullRefresh,
    (l.recordings.poll_interval now).trans fit.recordings,
    (l.guideCheck.poll_interval now).trans fit.guideCheck⟩

/-- Limiters with intervals are silent once they were polled. -/
theorem Limiters.Fit.silent_polled {l : Limiters} {s : Settings} (fit : l.Fit s) (paced : s.Paced)
    (now : Int) : (l.polled now).silent now = true := by
  simp only [silent, Limiters.polled, Limiter.poll_poll (fit.keepAlive ▸ paced.keepAlive),
    Limiter.poll_poll (fit.fullRefresh ▸ paced.fullRefresh),
    Limiter.poll_poll (fit.recordings ▸ paced.recordings),
    Limiter.poll_poll (fit.guideCheck ▸ paced.guideCheck), Bool.not_false, Bool.and_true]

theorem Client.Called.guideLoads_le {c c' : Client} {xs : List Exchange} (called : Called c c' xs) :
    c.guideLoads ≤ c'.guideLoads := by
  rw [guideLoads, guideLoads, called.exchanges, List.countP_append]
  exact Nat.le_add_right _ _

/-- A login takes away no part of the guide. -/
theorem Client.guideLoads_le_login (c : Client) : c.guideLoads ≤ c.login.2.guideLoads := by
  obtain ⟨xs, grown⟩ := (grown_login c).exchanges
  rw [guideLoads, guideLoads, ← grown, List.countP_append]
  exact Nat.le_add_right _ _

/-- A part of the guide that came was asked for. -/
theorem Client.guideLoads_lt_guide {c : Client} {start : Int} {small : Bool} {channels : String}
    {root : Json} (ok : (c.guide start small channels).1 = .ok root) :
    c.guideLoads < (c.guide start small channels).2.guideLoads := by
  obtain ⟨reply, value, called⟩ :=
    callInSession_sends (loggedIn_of_callInSession_eq_ok ok) .guide
      (guideParams start small channels)
  have loads : (⟨c.request .guide (guideParams start small channels) (some c.token), reply⟩ :
      Exchange).loadsGuide = true := by
    rw [Exchange.loadsGuide, ← value, ← guide, ok]
    rfl
  rw [guideLoads, guideLoads, guide, called.exchanges, List.countP_append,
    List.countP_singleton, if_pos loads]
  exact Nat.lt_succ_self _

namespace Engine

/-! ### What jobs leave alone -/

/-- What the worker goes by is left alone: whether it is to run, its limiters, what it does next
and whether there is a request for a refresh. -/
structure Steady (e e' : Engine) : Prop where
  settings : e'.settings = e.settings
  clock : e'.clock = e.clock
  running : e'.store.running = e.store.running
  requested : e'.store.loadRecordings = e.store.loadRecordings
  worker : e'.worker = { e.worker with coverage := e'.worker.coverage }
  loads : e.client.guideLoads ≤ e'.client.guideLoads

theorem Steady.refl (e : Engine) : Steady e e := ⟨rfl, rfl, rfl, rfl, rfl, Nat.le_refl _⟩

theorem Steady.trans {e e' e'' : Engine} (first : Steady e e') (second : Steady e' e'') :
    Steady e e'' :=
  ⟨second.settings.trans first.settings, second.clock.trans first.clock,
    second.running.trans first.running, second.requested.trans first.requested,
    by rw [second.worker, first.worker], Nat.le_trans first.loads second.loads⟩

/-- Requests in the session leave the worker alone. -/
theorem steady_of_called {e : Engine} {client : Client} {xs : List Exchange}
    (called : Client.Called e.client client xs) : Steady e { e with client } :=
  ⟨rfl, rfl, rfl, rfl, rfl, called.guideLoads_le⟩

theorem publishLineup_steady (e : Engine) (root : Json) : Steady e (e.publishLineup root) := by
  simp only [publishLineup]
  split <;> exact ⟨rfl, rfl, rfl, rfl, rfl, Nat.le_refl _⟩

theorem loadLineup_steady (e : Engine) : Steady e e.loadLineup := by
  rw [loadLineup]
  split
  · split
    next client result =>
      obtain ⟨xs, called⟩ := Client.exists_called (congrArg Prod.snd result)
      exact steady_of_called called
    next root client result =>
      obtain ⟨xs, called⟩ := Client.exists_called (congrArg Prod.snd result)
      exact (steady_of_called called).trans (publishLineup_steady _ root)
  · exact .refl e

theorem fullRefresh_steady (e : Engine) : Steady e e.fullRefresh := by
  have loaded := loadLineup_steady
    { e with
      store := e.store.setMaxDays e.store.futureDays e.store.pastDays e.now
      worker := { e.worker with coverage := e.worker.coverage.reset } }
  exact ⟨loaded.settings, loaded.clock, loaded.running, loaded.requested, loaded.worker,
    loaded.loads⟩

theorem loadRecordings_steady (e : Engine) : Steady e e.loadRecordings := by
  obtain ⟨xs, called⟩ := e.loadRecordings_called
  have loads := called.guideLoads_le
  unfold loadRecordings at loads ⊢
  split
  next err client result =>
    rw [result] at loads
    exact ⟨rfl, rfl, rfl, rfl, rfl, loads⟩
  next root client result =>
    rw [result] at loads
    dsimp only at loads
    rw [publishListing_eq] at loads ⊢
    exact ⟨rfl, rfl, rfl, rfl, rfl, loads⟩

theorem releaseGuide_steady (e : Engine) : Steady e e.releaseGuide :=
  ⟨rfl, rfl, rfl, rfl, rfl, Nat.le_refl _⟩

/-- A part of the guide that came was asked for. -/
theorem loadChunk_steady (e : Engine) (chunk : Chunk) : Steady e (e.loadChunk chunk).2 ∧
    ((e.loadChunk chunk).1 = true →
      e.client.guideLoads < (e.loadChunk chunk).2.client.guideLoads) := by
  obtain ⟨xs, called⟩ := e.loadChunk_called chunk
  have loads := called.guideLoads_le
  unfold loadChunk at loads ⊢
  split
  next => exact ⟨.refl e, fun loaded => absurd loaded Bool.false_ne_true⟩
  next uncovered =>
    rw [if_neg uncovered] at loads
    split
    next err client result =>
      rw [result] at loads
      exact ⟨⟨rfl, rfl, rfl, rfl, rfl, loads⟩, fun loaded => absurd loaded Bool.false_ne_true⟩
    next root client result =>
      have came : e.client.guideLoads < client.guideLoads := by
        have ok : (e.client.guide chunk.start chunk.small "").1 = .ok root := by rw [result]
        have more := Client.guideLoads_lt_guide ok
        rwa [result] at more
      exact ⟨⟨rfl, rfl, rfl, rfl, rfl, Nat.le_of_lt came⟩, fun _ => came⟩

theorem guideJob_steady (e : Engine) : Steady e e.guideJob.2 ∧
    (e.guideJob.1 = true → e.client.guideLoads < e.guideJob.2.client.guideLoads) := by
  have settle : ∀ {e' : Engine}, Steady e' (if e'.store.running then e'.releaseGuide else e') := by
    intro e'
    split
    · exact e'.releaseGuide_steady
    · exact .refl e'
  rw [guideJob]
  split
  next =>
    cases e.nextChunk? with
    | none => exact ⟨settle, fun loaded => absurd loaded Bool.false_ne_true⟩
    | some chunk =>
        obtain ⟨steady, came⟩ := e.loadChunk_steady chunk
        exact ⟨steady.trans settle, fun loaded => Nat.lt_of_lt_of_le (came loaded) settle.loads⟩
  next => exact ⟨.refl e, fun loaded => absurd loaded Bool.false_ne_true⟩

/-- A sign of life that fails makes the worker log in. -/
theorem keepAliveJob_steady (e : Engine) :
    ∃ e', Steady e e' ∧ (e.keepAliveJob = e' ∨ e.keepAliveJob = e'.proceed (.login 0 .pass)) := by
  rw [keepAliveJob]
  split
  · split
    next client result =>
      have called : ∃ xs, Client.Called e.client client xs :=
        Client.exists_called (congrArg Prod.snd result)
      obtain ⟨xs, called⟩ := called
      exact ⟨_, steady_of_called called, .inl rfl⟩
    next err client result =>
      have called : ∃ xs, Client.Called e.client client xs :=
        Client.exists_called (congrArg Prod.snd result)
      obtain ⟨xs, called⟩ := called
      exact ⟨_, steady_of_called called, .inr rfl⟩
  · exact ⟨e, .refl e, .inl rfl⟩

/-! ### Passes -/

section Stages

variable (e : Engine)

theorem recordingsJob_stage (running : e.store.running = true) :
    e.recordingsJob.1 = e.store.loadRecordings ∧
      Steady { e with store := e.store.takeRequest.2 } e.recordingsJob.2 := by
  rw [recordingsJob, if_pos running]
  dsimp only
  split
  next requested => exact ⟨requested.symm, loadRecordings_steady _⟩
  next unrequested =>
    have idle : e.store.loadRecordings = false := Bool.eq_false_iff.mpr unrequested
    exact ⟨idle.symm, rfl, rfl, rfl, idle, rfl, Nat.le_refl _⟩

theorem pollFullRefresh_stage :
    let polled := e.worker.limiters.fullRefresh.poll e.clock
    e.pollFullRefresh.1 = polled.1 ∧
      Steady { e with worker := { e.worker with
        limiters := { e.worker.limiters with fullRefresh := polled.2 } } } e.pollFullRefresh.2 := by
  rw [pollFullRefresh]
  dsimp only
  split
  · exact ⟨rfl, fullRefresh_steady _⟩
  · exact ⟨rfl, .refl _⟩

theorem pollRecordings_stage :
    let polled := e.worker.limiters.recordings.poll e.clock
    e.pollRecordings = (polled.1, { e with
      store := { e.store with loadRecordings := polled.1 || e.store.loadRecordings }
      worker := { e.worker with
        limiters := { e.worker.limiters with recordings := polled.2 } } }) := by
  rw [pollRecordings]
  dsimp only
  split
  next fires => rw [fires]; rfl
  next quiet => rw [Bool.eq_false_iff.mpr quiet]; rfl

theorem pollGuide_stage :
    let polled := e.worker.limiters.guideCheck.poll e.clock
    e.pollGuide.1 = (polled.1 || e.worker.guideUpdated) ∧
      Steady { e with worker := { e.worker with
        guideUpdated := e.pollGuide.2.worker.guideUpdated
        limiters := { e.worker.limiters with guideCheck := polled.2 } } } e.pollGuide.2 ∧
      (e.pollGuide.2.worker.guideUpdated = true →
        e.client.guideLoads < e.pollGuide.2.client.guideLoads) := by
  rw [pollGuide]
  dsimp only
  split
  next looked =>
    refine ⟨looked.symm, ?_⟩
    obtain ⟨steady, came⟩ := guideJob_steady { e with worker := { e.worker with
      limiters := { e.worker.limiters with
        guideCheck := (e.worker.limiters.guideCheck.poll e.clock).2 } } }
    refine ⟨⟨steady.settings, steady.clock, steady.running, steady.requested, ?_, steady.loads⟩,
      came⟩
    dsimp only
    rw [steady.worker]
  next quiet =>
    refine ⟨(Bool.eq_false_iff.mpr quiet).symm, .refl _, fun updated => ?_⟩
    cases updated

theorem pollKeepAlive_stage :
    let polled := e.worker.limiters.keepAlive.poll e.clock
    e.pollKeepAlive.1 = polled.1 ∧
      ∃ e', Steady { e with worker := { e.worker with
          limiters := { e.worker.limiters with keepAlive := polled.2 } } } e' ∧
        (e.pollKeepAlive.2 = e' ∨
          polled.1 = true ∧ e.pollKeepAlive.2 = e'.proceed (.login 0 .pass)) := by
  rw [pollKeepAlive]
  dsimp only
  split
  next fires =>
    obtain ⟨e', steady, ends⟩ := keepAliveJob_steady { e with worker := { e.worker with
      limiters := { e.worker.limiters with
        keepAlive := (e.worker.limiters.keepAlive.poll e.clock).2 } } }
    exact ⟨rfl, e', steady, ends.imp id fun login => ⟨fires, login⟩⟩
  next => exact ⟨rfl, _, .refl _, .inl rfl⟩

end Stages

/-- What a pass does to what the worker goes by. -/
structure Passed (e e' : Engine) : Prop where
  settings : e'.settings = e.settings
  clock : e'.clock = e.clock
  running : e'.store.running = e.store.running
  limiters : e'.worker.limiters = e.worker.limiters.polled e.clock
  requested : e'.store.loadRecordings = (e.worker.limiters.recordings.poll e.clock).1
  loads : e.client.guideLoads ≤ e'.client.guideLoads
  updated : e'.worker.guideUpdated = true → e.client.guideLoads < e'.client.guideLoads

/-- Whether a pass finds nothing to do. -/
def idle (e : Engine) : Bool :=
  !e.store.loadRecordings && !e.worker.guideUpdated && e.worker.limiters.silent e.clock

/-- A pass does its jobs, and then sleeps if nothing was done. A failed sign of life makes the
worker log in. -/
theorem pass_cases {e : Engine} (running : e.store.running = true) :
    ∃ e', Passed e e' ∧ e'.worker.phase = e.worker.phase ∧ e'.worker.wakeAt = e.worker.wakeAt ∧
      (e.pass = e'.sleep .pass ∨
        e.idle = false ∧ (e.pass = e' ∨ e.pass = e'.proceed (.login 0 .pass))) := by
  obtain ⟨loaded, first⟩ := e.recordingsJob_stage running
  obtain ⟨refreshed, second⟩ := e.recordingsJob.2.pollFullRefresh_stage
  have third := e.recordingsJob.2.pollFullRefresh.2.pollRecordings_stage
  obtain ⟨looked, fourth, came⟩ :=
    e.recordingsJob.2.pollFullRefresh.2.pollRecordings.2.pollGuide_stage
  obtain ⟨kept, e', fifth, ends⟩ :=
    e.recordingsJob.2.pollFullRefresh.2.pollRecordings.2.pollGuide.2.pollKeepAlive_stage
  rw [pass]
  dsimp only
  generalize e.recordingsJob = p₁ at *
  generalize p₁.2.pollFullRefresh = p₂ at *
  generalize p₂.2.pollRecordings = p₃ at *
  generalize p₃.2.pollGuide = p₄ at *
  generalize p₄.2.pollKeepAlive = p₅ at *
  obtain ⟨flag₁, e₁⟩ := p₁
  obtain ⟨flag₂, e₂⟩ := p₂
  obtain ⟨flag₃, e₃⟩ := p₃
  obtain ⟨flag₄, e₄⟩ := p₄
  obtain ⟨flag₅, e₅⟩ := p₅
  obtain ⟨asked, rfl⟩ := Prod.mk.inj third
  dsimp only at *
  have clock₁ : e₁.clock = e.clock := first.clock
  have clock₂ : e₂.clock = e.clock := second.clock.trans clock₁
  have clock₄ : e₄.clock = e.clock := fourth.clock.trans clock₂
  have requested : e₂.store.loadRecordings = false := second.requested.trans first.requested
  have loads : e.client.guideLoads ≤ e₂.client.guideLoads := Nat.le_trans first.loads second.loads
  refine ⟨e', ⟨?_, fifth.clock.trans clock₄, ?_, ?_, ?_, ?_, ?_⟩, ?_, ?_, ?_⟩
  · exact fifth.settings.trans (fourth.settings.trans (second.settings.trans first.settings))
  · exact fifth.running.trans (fourth.running.trans (second.running.trans first.running))
  · rw [fifth.worker, fourth.worker, second.worker, first.worker, clock₄, clock₂, clock₁]
    rfl
  · rw [fifth.requested, fourth.requested, requested, second.worker, first.worker, clock₂]
    exact Bool.or_false _
  · exact Nat.le_trans loads (Nat.le_trans fourth.loads fifth.loads)
  · rw [fifth.worker]
    intro updated
    exact Nat.lt_of_le_of_lt loads (Nat.lt_of_lt_of_le (came updated) fifth.loads)
  · rw [fifth.worker, fourth.worker, second.worker, first.worker]
  · rw [fifth.worker, fourth.worker, second.worker, first.worker]
  · rw [second.worker, first.worker] at looked asked
    rw [first.worker] at refreshed
    rw [fourth.worker, second.worker, first.worker, clock₄] at kept ends
    have busy : (flag₁ || flag₂ || flag₃ || flag₄ || flag₅) = !e.idle := by
      rw [loaded, refreshed, asked, looked, kept, clock₁, clock₂, idle, Limiters.silent]
      grind
    rw [busy]
    cases found : e.idle with
    | false => exact .inr ⟨rfl, ends.imp id And.right⟩
    | true =>
        have silent : (e.worker.limiters.keepAlive.poll e.clock).1 = false := by
          rw [idle, Limiters.silent] at found
          simp_all
        exact .inl (congrArg (sleep · .pass) (ends.resolve_right fun login => by simp_all))

/-! ### Rounds -/

/-- The worker is about to begin a pass. -/
structure AtTop (e : Engine) : Prop where
  running : e.store.running = true
  phase : e.worker.phase = .pass
  awake : e.worker.wakeAt = none
  limiters : e.worker.limiters.Fit e.settings

/-- A pass with what it leads to up to the next one: the worker logs in if a sign of life failed. -/
def round (e : Engine) : Engine :=
  if e.step.atRest || e.step.worker.phase = .pass then e.step else e.step.step

/-- So many passes in a row, up to the first sleep. -/
def rounds : Nat → Engine → Engine
  | 0, e => e
  | count + 1, e => if e.atRest then e else rounds count e.round

/-- Rounds are a stretch of a run of the worker. -/
theorem rounds_eq_runFor (count : Nat) (e : Engine) :
    ∃ limit ≤ 2 * count, e.rounds count = e.runFor limit := by
  induction count generalizing e with
  | zero => exact ⟨0, Nat.le_refl 0, rfl⟩
  | succ count ih =>
      rw [rounds]
      split
      next => exact ⟨0, Nat.zero_le _, rfl⟩
      next awake =>
        obtain ⟨limit, le, same⟩ := ih e.round
        rw [same, round]
        split
        next =>
          refine ⟨limit + 1, by omega, ?_⟩
          rw [runFor, if_neg awake]
        next busy =>
          have awake' : ¬ e.step.atRest = true := fun rest => busy (by rw [rest, Bool.true_or])
          refine ⟨limit + 2, by omega, ?_⟩
          rw [runFor, if_neg awake, runFor, if_neg awake']

theorem rounds_of_atRest {e : Engine} (rest : e.atRest = true) (count : Nat) :
    e.rounds count = e := by
  cases count with
  | zero => rfl
  | succ count => rw [rounds, if_pos rest]

/-- The worker sleeps for one poll interval, and no time has passed. -/
structure Rests (e e' : Engine) : Prop where
  clock : e'.clock = e.clock
  wakeAt : e'.worker.wakeAt = some (e.clock + e.settings.poll)
  loads : e.client.guideLoads ≤ e'.client.guideLoads

theorem Rests.atRest {e e' : Engine} (rests : Rests e e') : e'.atRest = true := by
  rw [Engine.atRest, rests.wakeAt]
  rfl

/-- A round from which the worker comes back leaves the same to the next as its pass did. -/
theorem Passed.rests {e e' e'' : Engine} (passed : Passed e e') (rests : Rests e' e'') :
    Rests e e'' :=
  ⟨rests.clock.trans passed.clock, by rw [rests.wakeAt, passed.clock, passed.settings],
    Nat.le_trans passed.loads rests.loads⟩

theorem AtTop.atRest {e : Engine} (top : e.AtTop) : e.atRest = false := by
  rw [Engine.atRest, top.awake, top.phase]
  rfl

theorem AtTop.step {e : Engine} (top : e.AtTop) : e.step = e.pass := by
  rw [Engine.step, top.phase, if_pos top.running]

theorem Passed.atTop {e e' : Engine} (passed : Passed e e') (top : e.AtTop)
    (phase : e'.worker.phase = .pass) (awake : e'.worker.wakeAt = none) : e'.AtTop where
  running := passed.running.trans top.running
  phase := phase
  awake := awake
  limiters := by
    rw [passed.limiters, passed.settings]
    exact top.limiters.polled e.clock

/-- After a login that a failed sign of life led to the worker begins the next pass, or sleeps. -/
theorem login_cases {e e' : Engine} (top : e.AtTop) (passed : Passed e e') :
    Rests e (e'.proceed (.login 0 .pass)).step ∨
      Passed e (e'.proceed (.login 0 .pass)).step ∧
        (e'.proceed (.login 0 .pass)).step.AtTop := by
  have running : (e'.proceed (.login 0 .pass)).store.running = true :=
    passed.running.trans top.running
  have loads := Nat.le_trans passed.loads e'.client.guideLoads_le_login
  have step : (e'.proceed (.login 0 .pass)).step =
      (e'.proceed (.login 0 .pass)).loginStep 0 .pass := rfl
  rw [step, loginStep, if_pos running]
  split
  next client result =>
    have client_eq : e'.client.login.2 = client := congrArg Prod.snd result
    rw [client_eq] at loads
    have passed' : Passed e
        (({ e'.proceed (.login 0 .pass) with client }.tell (.connection true)).proceed .pass) :=
      ⟨passed.settings, passed.clock, passed.running, passed.limiters, passed.requested, loads,
        fun updated => Nat.lt_of_lt_of_le (passed.updated updated)
          (client_eq ▸ e'.client.guideLoads_le_login)⟩
    exact .inr ⟨passed', passed'.atTop top rfl rfl⟩
  next err client result =>
    have client_eq : e'.client.login.2 = client := congrArg Prod.snd result
    rw [client_eq] at loads
    refine .inl ⟨passed.clock, ?_, loads⟩
    rw [← passed.clock, ← passed.settings]
    rfl

/-- A round ends with a sleep or at the beginning of the next pass. In the second case there was
something to do. -/
theorem round_cases {e : Engine} (top : e.AtTop) :
    Rests e e.round ∨ e.idle = false ∧ Passed e e.round ∧ e.round.AtTop := by
  obtain ⟨e', passed, phase, awake, ends⟩ := pass_cases top.running
  rw [top.phase] at phase
  rw [top.awake] at awake
  rw [round, top.step]
  rcases ends with slept | ⟨busy, stayed | left⟩
  · rw [slept]
    refine .inl ⟨passed.clock, ?_, passed.loads⟩
    rw [← passed.clock, ← passed.settings]
    rfl
  · rw [stayed, phase]
    exact .inr ⟨busy, by simpa using ⟨passed, passed.atTop top phase awake⟩⟩
  · rw [left]
    exact (login_cases top passed).imp id fun next => ⟨busy, next⟩

theorem AtTop.rounds_succ {e : Engine} (top : e.AtTop) (count : Nat) :
    e.rounds (count + 1) = e.round.rounds count := by
  rw [rounds, top.atRest, if_neg Bool.false_ne_true]

theorem guideLoads_le_rounds {e : Engine} (top : e.AtTop) (count : Nat) :
    e.client.guideLoads ≤ (e.rounds count).client.guideLoads := by
  induction count generalizing e with
  | zero => exact Nat.le_refl _
  | succ count ih =>
      rw [top.rounds_succ]
      rcases round_cases top with rests | ⟨-, passed, next⟩
      · rw [rounds_of_atRest rests.atRest]
        exact rests.loads
      · exact Nat.le_trans passed.loads (ih next)

/-- A pass after which nothing is left to do but perhaps a refresh of the recordings. -/
theorem Passed.idle {e e' : Engine} (passed : Passed e e') (top : e.AtTop)
    (paced : e.settings.Paced) (quiet : e'.worker.guideUpdated = false) :
    e'.idle = !e'.store.loadRecordings := by
  rw [Engine.idle, quiet, passed.limiters, passed.clock,
    top.limiters.silent_polled paced, Bool.and_true, Bool.not_false, Bool.and_true]

/-- If no limiter is due the worker comes to rest a pass earlier: there is at most a refresh of the
recordings to be made, and a look for the next part of the guide. -/
theorem rests_within_two_rounds {e : Engine} (top : e.AtTop) (paced : e.settings.Paced)
    (silent : e.worker.limiters.silent e.clock = true) :
    Rests e (e.rounds 2) ∨ e.client.guideLoads < (e.rounds 2).client.guideLoads := by
  rw [top.rounds_succ]
  rcases round_cases top with rests | ⟨-, passed, next⟩
  · rw [rounds_of_atRest rests.atRest]
    exact .inl rests
  · cases updated : e.round.worker.guideUpdated with
    | true =>
        exact .inr (Nat.lt_of_lt_of_le (passed.updated updated) (guideLoads_le_rounds next 1))
    | false =>
        have unasked : e.round.store.loadRecordings = false := by
          rw [passed.requested]
          simp only [Limiters.silent, Bool.and_eq_true, Bool.not_eq_true'] at silent
          exact silent.1.2
        have idle : e.round.idle = true := by rw [passed.idle top paced updated, unasked]; rfl
        rw [next.rounds_succ]
        rcases round_cases next with rests | ⟨busy, -⟩
        · exact .inl (passed.rests rests)
        · rw [idle] at busy
          cases busy

/-- Among any three passes in a row the worker sleeps, unless a part of the guide came. -/
theorem rests_within_three_rounds {e : Engine} (top : e.AtTop) (paced : e.settings.Paced) :
    (∃ limit ≤ 6, e.rounds 3 = e.runFor limit) ∧
      (Rests e (e.rounds 3) ∨ e.client.guideLoads < (e.rounds 3).client.guideLoads) := by
  refine ⟨rounds_eq_runFor 3 e, ?_⟩
  rw [top.rounds_succ]
  rcases round_cases top with rests | ⟨-, passed, next⟩
  · rw [rounds_of_atRest rests.atRest]
    exact .inl rests
  · have silent : e.round.worker.limiters.silent e.round.clock = true := by
      rw [passed.limiters, passed.clock]
      exact top.limiters.silent_polled paced e.clock
    exact (rests_within_two_rounds next (passed.settings ▸ paced) silent).imp
      passed.rests (Nat.lt_of_le_of_lt passed.loads)

/-! ### With and without intervals -/

/-- A service that answers signs of life and nothing else. -/
def responsive : Server :=
  ⟨Table.empty.insert "keepalive" [.body "\x7b\"status\":1\x7d"]⟩

/-- An engine with an open session whose worker begins its first pass. -/
def beginning (s : Settings) : Engine :=
  { create s { account := default, token := "first", server := responsive } {} 0 with
    worker := { phase := .pass, limiters := .start s 0 } }

theorem beginning_atTop (s : Settings) : (beginning s).AtTop :=
  ⟨rfl, rfl, rfl, rfl, rfl, rfl, rfl⟩

/-- By default the worker sleeps soon after its first pass. -/
theorem beginning_rests :
    (beginning {}).AtTop ∧ (beginning {}).settings.Paced ∧
    (∃ limit ≤ 6, (beginning {}).rounds 3 = (beginning {}).runFor limit) ∧
    (Rests (beginning {}) ((beginning {}).rounds 3) ∨
      (beginning {}).client.guideLoads < ((beginning {}).rounds 3).client.guideLoads) :=
  have paced : (beginning {}).settings.Paced := by decide
  ⟨beginning_atTop {}, paced, rests_within_three_rounds (beginning_atTop {}) paced⟩

/-- Without an interval between its signs of life the worker makes three passes in a row in which no
part of the guide comes, and goes on without a sleep. -/
theorem restless_without_interval :
    (beginning { keepAliveSecs := 0 }).AtTop ∧
    ((beginning { keepAliveSecs := 0 }).rounds 3).worker.wakeAt = none ∧
    ((beginning { keepAliveSecs := 0 }).rounds 3).client.guideLoads =
      (beginning { keepAliveSecs := 0 }).client.guideLoads :=
  ⟨beginning_atTop _, by decide +kernel, by decide +kernel⟩

end Engine

end PvrBackend
