import PvrBackend.Proofs.Engine.Rests

/-!
# The worker in its smallest steps

A step of the worker takes requests, and while one is under way the host calls, time passes, and
the worker may be told to end. A routine is such a step taken apart: at each moment the worker acts
on the engine, which takes no time, or it asks the service for something, which does.

Each job is given once more as a routine. Left to itself, a routine does what the job does, so
`step` is a routine that nothing came in between.
-/

namespace PvrBackend

/-- What the worker does at one moment. It leaves the client alone. -/
structure Act (β : Type) where
  run : Engine → β × Engine
  settings : ∀ e, (run e).2.settings = e.settings
  client : ∀ e, (run e).2.client = e.client
  clock : ∀ e, (run e).2.clock = e.clock

/-- A request to the service, or several that nothing comes in between. -/
structure Ask (β : Type) where
  run : Client → β × Client
  grows : ∀ c, c.exchanges <+: (run c).2.exchanges

/-- The jobs that look whether the worker is to go on. -/
inductive Task where
  | logIn
  | loadLineup
  | fullRefresh
  | recordings
  | guide
  | keepAlive
deriving DecidableEq, Repr

/-- What a routine notes of its course. -/
inductive Mark where
  /-- The worker turns to what it does next. -/
  | turns
  /-- A job begins. -/
  | begins (task : Task)
  /-- The limiters start. -/
  | limiters
deriving DecidableEq, Repr

/-- What the worker is about to do. -/
inductive Routine (α : Type) : Type 1 where
  | done (a : α)
  | mark (m : Mark) (rest : Routine α)
  | act {β : Type} (a : Act β) (rest : β → Routine α)
  | ask {β : Type} (q : Ask β) (rest : β → Routine α)

namespace Routine

/-- Go on with another routine. -/
def andThen {α β : Type} : Routine α → (α → Routine β) → Routine β
  | done a, k => k a
  | mark m rest, k => mark m (rest.andThen k)
  | act a rest, k => act a fun b => (rest b).andThen k
  | ask q rest, k => ask q fun b => (rest b).andThen k

instance : Monad Routine where
  pure := done
  bind := andThen

/-- What comes of a routine that is left to itself. -/
def run {α : Type} : Routine α → Engine → α × Engine
  | done a, e => (a, e)
  | mark _ rest, e => rest.run e
  | act a rest, e => (rest (a.run e).1).run (a.run e).2
  | ask q rest, e => (rest (q.run e.client).1).run { e with client := (q.run e.client).2 }

@[simp] theorem run_pure {α : Type} (a : α) (e : Engine) : (pure a : Routine α).run e = (a, e) := by
  change (done a).run e = (a, e)
  rw [run]

@[simp] theorem run_bind {α β : Type} (r : Routine α) (k : α → Routine β) (e : Engine) :
    (r >>= k).run e = (k (r.run e).1).run (r.run e).2 := by
  induction r generalizing e with
  | done a => rfl
  | mark m rest ih => exact ih e
  | act a rest ih => exact ih _ _
  | ask q rest ih => exact ih _ _

/-! ### What a routine is made of -/

/-- Note something. -/
def note (m : Mark) : Routine Unit := mark m (done ())

/-- Look at the engine. -/
def look {β : Type} (f : Engine → β) : Routine β :=
  act ⟨fun e => (f e, e), fun _ => rfl, fun _ => rfl, fun _ => rfl⟩ done

/-- Change the store, under its lock. -/
def edit {β : Type} (f : Engine → β × Store) : Routine β :=
  act ⟨fun e => ((f e).1, { e with store := (f e).2 }), fun _ => rfl, fun _ => rfl, fun _ => rfl⟩
    done

/-- Change what the worker keeps. -/
def arrange {β : Type} (f : Engine → β × Worker) : Routine β :=
  act ⟨fun e => ((f e).1, { e with worker := (f e).2 }), fun _ => rfl, fun _ => rfl, fun _ => rfl⟩
    done

/-- Tell the host something. -/
def tell (c : Callback) : Routine Unit :=
  act ⟨fun e => ((), e.tell c), fun _ => rfl, fun _ => rfl, fun _ => rfl⟩ done

/-- Tell the host of changes of the guide. -/
def tellChanges (changes : List GuideChange) : Routine Unit :=
  act ⟨fun e => ((), e.tellChanges changes), fun _ => rfl, fun _ => rfl, fun _ => rfl⟩ done

/-- Ask the service. -/
def request {β : Type} (q : Ask β) : Routine β := ask q done

@[simp] theorem run_note (m : Mark) (e : Engine) : (note m).run e = ((), e) := by
  rw [note, run, run]

@[simp] theorem run_look {β : Type} (f : Engine → β) (e : Engine) : (look f).run e = (f e, e) := by
  rw [look, run, run]

@[simp] theorem run_edit {β : Type} (f : Engine → β × Store) (e : Engine) :
    (edit f).run e = ((f e).1, { e with store := (f e).2 }) := by
  rw [edit, run, run]

@[simp] theorem run_arrange {β : Type} (f : Engine → β × Worker) (e : Engine) :
    (arrange f).run e = ((f e).1, { e with worker := (f e).2 }) := by
  rw [arrange, run, run]

@[simp] theorem run_tell (c : Callback) (e : Engine) : (tell c).run e = ((), e.tell c) := by
  rw [tell, run, run]

@[simp] theorem run_request {β : Type} (q : Ask β) (e : Engine) :
    (request q).run e = ((q.run e.client).1, { e with client := (q.run e.client).2 }) := by
  rw [request, run, run]

end Routine

/-! ### Requests -/

namespace Ask

/-- A call in the session, and what is made of the answer. -/
def ofCall {β : Type} (run : Client → β × Client)
    (called : ∀ c, ∃ xs, Client.Called c (run c).2 xs) : Ask β where
  run := run
  grows c := by
    obtain ⟨xs, called⟩ := called c
    exact ⟨xs, called.exchanges.symm⟩

/-- Log in. The client keeps its credentials locked all along. -/
def login : Ask (Except ApiError Unit) where
  run := Client.login
  grows c := (Client.grown_login c).exchanges

def keepAlive : Ask (Except ApiError Unit) :=
  ofCall Client.keepAlive fun _ => Client.exists_called rfl

def playlist (s : Settings) : Ask (Except ApiError Json) :=
  ofCall (·.playlist s.quality s.useH265 s.useAdaptive) fun _ => Client.exists_called rfl

def recordings : Ask (Except ApiError Json) :=
  ofCall Client.recordings fun _ => Client.exists_called rfl

def recordingStream (recordId : String) : Ask (Except ApiError RemoteStream) :=
  ofCall (·.recordingStream recordId) fun _ => Client.exists_called rfl

def guide (chunk : Chunk) : Ask (Except ApiError Json) :=
  ofCall (·.guide chunk.start chunk.small "") fun _ => Client.exists_called rfl

end Ask

/-! ### The jobs -/

namespace Routine

/-- Publish the lineup of an answer. -/
def publishLineup (root : Json) : Routine Unit := do
  let s ← look (·.settings)
  let lineup := Lineup.ofAnswer s root
  tell (.notify (Engine.loadedMessage lineup.channels.length))
  if ← edit (·.store.publishLineup lineup) then
    tell .channelsChanged
    tell .channelGroupsChanged

/-- Load the lineup. -/
def loadLineup : Routine Unit := do
  note (.begins .loadLineup)
  if ← look (·.store.running) then
    let s ← look (·.settings)
    match ← request (.playlist s) with
    | .error _ => pure ()
    | .ok root => publishLineup root

/-- Forget what is loaded of the guide, and move the window to now. -/
def startOver : Routine Unit := do
  arrange fun e => ((), { e.worker with coverage := e.worker.coverage.reset })
  let days ← look fun e => (e.store.futureDays, e.store.pastDays)
  edit fun e => ((), e.store.setMaxDays days.1 days.2 e.now)

/-- Start over with lineup and guide. -/
def fullRefresh : Routine Unit := do
  note (.begins .fullRefresh)
  startOver
  loadLineup

/-- Ask for the stream of every recording in turn. -/
def resolveStreams (channels : List Channel) : List Recording → Routine (List Recording)
  | [] => pure []
  | r :: rs => do
    let answer ← request (.recordingStream r.recordId)
    let r := match answer with
      | .ok s =>
        { r with streamUrl := s.url, streamType := Channel.streamTypeOf channels s.channel }
      | .error _ => r
    let rs ← resolveStreams channels rs
    pure (r :: rs)

/-- Publish recordings and timers where they differ, and the drive space. -/
def publishRecordings (recordings : Option (List Recording)) (timers : Option (List Timer))
    (driveSpace : DriveSpace) : Routine Unit := do
  edit fun e => ((), e.store.publishRecordings recordings timers driveSpace)
  if recordings.isSome then tell .recordingsChanged
  if timers.isSome then tell .timersChanged

/-- Publish a listing. -/
def publishListing (channels : List Channel) (listing : Listing) : Routine Unit := do
  let published ← look fun e => (e.store.recordings, e.store.timers)
  let inherited := Recording.inheritStreams published.1 listing.recordings
  let timers := if Timer.differ published.2 listing.timers then some listing.timers else none
  if Recording.differ published.1 inherited then
    let recordings ← resolveStreams channels inherited
    publishRecordings (some recordings) timers listing.driveSpace
  else publishRecordings none timers listing.driveSpace

/-- Refresh recordings and timers. -/
def loadRecordings : Routine Unit := do
  match ← request .recordings with
  | .error _ => pure ()
  | .ok root =>
    let channels ← look (·.store.lineup.channels)
    let label ← look (·.host.lockedLabel)
    let now ← look Engine.now
    publishListing channels (Listing.ofAnswer channels label now root)

/-- Refresh recordings and timers if that was asked for; whether it was. -/
def recordingsJob : Routine Bool := do
  note (.begins .recordings)
  if ← look (·.store.running) then
    if ← edit (·.store.takeRequest) then
      loadRecordings
      pure true
    else pure false
  else pure false

/-- Take what came for a chunk into coverage and guide; whether anything came. -/
def takeChunk (chunk : Chunk) : Except ApiError Json → Routine Bool
  | .error _ => do
    arrange fun e => ((), { e.worker with coverage := e.worker.coverage.noteAttempt })
    pure false
  | .ok root => do
    let window ← look (·.store.window)
    arrange fun e => ((), { e.worker with coverage := e.worker.coverage.extend chunk window })
    let channels ← look (·.store.lineup.channels)
    let changes ← edit fun e => e.store.updateGuide (·.mergeAll (Guide.ofAnswer channels root))
    tellChanges changes
    pure true

/-- Load a chunk of the guide; whether it came. -/
def loadChunk (chunk : Chunk) : Routine Bool := do
  if ← look (·.worker.coverage.covers chunk) then pure false
  else
    let answer ← request (.guide chunk)
    takeChunk chunk answer

/-- Drop what lies outside the window. -/
def releaseGuide : Routine Unit := do
  let window ← look (·.store.window)
  let changes ← edit fun e => e.store.updateGuide (·.release window)
  tellChanges changes
  arrange fun e => ((), { e.worker with coverage := e.worker.coverage.clip window })

/-- One step of filling the window, and of dropping what left it; whether a chunk came. -/
def guideJob : Routine Bool := do
  note (.begins .guide)
  if ← look (·.store.running) then
    let updated ← match ← look Engine.nextChunk? with
      | some chunk => loadChunk chunk
      | none => pure false
    if ← look (·.store.running) then releaseGuide
    pure updated
  else pure false

/-- What the worker does next, without a sleep. -/
def proceed (phase : Phase) : Routine Unit :=
  arrange fun e => ((), { e.worker with phase, wakeAt := none })

/-- What the worker does next, after a sleep. -/
def sleep (phase : Phase) : Routine Unit :=
  arrange fun e => ((), { e.worker with phase, wakeAt := some (e.clock + e.settings.poll) })

/-- Give a sign of life. -/
def keepAliveJob : Routine Unit := do
  note (.begins .keepAlive)
  if ← look (·.store.running) then
    match ← request .keepAlive with
    | .ok () => pure ()
    | .error _ => proceed (.login 0 .pass)

/-- Try to log in, unless a delay of sleeps has to pass before. -/
def loginStep (delay : Nat) (next : Resume) : Routine Unit := do
  note (.begins .logIn)
  if ← look (·.store.running) then
    match delay with
    | delay + 1 => sleep (.login delay next)
    | 0 =>
      match ← request .login with
      | .ok () =>
        tell (.connection true)
        proceed next.phase
      | .error _ =>
        tell (.connection false)
        let s ← look (·.settings)
        sleep (.login (s.loginRetryTicks - 1) next)
  else proceed next.phase

/-! ### Steps of the worker -/

def pollFullRefresh : Routine Bool := do
  let fires ← arrange fun e =>
    let (fires, fullRefresh) := e.worker.limiters.fullRefresh.poll e.clock
    (fires, { e.worker with limiters := { e.worker.limiters with fullRefresh } })
  if fires then fullRefresh
  pure fires

def pollRecordings : Routine Bool := do
  let fires ← arrange fun e =>
    let (fires, recordings) := e.worker.limiters.recordings.poll e.clock
    (fires, { e.worker with limiters := { e.worker.limiters with recordings } })
  if fires then edit fun e => ((), e.store.requestRecordings)
  pure fires

def pollGuide : Routine Bool := do
  let looks ← arrange fun e =>
    let (fires, guideCheck) := e.worker.limiters.guideCheck.poll e.clock
    (fires || e.worker.guideUpdated,
      { e.worker with limiters := { e.worker.limiters with guideCheck } })
  let updated ← if looks then guideJob else pure false
  arrange fun e => ((), { e.worker with guideUpdated := updated })
  pure looks

def pollKeepAlive : Routine Bool := do
  let fires ← arrange fun e =>
    let (fires, keepAlive) := e.worker.limiters.keepAlive.poll e.clock
    (fires, { e.worker with limiters := { e.worker.limiters with keepAlive } })
  if fires then keepAliveJob
  pure fires

/-- One pass through the periodic jobs. -/
def pass : Routine Unit := do
  let loaded ← recordingsJob
  let refreshed ← pollFullRefresh
  let asked ← pollRecordings
  let looked ← pollGuide
  let kept ← pollKeepAlive
  if loaded || refreshed || asked || looked || kept then pure () else sleep .pass

/-- Load the lineup for the first time, and start the limiters. -/
def launch : Routine Unit := do
  loadLineup
  note .limiters
  arrange fun e => ((), { e.worker with
    phase := .pass
    wakeAt := none
    limiters := .start e.settings e.clock })

/-- What the worker does next. -/
def step (phase : Phase) : Routine Unit := do
  note .turns
  match phase with
  | .login delay next => loginStep delay next
  | .launch => launch
  | .pass => if ← look (·.store.running) then pass else proceed .ended
  | .ended => pure ()

/-! ### Routines that are left to themselves -/

theorem run_sleep (phase : Phase) (e : Engine) : (sleep phase).run e = ((), e.sleep phase) := by
  rw [sleep, run_arrange]
  rfl

theorem run_publishLineup (root : Json) (e : Engine) :
    (publishLineup root).run e = ((), e.publishLineup root) := by
  simp only [publishLineup, Engine.publishLineup, run_bind, run_look, run_tell, run_edit]
  split <;> rfl

theorem run_loadLineup (e : Engine) : loadLineup.run e = ((), e.loadLineup) := by
  simp only [loadLineup, Engine.loadLineup, run_bind, run_note, run_look]
  cases e.store.running with
  | false => rfl
  | true =>
      simp only [run_bind, run_look, run_request, Ask.playlist, Ask.ofCall, if_true]
      cases e.client.playlist e.settings.quality e.settings.useH265 e.settings.useAdaptive with
      | mk answer client =>
          cases answer with
          | error => rfl
          | ok root => exact run_publishLineup root _

theorem run_fullRefresh (e : Engine) : fullRefresh.run e = ((), e.fullRefresh) := by
  simp only [fullRefresh, startOver, run_bind, run_note, run_look, run_arrange, run_edit]
  exact run_loadLineup _

theorem run_resolveStreams (channels : List Channel) (rs : List Recording) (e : Engine) :
    (resolveStreams channels rs).run e =
      ((Engine.resolveStreams channels e.client rs).1,
        { e with client := (Engine.resolveStreams channels e.client rs).2 }) := by
  induction rs generalizing e with
  | nil => rfl
  | cons r rs ih =>
      simp only [resolveStreams, Engine.resolveStreams, run_bind, run_request, run_pure, ih]
      rfl

theorem run_publishListing (channels : List Channel) (listing : Listing) (e : Engine)
    (same : e.store.lineup.channels = channels) :
    (publishListing channels listing).run e = ((), e.publishListing listing) := by
  simp only [publishListing, Engine.publishListing, run_bind, run_look, same]
  split
  · simp only [publishRecordings, run_bind, run_resolveStreams, run_edit]
    cases Timer.differ e.store.timers listing.timers <;> rfl
  · simp only [publishRecordings, run_bind, run_edit]
    cases Timer.differ e.store.timers listing.timers <;> rfl

theorem run_loadRecordings (e : Engine) : loadRecordings.run e = ((), e.loadRecordings) := by
  simp only [loadRecordings, Engine.loadRecordings, run_bind, run_request, Ask.recordings,
    Ask.ofCall]
  cases e.client.recordings with
  | mk answer client =>
      cases answer with
      | error => rfl
      | ok root =>
          simp only [run_bind, run_look]
          exact run_publishListing _ _ _ rfl

theorem run_recordingsJob (e : Engine) : recordingsJob.run e = e.recordingsJob := by
  simp only [recordingsJob, Engine.recordingsJob, run_bind, run_note, run_look]
  split
  · simp only [run_bind, run_edit]
    split
    · simp only [run_bind, run_loadRecordings, run_pure]
    next unrequested =>
      have idle : e.store.loadRecordings = false := Bool.eq_false_iff.mpr unrequested
      simp only [run_pure, Store.takeRequest, ← idle]
  · rfl

theorem run_loadChunk (chunk : Chunk) (e : Engine) :
    (loadChunk chunk).run e = e.loadChunk chunk := by
  simp only [loadChunk, Engine.loadChunk, run_bind, run_look]
  split
  · rfl
  · simp only [run_bind, run_request, Ask.guide, Ask.ofCall]
    cases e.client.guide chunk.start chunk.small "" with
    | mk answer client => cases answer <;> rfl

theorem run_guideJob (e : Engine) : guideJob.run e = e.guideJob := by
  simp only [guideJob, Engine.guideJob, run_bind, run_note, run_look]
  split
  · simp only [run_bind, run_look]
    cases e.nextChunk? with
    | none =>
        simp only [run_bind, run_look, run_pure]
        split <;> rfl
    | some chunk =>
        simp only [run_bind, run_look, run_loadChunk]
        split <;> rfl
  · rfl

theorem run_keepAliveJob (e : Engine) : keepAliveJob.run e = ((), e.keepAliveJob) := by
  simp only [keepAliveJob, Engine.keepAliveJob, run_bind, run_note, run_look]
  split
  · simp only [run_bind, run_request, Ask.keepAlive, Ask.ofCall]
    cases e.client.keepAlive with
    | mk answer client => cases answer <;> rfl
  · rfl

theorem run_loginStep (delay : Nat) (next : Resume) (e : Engine) :
    (loginStep delay next).run e = ((), e.loginStep delay next) := by
  simp only [loginStep, Engine.loginStep, run_bind, run_note, run_look]
  split
  · cases delay with
    | succ delay => rfl
    | zero =>
        simp only [run_bind, run_request, Ask.login]
        cases e.client.login with
        | mk answer client => cases answer <;> rfl
  · rfl

theorem run_pollFullRefresh (e : Engine) :
    pollFullRefresh.run e = e.pollFullRefresh := by
  simp only [pollFullRefresh, Engine.pollFullRefresh, run_bind, run_arrange]
  split
  · simp only [run_bind, run_pure]
    exact congrArg _ (congrArg Prod.snd (run_fullRefresh _))
  · rfl

theorem run_pollRecordings (e : Engine) : pollRecordings.run e = e.pollRecordings := by
  simp only [pollRecordings, Engine.pollRecordings, run_bind, run_arrange]
  split <;> rfl

theorem run_pollGuide (e : Engine) : pollGuide.run e = e.pollGuide := by
  simp only [pollGuide, Engine.pollGuide, run_bind, run_arrange]
  split
  next looks => simp only [looks, run_bind, run_guideJob, run_arrange, run_pure]
  next rests => simp only [Bool.eq_false_iff.mpr rests, run_bind, run_arrange, run_pure]

theorem run_pollKeepAlive (e : Engine) : pollKeepAlive.run e = e.pollKeepAlive := by
  simp only [pollKeepAlive, Engine.pollKeepAlive, run_bind, run_arrange]
  split
  · simp only [run_bind, run_keepAliveJob, run_pure]
  · rfl

theorem run_pass (e : Engine) : pass.run e = ((), e.pass) := by
  simp only [pass, Engine.pass, run_bind, run_recordingsJob, run_pollFullRefresh,
    run_pollRecordings, run_pollGuide, run_pollKeepAlive]
  split
  · rw [run_pure]
  · exact run_sleep _ _

theorem run_launch (e : Engine) : launch.run e = ((), e.launch) := by
  simp only [launch, Engine.launch, Engine.proceed, run_bind, run_loadLineup, run_note, run_arrange]

/-- What nothing comes in between is a step. -/
theorem run_step (e : Engine) : (step e.worker.phase).run e = ((), e.step) := by
  rw [Engine.step, step.eq_def, run_bind, run_note]
  cases e.worker.phase with
  | login delay next => exact run_loginStep delay next e
  | launch => exact run_launch e
  | ended => rfl
  | pass =>
      simp only [run_bind, run_look]
      split
      · exact run_pass e
      · rfl

end Routine

/-! ### Quiet stretches -/

/-- An act leaves alone what the worker goes by. -/
def Act.Quiet {β : Type} (a : Act β) : Prop := ∀ e : Engine, e.Steady (a.run e).2

namespace Routine

/-- Nothing is asked for and nothing noted, and what the worker goes by is left alone. -/
def Quiet {α : Type} : Routine α → Prop
  | done _ => True
  | mark _ _ => False
  | act a rest => a.Quiet ∧ ∀ b, (rest b).Quiet
  | ask _ _ => False

theorem quiet_pure {α : Type} (a : α) : (pure a : Routine α).Quiet := trivial

theorem Quiet.bind {α β : Type} {r : Routine α} {k : α → Routine β} (quiet : r.Quiet)
    (goesOn : ∀ a, (k a).Quiet) : (r >>= k).Quiet := by
  induction r with
  | done a => exact goesOn a
  | mark m rest ih => exact quiet.elim
  | act a rest ih => exact ⟨quiet.1, fun b => ih b (quiet.2 b)⟩
  | ask q rest ih => exact quiet.elim

theorem quiet_look {β : Type} (f : Engine → β) : (look f).Quiet :=
  ⟨Engine.Steady.refl, fun _ => trivial⟩

theorem quiet_edit {β : Type} {f : Engine → β × Store}
    (running : ∀ e, (f e).2.running = e.store.running)
    (requested : ∀ e, (f e).2.loadRecordings = e.store.loadRecordings) : (edit f).Quiet :=
  ⟨fun e => ⟨rfl, rfl, running e, requested e, rfl, Nat.le_refl _⟩, fun _ => trivial⟩

theorem quiet_arrange {β : Type} {f : Engine → β × Worker}
    (worker : ∀ e, (f e).2 = { e.worker with coverage := (f e).2.coverage }) : (arrange f).Quiet :=
  ⟨fun e => ⟨rfl, rfl, rfl, rfl, worker e, Nat.le_refl _⟩, fun _ => trivial⟩

theorem quiet_tell (c : Callback) : (tell c).Quiet :=
  ⟨fun _ => ⟨rfl, rfl, rfl, rfl, rfl, Nat.le_refl _⟩, fun _ => trivial⟩

theorem quiet_tellChanges (changes : List GuideChange) : (tellChanges changes).Quiet :=
  ⟨fun _ => ⟨rfl, rfl, rfl, rfl, rfl, Nat.le_refl _⟩, fun _ => trivial⟩

theorem quiet_publishLineup (root : Json) : (publishLineup root).Quiet := by
  refine (quiet_look _).bind fun s => (quiet_tell _).bind fun _ => ?_
  refine (quiet_edit (fun _ => rfl) (fun _ => rfl)).bind fun delivered => ?_
  split
  · exact (quiet_tell _).bind fun _ => quiet_tell _
  · exact quiet_pure ()

theorem quiet_startOver : startOver.Quiet := by
  refine (quiet_arrange fun _ => rfl).bind fun _ => (quiet_look _).bind fun days => ?_
  exact quiet_edit (fun _ => rfl) (fun _ => rfl)

theorem quiet_publishRecordings (recordings : Option (List Recording))
    (timers : Option (List Timer)) (driveSpace : DriveSpace) :
    (publishRecordings recordings timers driveSpace).Quiet := by
  refine (quiet_edit (fun _ => rfl) (fun _ => rfl)).bind fun _ => ?_
  cases recordings with
  | none =>
      cases timers with
      | none => exact quiet_pure ()
      | some => exact quiet_tell .timersChanged
  | some =>
      refine (quiet_tell .recordingsChanged).bind fun _ => ?_
      cases timers with
      | none => exact quiet_pure ()
      | some => exact quiet_tell .timersChanged

theorem quiet_takeChunk (chunk : Chunk) (answer : Except ApiError Json) :
    (takeChunk chunk answer).Quiet := by
  cases answer with
  | error => exact (quiet_arrange fun _ => rfl).bind fun _ => quiet_pure false
  | ok root =>
      refine (quiet_look _).bind fun window => (quiet_arrange fun _ => rfl).bind fun _ => ?_
      refine (quiet_look _).bind fun channels => ?_
      refine (quiet_edit (fun _ => rfl) (fun _ => rfl)).bind fun changes => ?_
      exact (quiet_tellChanges changes).bind fun _ => quiet_pure true

theorem quiet_releaseGuide : releaseGuide.Quiet := by
  refine (quiet_look _).bind fun window => ?_
  refine (quiet_edit (fun _ => rfl) (fun _ => rfl)).bind fun changes => ?_
  exact (quiet_tellChanges changes).bind fun _ => quiet_arrange fun _ => rfl

end Routine

end PvrBackend
