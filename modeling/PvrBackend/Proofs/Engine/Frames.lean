import PvrBackend.Proofs.Engine.PinGate

/-!
# What actions do to the store

The published recordings change only in a refresh that gets a listing. The guide changes
only when an answer is merged, when it is released, and when the host has an event
recorded. Whatever else happens to an engine leaves both alone.
-/

namespace PvrBackend

/-- Guide and recordings stay. -/
structure Store.Settled (s s' : Store) : Prop where
  guide : s'.guide = s.guide
  recordings : s'.recordings = s.recordings

theorem Store.Settled.refl (s : Store) : Settled s s := ⟨rfl, rfl⟩

theorem Store.Kept.settled {s s' : Store} (kept : Kept s s') : Settled s s' := by
  obtain ⟨_, rfl⟩ := kept
  exact ⟨rfl, rfl⟩

/-- The answer that was read, and the channels against which it was. -/
def Deed.reading? : Deed → Option (List Channel × Json)
  | .login _ => none
  | .reading channels root => some (channels, root)

namespace Engine

/-- What an action reads of the guide. -/
def readings (e : Engine) (a : Action) : List (List Channel × Json) :=
  (e.deeds a).filterMap Deed.reading?

/-! ### Jobs of the worker -/

theorem loginStep_store (e : Engine) (delay : Nat) (next : Resume) :
    (e.loginStep delay next).store = e.store := by
  unfold loginStep
  split
  · split
    · rfl
    · split <;> rfl
  · rfl

theorem loginStep_settled (e : Engine) (delay : Nat) (next : Resume) :
    e.store.Settled (e.loginStep delay next).store := by
  rw [loginStep_store]
  exact .refl e.store

theorem keepAliveJob_store (e : Engine) : e.keepAliveJob.store = e.store := by
  unfold keepAliveJob
  split
  · split <;> rfl
  · rfl

theorem keepAliveJob_settled (e : Engine) : e.store.Settled e.keepAliveJob.store := by
  rw [keepAliveJob_store]
  exact .refl e.store

theorem publishLineup_settled (e : Engine) (root : Json) :
    e.store.Settled (e.publishLineup root).store := by
  simp only [publishLineup]
  split <;> exact ⟨rfl, rfl⟩

theorem loadLineup_settled (e : Engine) : e.store.Settled e.loadLineup.store := by
  unfold loadLineup
  split
  · split
    next => exact .refl e.store
    next root client _ => exact publishLineup_settled { e with client } root
  · exact .refl e.store

theorem fullRefresh_settled (e : Engine) : e.store.Settled e.fullRefresh.store := by
  have loaded := loadLineup_settled
    { e with
      store := e.store.setMaxDays e.store.futureDays e.store.pastDays e.now
      worker := { e.worker with coverage := e.worker.coverage.reset } }
  exact ⟨loaded.guide, loaded.recordings⟩

theorem loadRecordings_guide (e : Engine) : e.loadRecordings.store.guide = e.store.guide := by
  unfold loadRecordings
  split
  · rfl
  · rw [publishListing_eq]
    rfl

/-- Whether an action is a refresh of the recordings that gets a listing, and the answer. -/
def Refreshes (e : Engine) (a : Action) (root : Json) : Prop :=
  a = .work .recordings ∧ e.store.running = true ∧ e.store.loadRecordings = true ∧
    e.client.recordings.1 = .ok root

/-- What an action does to guide and recordings. -/
inductive Edit (e : Engine) (a : Action) : Engine → Prop where
  | settled {e' : Engine} (store : e.store.Settled e'.store) (unread : e.readings a = []) :
      Edit e a e'
  | refreshed {e' : Engine} {root : Json} (refreshes : e.Refreshes a root)
      (guide : e'.store.guide = e.store.guide) (unread : e.readings a = []) : Edit e a e'
  /-- An answer is merged. -/
  | read {e' : Engine} {root : Json}
      (guide : e'.store.guide =
        (e.store.guide.mergeAll (Guide.ofAnswer e.store.lineup.channels root)).2)
      (recordings : e'.store.recordings = e.store.recordings)
      (reads : e.readings a = [(e.store.lineup.channels, root)]) : Edit e a e'
  /-- What a window excludes is dropped. -/
  | released {e' : Engine} (w : Window) (guide : e'.store.guide = (e.store.guide.release w).2)
      (recordings : e'.store.recordings = e.store.recordings) (unread : e.readings a = []) :
      Edit e a e'
  /-- A record is noted. -/
  | noted {e' : Engine} (id : String) (start : Int) (recordId : String)
      (guide : e'.store.guide = e.store.guide.setRecord id start recordId)
      (recordings : e'.store.recordings = e.store.recordings) (unread : e.readings a = []) :
      Edit e a e'

theorem recordings_edit (e : Engine) : Edit e (.work .recordings) (e.work .recordings) := by
  rw [work, recordingsJob]
  split
  next running =>
    dsimp only
    split
    next due =>
      cases answer : e.client.recordings.1 with
      | error err =>
          have same : loadRecordings { e with store := e.store.takeRequest.2 } =
              { e with client := e.client.recordings.2, store := e.store.takeRequest.2 } :=
            loadRecordings_of_error answer
          rw [same]
          exact .settled ⟨rfl, rfl⟩ rfl
      | ok root => exact .refreshed ⟨rfl, running, due, answer⟩ (loadRecordings_guide _) rfl
    next => exact .settled (.refl e.store) rfl
  next => exact .settled (.refl e.store) rfl

theorem loadChunk_edit (e : Engine) (chunk : Chunk) :
    Edit e (.work (.loadChunk chunk)) (e.work (.loadChunk chunk)) := by
  have reads : e.readings (.work (.loadChunk chunk)) =
      (e.answerOf? chunk).toList.map (e.store.lineup.channels, ·) := by
    rw [readings, deeds]
    cases e.answerOf? chunk <;> rfl
  rw [answerOf?] at reads
  rw [work, loadChunk]
  split
  next covered =>
    rw [if_pos covered] at reads
    exact .settled (.refl e.store) reads
  next uncovered =>
    rw [if_neg uncovered] at reads
    split
    next err client result =>
      rw [result] at reads
      exact .settled (.refl e.store) reads
    next root client result =>
      rw [result] at reads
      exact .read rfl rfl reads

theorem work_edit (e : Engine) (job : Job) : Edit e (.work job) (e.work job) := by
  cases job with
  | logIn delay next =>
      refine .settled (e.loginStep_settled delay next) ?_
      cases delay with
      | zero =>
          simp only [readings, deeds]
          split <;> rfl
      | succ => rfl
  | keepAlive => exact .settled e.keepAliveJob_settled rfl
  | loadLineup => exact .settled e.loadLineup_settled rfl
  | fullRefresh => exact .settled e.fullRefresh_settled rfl
  | requestRecordings => exact .settled ⟨rfl, rfl⟩ rfl
  | recordings => exact e.recordings_edit
  | loadChunk chunk => exact e.loadChunk_edit chunk
  | releaseGuide => exact .released e.store.window rfl rfl rfl

/-! ### Calls of the host -/

theorem serve_edit (e : Engine) (call : HostCall) : Edit e (.serve call) (e.serve call) := by
  cases call with
  | channels radio => exact .settled ⟨rfl, rfl⟩ rfl
  | guideOf uid start stop => exact .settled ⟨rfl, rfl⟩ rfl
  | setMaxDays future past => exact .settled ⟨rfl, rfl⟩ rfl
  | play what => exact .settled (e.play_gated what).kept.settled rfl
  | addTimer uid start =>
      have booking := e.addTimer_booking uid start
      rw [serve]
      generalize e.addTimer uid start = answer at booking ⊢
      cases booking with
      | failed err calls => exact .settled (.refl e.store) rfl
      | @noted client c found recordId calls => exact .noted c.id start recordId rfl rfl rfl
  | deleteRecording id => exact .settled (e.deleteRecording_called id).2.settled rfl
  | deleteTimer index => exact .settled (e.deleteRecording_called _).2.settled rfl
  | stop => exact .settled ⟨rfl, rfl⟩ rfl

theorem act_edit (e : Engine) (a : Action) : Edit e a (e.act a) := by
  cases a with
  | work job => exact e.work_edit job
  | serve call => exact e.serve_edit call
  | meanwhile => exact .settled (.refl e.store) rfl

/-- Only a refresh that gets a listing changes the recordings. -/
theorem recordings_of_act {e : Engine} {a : Action} (idle : ∀ root, ¬ e.Refreshes a root) :
    (e.act a).store.recordings = e.store.recordings := by
  cases e.act_edit a with
  | settled store => exact store.recordings
  | refreshed refreshes => exact absurd refreshes (idle _)
  | read guide recordings => exact recordings
  | released w guide recordings => exact recordings
  | noted id start recordId guide recordings => exact recordings

end Engine

end PvrBackend
