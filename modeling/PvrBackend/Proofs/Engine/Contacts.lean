import PvrBackend.Proofs.Engine.Courses
import PvrBackend.Proofs.Recording.Refreshes

/-!
# What an engine says to the service

The worker logs in; whatever else it does, and all that the host does but for entering
a PIN, consists of calls in the session that is open. So most actions leave the client
as it was, but for the requests that they sent.
-/

namespace PvrBackend

/-- The stores differ at most in whether a refresh of the recordings is due. -/
def Store.Kept (s s' : Store) : Prop := ∃ loadRecordings, s' = { s with loadRecordings }

theorem Store.Kept.refl (s : Store) : Kept s s := ⟨s.loadRecordings, rfl⟩

theorem Store.Kept.trans {s s' s'' : Store} (first : Kept s s') (second : Kept s' s'') :
    Kept s s'' := by
  obtain ⟨_, rfl⟩ := first
  obtain ⟨due, rfl⟩ := second
  exact ⟨due, rfl⟩

theorem Store.kept_requestRecordings (s : Store) : Kept s s.requestRecordings := ⟨true, rfl⟩

namespace Engine

open Client (Called exists_called)

/-! ### Jobs of the worker -/

theorem keepAliveJob_called (e : Engine) : ∃ xs, Called e.client e.keepAliveJob.client xs := by
  rw [keepAliveJob]
  split
  · split
    next client result => exact exists_called (congrArg Prod.snd result)
    next client result => exact exists_called (congrArg Prod.snd result)
  · exact ⟨[], .refl _⟩

@[simp] theorem publishLineup_client (e : Engine) (root : Json) :
    (e.publishLineup root).client = e.client := by
  simp only [publishLineup]
  split <;> rfl

theorem loadLineup_called (e : Engine) : ∃ xs, Called e.client e.loadLineup.client xs := by
  rw [loadLineup]
  split
  · split
    next client result => exact exists_called (congrArg Prod.snd result)
    next root client result =>
      rw [publishLineup_client]
      exact exists_called (congrArg Prod.snd result)
  · exact ⟨[], .refl _⟩

theorem loadRecordings_called (e : Engine) :
    ∃ xs, Called e.client e.loadRecordings.client xs := by
  cases answer : e.client.recordings.1 with
  | error err =>
      rw [loadRecordings_of_error answer]
      exact exists_called rfl
  | ok root =>
      obtain ⟨x, xs, called, -⟩ := loadRecordings_takes answer
      exact ⟨x :: xs, called⟩

theorem recordingsJob_called (e : Engine) :
    ∃ xs, Called e.client e.recordingsJob.2.client xs := by
  rw [recordingsJob]
  split
  · dsimp only
    split
    · exact loadRecordings_called _
    · exact ⟨[], .refl _⟩
  · exact ⟨[], .refl _⟩

theorem loadChunk_called (e : Engine) (chunk : Chunk) :
    ∃ xs, Called e.client (e.loadChunk chunk).2.client xs := by
  rw [loadChunk]
  split
  · exact ⟨[], .refl _⟩
  · split
    next client result => exact exists_called (congrArg Prod.snd result)
    next root client result => exact exists_called (congrArg Prod.snd result)

/-- Whether the worker begins to log in with a job. -/
def logsIn (e : Engine) : Job → Bool
  | .logIn 0 _ => e.store.running
  | _ => false

theorem loginStep_client (e : Engine) (delay : Nat) (next : Resume) :
    (e.logsIn (.logIn delay next) = true ∧ (e.loginStep delay next).client = e.client.login.2) ∨
      (e.logsIn (.logIn delay next) = false ∧ (e.loginStep delay next).client = e.client) := by
  cases delay with
  | succ delay =>
      refine .inr ⟨rfl, ?_⟩
      rw [loginStep]
      split <;> rfl
  | zero =>
      rw [loginStep]
      split
      next running =>
        refine .inl ⟨running, ?_⟩
        split
        next client result => rw [result]; rfl
        next err client result => rw [result]; rfl
      next stopped => exact .inr ⟨Bool.eq_false_iff.mpr stopped, rfl⟩

/-- A job is a login, or a stretch of calls in the session. -/
theorem work_client (e : Engine) (job : Job) :
    (e.logsIn job = true ∧ (e.work job).client = e.client.login.2) ∨
      (e.logsIn job = false ∧ ∃ xs, Called e.client (e.work job).client xs) := by
  have unsent : ∃ xs, Called e.client e.client xs := ⟨[], .refl _⟩
  cases job with
  | logIn delay next =>
      rcases e.loginStep_client delay next with login | ⟨quiet, same⟩
      · exact .inl login
      · exact .inr ⟨quiet, same ▸ unsent⟩
  | keepAlive => exact .inr ⟨rfl, e.keepAliveJob_called⟩
  | loadLineup => exact .inr ⟨rfl, e.loadLineup_called⟩
  | fullRefresh => exact .inr ⟨rfl, loadLineup_called _⟩
  | requestRecordings => exact .inr ⟨rfl, unsent⟩
  | recordings => exact .inr ⟨rfl, e.recordingsJob_called⟩
  | loadChunk chunk => exact .inr ⟨rfl, e.loadChunk_called chunk⟩
  | releaseGuide => exact .inr ⟨rfl, unsent⟩

/-! ### Calls of the host -/

/-- How it ends when the host has an event recorded. -/
inductive Booking (e : Engine) (uid : Nat) (start : Int) :
    Except HostError Unit × Engine → Prop where
  | failed {client : Client} (err : HostError) (calls : ∃ xs, Called e.client client xs) :
      Booking e uid start (.error err, { e with client })
  /-- The record is noted with the broadcast, and a refresh of the recordings is due. -/
  | noted {client : Client} {c : Channel} (found : e.findChannel uid = .ok c) (recordId : String)
      (calls : ∃ xs, Called e.client client xs) :
      Booking e uid start (.ok (),
        { e with
          client
          store := { e.store with
            guide := e.store.guide.setRecord c.id start recordId
            loadRecordings := true } })

theorem addTimer_booking (e : Engine) (uid : Nat) (start : Int) :
    Booking e uid start (e.addTimer uid start) := by
  have unsent : ∃ xs, Called e.client e.client xs := ⟨[], .refl _⟩
  rw [addTimer]
  split
  next err _ => exact .failed err unsent
  next c found =>
    split
    next => exact .failed (.noEventAt start) unsent
    next entry _ =>
      split
      next cause client result =>
        exact .failed (.server cause) (exists_called (congrArg Prod.snd result))
      next recordId client result =>
        exact .noted found recordId (exists_called (congrArg Prod.snd result))

/-- Deleting is a call, after which a refresh may be due. -/
theorem deleteRecording_called (e : Engine) (id : String) :
    (∃ xs, Called e.client (e.deleteRecording id).2.client xs) ∧
      Store.Kept e.store (e.deleteRecording id).2.store := by
  rw [deleteRecording]
  split
  next cause client result => exact ⟨exists_called (congrArg Prod.snd result), .refl e.store⟩
  next client result =>
    exact ⟨exists_called (congrArg Prod.snd result), e.store.kept_requestRecordings⟩

end Engine

end PvrBackend
