import PvrBackend.Proofs.Engine.PinGate

/-!
# Who asks for what

Each job of the worker and each call of the host has its own functions of the service that it may
ask for, and asks for no other. The table of them is short: the worker logs in and asks for what
is published, and the host asks for what is played, recorded and deleted.
-/

namespace PvrBackend

/-! ### The table -/

/-- The functions that a job of the worker may ask for. -/
def Job.asks : Job → List Endpoint
  | .logIn _ _ => [.createPairing, .deletePairing, .deviceLogin]
  | .keepAlive => [.keepAlive]
  | .loadLineup | .fullRefresh => [.playlist]
  | .recordings => [.recordings, .recordingStream]
  | .loadChunk _ => [.guide]
  | .requestRecordings | .releaseGuide => []

/-- The functions that a call of the host may ask for. -/
def HostCall.asks : HostCall → List Endpoint
  | .play _ => [.pinUnlock, .eventStream]
  | .addTimer _ _ => [.recordEvent]
  | .deleteRecording _ | .deleteTimer _ => [.deleteRecord]
  | .channels _ | .guideOf _ _ _ | .setMaxDays _ _ | .stop => []

/-- The functions that may be asked for when something happens to an engine. -/
def Action.asks : Action → List Endpoint
  | .work job => job.asks
  | .serve call => call.asks
  | .meanwhile .. => []

namespace Engine

open Client (Sends Outside sends_callInSession sends_login)

/-! ### Jobs of the worker -/

theorem keepAliveJob_sends (e : Engine) :
    Sends (· ∈ [.keepAlive]) e.client e.keepAliveJob.client := by
  have asked : Sends (· ∈ [.keepAlive]) e.client e.client.keepAlive.2 :=
    sends_callInSession _ _ (by decide)
  rw [keepAliveJob]
  split
  · split
    next result => rwa [result] at asked
    next result => rwa [result] at asked
  · exact .refl e.client

theorem loadLineup_sends (e : Engine) :
    Sends (· ∈ [.playlist]) e.client e.loadLineup.client := by
  rw [loadLineup]
  split
  · have asked : Sends (· ∈ [.playlist]) e.client
        (e.client.playlist e.settings.quality e.settings.useH265 e.settings.useAdaptive).2 :=
      sends_callInSession _ _ (by decide)
    split
    next result => rwa [result] at asked
    next result =>
      rw [result] at asked
      rwa [publishLineup_client]
  · exact .refl e.client

theorem resolveStreams_sends_only (channels : List Channel) (c : Client) (rs : List Recording) :
    Sends (· ∈ [.recordings, .recordingStream]) c (resolveStreams channels c rs).2 := by
  induction rs generalizing c with
  | nil => exact .refl c
  | cons r rs ih =>
      have asked : Sends (· ∈ [.recordings, .recordingStream]) c
          (c.recordingStream r.recordId).2 :=
        sends_callInSession _ _ (by decide)
      exact asked.trans (ih _)

theorem recordingsJob_sends (e : Engine) :
    Sends (· ∈ [.recordings, .recordingStream]) e.client e.recordingsJob.2.client := by
  have loads : ∀ e : Engine,
      Sends (· ∈ [.recordings, .recordingStream]) e.client e.loadRecordings.client := by
    intro e
    have asked : Sends (· ∈ [.recordings, .recordingStream]) e.client e.client.recordings.2 :=
      sends_callInSession _ _ (by decide)
    rw [loadRecordings]
    split
    next result => rwa [result] at asked
    next root client result =>
      rw [result] at asked
      rw [publishListing_eq]
      dsimp only
      split
      · exact asked.trans (resolveStreams_sends_only _ _ _)
      · exact asked
  rw [recordingsJob]
  split
  · dsimp only
    split
    · exact loads _
    · exact .refl e.client
  · exact .refl e.client

theorem loadChunk_sends (e : Engine) (chunk : Chunk) :
    Sends (· ∈ [.guide]) e.client (e.loadChunk chunk).2.client := by
  have asked : Sends (· ∈ [.guide]) e.client (e.client.guide chunk.start chunk.small "").2 :=
    sends_callInSession _ _ (by decide)
  rw [loadChunk]
  split
  · exact .refl e.client
  · split
    next result => rwa [result] at asked
    next result => rwa [result] at asked

theorem mem_asks_of_outside {e : Endpoint} (outside : Outside e) :
    e ∈ [Endpoint.createPairing, .deletePairing, .deviceLogin] := by
  cases e <;> first | decide | cases outside

theorem work_sends (e : Engine) (job : Job) :
    Sends (· ∈ job.asks) e.client (e.work job).client := by
  cases job with
  | logIn delay next =>
      rcases e.loginStep_client delay next with ⟨-, login⟩ | ⟨-, same⟩
      · rw [work, login]
        exact (sends_login e.client).imp fun _ => mem_asks_of_outside
      · rw [work, same]
        exact .refl e.client
  | keepAlive => exact e.keepAliveJob_sends
  | loadLineup => exact e.loadLineup_sends
  | fullRefresh => exact loadLineup_sends _
  | requestRecordings => exact .refl e.client
  | recordings => exact e.recordingsJob_sends
  | loadChunk chunk => exact e.loadChunk_sends chunk
  | releaseGuide => exact .refl e.client

/-! ### Calls of the host -/

theorem sends_guarded {Kind : Endpoint → Prop} (pin : Kind .pinUnlock) {α : Type} (e : Engine)
    (locked : Bool) {play : Engine → Except HostError α × Engine}
    (plays : ∀ e', Sends Kind e'.client (play e').2.client) :
    Sends Kind e.client (e.guarded locked play).2.client := by
  have gate := e.unlock_gate locked
  rw [guarded]
  generalize e.unlock locked = answer at gate ⊢
  cases gate with
  | free => exact plays e
  | shut needed before called asked =>
      exact ⟨_, called.exchanges, fun x member => asked x member ▸ pin⟩
  | @opened client x needed before taken called unlocks =>
      have asked : x.request.endpoint = .pinUnlock := by
        rw [Exchange.unlocks, Bool.and_eq_true] at unlocks
        exact of_decide_eq_true unlocks.1
      have entered : Sends Kind e.client (e.unlocked client).client :=
        ⟨_, called.exchanges, fun y member => by rwa [List.mem_singleton.mp member, asked]⟩
      exact entered.trans (plays (e.unlocked client))

theorem recordingStream_sends (e : Engine) (id : String) :
    Sends (· ∈ [.pinUnlock, .eventStream]) e.client (e.recordingStream id).2.client := by
  rw [recordingStream]
  split
  · exact .refl e.client
  · exact sends_guarded (by decide) e _ fun e' => .refl e'.client

theorem eventStream_sends (e : Engine) (eventId : String) :
    Sends (· ∈ [.pinUnlock, .eventStream]) e.client (e.eventStream eventId).2.client := by
  have asked : Sends (· ∈ [.pinUnlock, .eventStream]) e.client (e.client.eventStream eventId).2 :=
    sends_callInSession _ _ (by decide)
  rw [eventStream]
  split
  next result => rwa [result] at asked
  next result => rwa [result] at asked

theorem play_sends (e : Engine) (what : Playback) :
    Sends (· ∈ [.pinUnlock, .eventStream]) e.client (e.play what).2.client := by
  cases what with
  | channel uid =>
      rw [play, channelStream]
      split
      · exact .refl e.client
      · exact sends_guarded (by decide) e _ fun e' => .refl e'.client
  | recording id => exact e.recordingStream_sends id
  | broadcast uid id =>
      rw [play, broadcastStream]
      split
      · exact .refl e.client
      · refine sends_guarded (by decide) e _ fun e' => ?_
        split
        · exact e'.recordingStream_sends _
        · exact e'.eventStream_sends _

theorem addTimer_sends (e : Engine) (uid : Nat) (start : Int) :
    Sends (· ∈ [.recordEvent]) e.client (e.addTimer uid start).2.client := by
  rw [addTimer]
  split
  next => exact .refl e.client
  next =>
    split
    next => exact .refl e.client
    next entry _ =>
      have asked : Sends (· ∈ [.recordEvent]) e.client (e.client.recordEvent entry.eventId).2 :=
        sends_callInSession _ _ (by decide)
      split
      next result => rwa [result] at asked
      next result => rwa [result] at asked

theorem deleteRecording_sends (e : Engine) (id : String) :
    Sends (· ∈ [.deleteRecord]) e.client (e.deleteRecording id).2.client := by
  have asked : Sends (· ∈ [.deleteRecord]) e.client (e.client.deleteRecord id).2 :=
    sends_callInSession _ _ (by decide)
  rw [deleteRecording]
  split
  next result => rwa [result] at asked
  next result => rwa [result] at asked

theorem serve_sends (e : Engine) (call : HostCall) :
    Sends (· ∈ call.asks) e.client (e.serve call).client := by
  cases call with
  | channels radio => exact .refl e.client
  | guideOf uid start stop => exact .refl e.client
  | setMaxDays future past => exact .refl e.client
  | play what => exact e.play_sends what
  | addTimer uid start => exact e.addTimer_sends uid start
  | deleteRecording id => exact e.deleteRecording_sends id
  | deleteTimer index => exact e.deleteRecording_sends _
  | stop => exact .refl e.client

/-- Whatever happens to an engine asks for its own functions and no other. -/
theorem act_sends (e : Engine) (a : Action) : Sends (· ∈ a.asks) e.client (e.act a).client := by
  cases a with
  | work job => exact e.work_sends job
  | serve call => exact e.serve_sends call
  | meanwhile => exact .refl e.client

end Engine

end PvrBackend
