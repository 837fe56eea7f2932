import PvrBackend.Engine.Requests
import PvrBackend.Engine.Worker

/-!
# Courses of an engine

Worker and host act on an engine one after the other, and in between the service
changes its mind, the stored pairing is another one, the host answers otherwise and
the clock goes on. A course lets all of this happen in any order: the jobs of the
worker are taken apart where the host can come in between, and each may be the next.

The worker itself keeps an order among its jobs, and sleeps between them. What it does
in a step, up to its next sleep, or while time passes is always part of a course, so
what holds in every course holds of every engine that was started and left to itself
and its host.
-/

namespace PvrBackend

inductive Playback where
  | channel (uid : Nat)
  | recording (id : String)
  | broadcast (uid id : Nat)
deriving DecidableEq, Repr

/-- A call of the host that may leave a mark. Its other calls only look at the store. -/
inductive HostCall where
  | channels (radio : Bool)
  | guideOf (uid : Nat) (start stop : Int)
  | setMaxDays (future past : Int)
  | play (what : Playback)
  | addTimer (uid : Nat) (start : Int)
  | deleteRecording (id : String)
  | deleteTimer (index : Nat)
  /-- The host lets go of the engine. -/
  | stop
deriving DecidableEq, Repr

inductive Job where
  | logIn (delay : Nat) (next : Resume)
  | keepAlive
  | loadLineup
  | fullRefresh
  /-- The limiter of the recordings asks for a refresh. -/
  | requestRecordings
  | recordings
  | loadChunk (chunk : Chunk)
  | releaseGuide
deriving DecidableEq, Repr

/-- What happens to an engine. -/
inductive Action where
  | work (job : Job)
  | serve (call : HostCall)
  /-- The surroundings change, and the worker turns to something else. -/
  | meanwhile (server : Server) (pairStore : PairStore) (host : Host) (clock : Int)
      (worker : Worker)

namespace Engine

/-- Have something played. -/
def play (e : Engine) : Playback → Except HostError Stream × Engine
  | .channel uid => e.channelStream uid
  | .recording id => e.recordingStream id
  | .broadcast uid id => e.broadcastStream uid id

/-- Ask for the properties of what is to be played. -/
def playProperties (e : Engine) : Playback → Except HostError (List Stream.Property) × Engine
  | .channel uid => e.channelStreamProperties uid
  | .recording id => e.recordingStreamProperties id
  | .broadcast uid id => e.broadcastStreamProperties uid id

/-- Asking for the properties does what playing does. -/
theorem playProperties_eq (e : Engine) (what : Playback) : ∃ isLive,
    e.playProperties what = withProperties (e.play what) isLive := by
  cases what with
  | channel => exact ⟨true, rfl⟩
  | recording => exact ⟨false, rfl⟩
  | broadcast => exact ⟨false, rfl⟩

/-- The engine after a call of the host. -/
def serve (e : Engine) : HostCall → Engine
  | .channels radio => (e.channels radio).2
  | .guideOf uid start stop => (e.guideOf uid start stop).2
  | .setMaxDays future past => e.setMaxDays future past
  | .play what => (e.play what).2
  | .addTimer uid start => (e.addTimer uid start).2
  | .deleteRecording id => (e.deleteRecording id).2
  | .deleteTimer index => (e.deleteTimer index).2
  | .stop => { e with store := e.store.stop }

/-- The engine after a job of the worker. -/
def work (e : Engine) : Job → Engine
  | .logIn delay next => e.loginStep delay next
  | .keepAlive => e.keepAliveJob
  | .loadLineup => e.loadLineup
  | .fullRefresh => e.fullRefresh
  | .requestRecordings => { e with store := e.store.requestRecordings }
  | .recordings => e.recordingsJob.2
  | .loadChunk chunk => (e.loadChunk chunk).2
  | .releaseGuide => e.releaseGuide

/-- The engine after what happens to it. -/
def act (e : Engine) : Action → Engine
  | .work job => e.work job
  | .serve call => e.serve call
  | .meanwhile server pairStore host clock worker =>
    { e with client := { e.client with server, pairStore }, host, clock, worker }

end Engine

/-- What a course is remembered by. -/
inductive Deed where
  /-- The worker began to log in, after so many requests. -/
  | login (sent : Nat)
  /-- An answer of the guide was read against these channels. -/
  | reading (channels : List Channel) (root : Json)

namespace Engine

/-- The answer of the guide that a try to load a chunk takes in, if any. -/
def answerOf? (e : Engine) (chunk : Chunk) : Option Json :=
  if e.worker.coverage.covers chunk then none
  else (e.client.guide chunk.start chunk.small "").1.toOption

/-- What is remembered of an action. -/
def deeds (e : Engine) : Action → List Deed
  | .work (.logIn 0 _) => if e.store.running then [.login e.client.exchanges.length] else []
  | .work (.loadChunk chunk) =>
    (e.answerOf? chunk).toList.map (.reading e.store.lineup.channels)
  | _ => []

end Engine

/-- An engine with what is remembered of its course, oldest first. -/
structure Course where
  engine : Engine
  history : List Deed

namespace Course

/-- The course after one more action. -/
def act (s : Course) (a : Action) : Course := ⟨s.engine.act a, s.history ++ s.engine.deeds a⟩

@[simp] theorem act_engine (s : Course) (a : Action) : (s.act a).engine = s.engine.act a := rfl

@[simp] theorem act_history (s : Course) (a : Action) :
    (s.act a).history = s.history ++ s.engine.deeds a := rfl

/-- Courses from an engine whose client and worker have done nothing yet. -/
inductive Run : Course → Prop where
  | start (settings : Settings) (account : Account) (server : Server) (pairStore : PairStore)
      (host : Host) (clock : Int) :
      Run ⟨.create settings { account, server, pairStore } host clock, []⟩
  | act {s : Course} (run : Run s) (a : Action) : Run (s.act a)

end Course

/-! ### The worker in its order -/

namespace Engine

/-- Whether an engine is reached in some course. -/
def Reached (e : Engine) : Prop := ∃ history, Course.Run ⟨e, history⟩

namespace Reached

variable {e : Engine}

theorem act (reached : e.Reached) (a : Action) : (e.act a).Reached := by
  obtain ⟨history, run⟩ := reached
  exact ⟨_, run.act a⟩

theorem work (reached : e.Reached) (job : Job) : (e.work job).Reached := reached.act (.work job)

/-- The worker turns to something else, as the clock may have gone on. -/
theorem turn (reached : e.Reached) (clock : Int) (worker : Worker) :
    { e with clock, worker }.Reached :=
  reached.act (.meanwhile e.client.server e.client.pairStore e.host clock worker)

theorem guideJob (reached : e.Reached) : e.guideJob.2.Reached := by
  have settle : ∀ {e' : Engine}, e'.Reached →
      Reached (if e'.store.running then e'.releaseGuide else e') := by
    intro e' reached'
    split
    · exact reached'.work .releaseGuide
    · exact reached'
  rw [Engine.guideJob]
  split
  · cases e.nextChunk? with
    | none => exact settle reached
    | some chunk => exact settle (reached.work (.loadChunk chunk))
  · exact reached

theorem pollFullRefresh (reached : e.Reached) : e.pollFullRefresh.2.Reached := by
  have polled := fun worker => reached.turn e.clock worker
  rw [Engine.pollFullRefresh]
  dsimp only
  split
  · exact (polled _).work .fullRefresh
  · exact polled _

theorem pollRecordings (reached : e.Reached) : e.pollRecordings.2.Reached := by
  rw [Engine.pollRecordings]
  dsimp only
  split
  · exact (reached.work .requestRecordings).turn e.clock _
  · exact reached.turn e.clock _

theorem pollGuide (reached : e.Reached) : e.pollGuide.2.Reached := by
  have polled := fun worker => reached.turn e.clock worker
  rw [Engine.pollGuide]
  dsimp only
  split
  · exact (polled _).guideJob.turn _ _
  · exact polled _

theorem pollKeepAlive (reached : e.Reached) : e.pollKeepAlive.2.Reached := by
  have polled := fun worker => reached.turn e.clock worker
  rw [Engine.pollKeepAlive]
  dsimp only
  split
  · exact (polled _).work .keepAlive
  · exact polled _

theorem pass (reached : e.Reached) : e.pass.Reached := by
  have done := ((reached.work .recordings).pollFullRefresh.pollRecordings.pollGuide).pollKeepAlive
  rw [Engine.pass]
  dsimp only
  split
  · exact done
  · exact done.turn _ _

theorem step (reached : e.Reached) : e.step.Reached := by
  rw [Engine.step]
  split
  · exact reached.work (.logIn _ _)
  · exact (reached.work .loadLineup).turn _ _
  · split
    · exact reached.pass
    · exact reached.turn _ _
  · exact reached

theorem runFor (reached : e.Reached) (limit : Nat) : (e.runFor limit).Reached := by
  induction limit generalizing e with
  | zero => exact reached
  | succ limit ih =>
      rw [Engine.runFor]
      split
      · exact reached
      · exact ih reached.step

theorem wakeUntil (reached : e.Reached) (deadline : Int) (limit : Nat) :
    (e.wakeUntil deadline limit).Reached := by
  induction limit generalizing e with
  | zero => exact reached
  | succ limit ih =>
      rw [Engine.wakeUntil]
      split
      · split
        · exact ih ((reached.turn _ _).runFor _)
        · exact reached
      · exact reached

end Reached

/-- An engine that was started is reached, -/
theorem reached_start (settings : Settings) (account : Account) (server : Server)
    (pairStore : PairStore) (host : Host) (clock : Int) :
    (start settings { account, server, pairStore } host clock).Reached :=
  Reached.runFor ⟨[], .start settings account server pairStore host clock⟩ stepLimit

/-- and so is one for which time passes. -/
theorem Reached.advance {e : Engine} (reached : e.Reached) (millis : Nat) :
    (e.advance millis).Reached :=
  (reached.wakeUntil _ _).turn _ _

end Engine

end PvrBackend
