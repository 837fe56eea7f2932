import Mathlib.Data.List.Induction
import PvrBackend.Proofs.Engine.Scenes
import PvrBackend.Proofs.Engine.Senders

/-!
# What was asked for, and when

Four functions of the service are asked for in intervals, and only the worker asks for them: a
login does not, and no call of the host does. From the past of a scene one can tell when each of
them was asked for. A request in the session shows there unless there is no session.
-/

namespace PvrBackend

/-- Whether the worker asks for a function in intervals. -/
def Endpoint.isPeriodic : Endpoint → Bool
  | .playlist | .keepAlive | .recordings | .guide => true
  | _ => false

/-! ### Who does not ask -/

namespace Client

/-- Between two states of a client nothing was asked for that is asked for in intervals. -/
def Sparing (c c' : Client) : Prop :=
  ∃ xs, c'.exchanges = c.exchanges ++ xs ∧ ∀ x ∈ xs, x.request.endpoint.isPeriodic = false

theorem sparing_iff_sends {c c' : Client} :
    Sparing c c' ↔ Sends (fun e => e.isPeriodic = false) c c' :=
  Iff.rfl

theorem sparing_callInSession (c : Client) {e : Endpoint} (params : Params)
    (rare : e.isPeriodic = false) : Sparing c (c.callInSession e params).2 :=
  sparing_iff_sends.mpr (c.sends_callInSession params rare)

theorem sparing_login (c : Client) : Sparing c c.login.2 := by
  refine sparing_iff_sends.mpr (c.sends_login.imp fun e outside => ?_)
  cases e <;> first | rfl | cases outside

end Client

theorem HostCall.not_isPeriodic (call : HostCall) : ∀ e ∈ call.asks, e.isPeriodic = false := by
  cases call <;> simp [HostCall.asks, Endpoint.isPeriodic]

/-- No call of the host asks for what the worker asks for in intervals. -/
theorem Engine.sparing_serve (e : Engine) (call : HostCall) :
    e.client.Sparing (e.serve call).client :=
  Client.sparing_iff_sends.mpr ((e.serve_sends call).imp call.not_isPeriodic)

/-! ### Tallies -/

/-- When each thing was asked for, and what else tells how often it may be. -/
structure Tally where
  playlists : List Int := []
  keepAlives : List Int := []
  /-- Requests for the listing of recordings. -/
  listings : List Int := []
  guides : List Int := []
  /-- Requests for the guide to which a part of it came. -/
  loads : List Int := []
  /-- How often the host made a refresh of the recordings due. -/
  requests : Nat := 0
  /-- When the limiters were started. -/
  starts : List Int := []
deriving DecidableEq, Repr

namespace Tally

def send (t : Tally) (x : Exchange) (time : Int) : Tally :=
  match x.request.endpoint with
  | .playlist => { t with playlists := t.playlists ++ [time] }
  | .keepAlive => { t with keepAlives := t.keepAlives ++ [time] }
  | .recordings => { t with listings := t.listings ++ [time] }
  | .guide =>
    { t with
      guides := t.guides ++ [time]
      loads := t.loads ++ if x.loadsGuide then [time] else [] }
  | _ => t

def add (t : Tally) : Event → Tally
  | .noted .limiters time => { t with starts := t.starts ++ [time] }
  | .sent x time => t.send x time
  | .requested => { t with requests := t.requests + 1 }
  | _ => t

section

variable (t : Tally) {x : Exchange} (time : Int)

theorem send_playlist (asked : x.request.endpoint = .playlist) :
    t.send x time = { t with playlists := t.playlists ++ [time] } := by
  rw [send, asked]

theorem send_keepAlive (asked : x.request.endpoint = .keepAlive) :
    t.send x time = { t with keepAlives := t.keepAlives ++ [time] } := by
  rw [send, asked]

theorem send_recordings (asked : x.request.endpoint = .recordings) :
    t.send x time = { t with listings := t.listings ++ [time] } := by
  rw [send, asked]

theorem send_guide (asked : x.request.endpoint = .guide) :
    t.send x time = { t with
      guides := t.guides ++ [time]
      loads := t.loads ++ if x.reply.value.isOk then [time] else [] } := by
  rw [send, asked, Exchange.loadsGuide, asked]
  rfl

theorem send_of_not_periodic (rare : x.request.endpoint.isPeriodic = false) :
    t.send x time = t := by
  rw [send]
  split <;> simp_all [Endpoint.isPeriodic]

end

end Tally

/-- The tally of a past. -/
def tally (past : List Event) : Tally := past.foldl Tally.add {}

theorem tally_append (past new : List Event) :
    tally (past ++ new) = new.foldl Tally.add (tally past) := List.foldl_append

theorem mem_starts_tally {past : List Event} {time : Int} (noted : .noted .limiters time ∈ past) :
    time ∈ (tally past).starts := by
  induction past using List.reverseRecOn with
  | nil => cases noted
  | append_singleton past event ih =>
      rw [tally_append, List.foldl_cons, List.foldl_nil]
      rcases List.mem_append.mp noted with before | last
      · have kept : time ∈ (tally past).starts := ih before
        cases event with
        | noted m time' => cases m <;> simp [Tally.add, kept]
        | sent x time' =>
            rw [Tally.add, Tally.send]
            split <;> exact kept
        | requested => exact kept
        | stopped => exact kept
      · rw [← List.mem_singleton.mp last]
        exact List.mem_append_right _ (List.mem_singleton_self time)

/-! ### What a scene adds -/

namespace Scene

theorem tally_note {m : Mark} (other : m ≠ .limiters) (s : Scene) :
    tally (s.note m).past = tally s.past := by
  rw [note, tally_append]
  cases m with
  | limiters => exact absurd rfl other
  | turns => rfl
  | begins => rfl

theorem tally_note_limiters (s : Scene) : tally (s.note .limiters).past =
    { tally s.past with starts := (tally s.past).starts ++ [s.engine.clock] } := by
  rw [note, tally_append]
  rfl

/-- Others may make a refresh of the recordings due, and nothing else counts. -/
theorem tally_disturb (s : Scene) (e : Engine) : tally (s.disturb e).past =
    { tally s.past with
      requests := (tally s.past).requests +
        (!s.engine.store.loadRecordings && e.store.loadRecordings).toNat } := by
  rw [disturb, tally_append, Engine.traces]
  cases s.engine.store.running && !e.store.running <;>
    cases !s.engine.store.loadRecordings && e.store.loadRecordings <;> rfl

theorem tally_ask {β : Type} (s : Scene) {q : Ask β} {xs : List Exchange}
    (grown : (q.run s.engine.client).2.exchanges = s.engine.client.exchanges ++ xs) (later : Int) :
    tally (s.ask q later).past = xs.foldl (·.send · s.engine.clock) (tally s.past) := by
  rw [ask, Ask.exchanges, grown, List.drop_left, tally_append, List.foldl_map]
  rfl

theorem tally_ask_of_sparing {β : Type} (s : Scene) {q : Ask β}
    (sparing : Client.Sparing s.engine.client (q.run s.engine.client).2) (later : Int) :
    tally (s.ask q later).past = tally s.past := by
  obtain ⟨xs, grown, rare⟩ := sparing
  rw [s.tally_ask grown]
  clear grown
  induction xs with
  | nil => rfl
  | cons x xs ih =>
      rw [List.foldl_cons, Tally.send_of_not_periodic _ _ (rare x List.mem_cons_self)]
      exact ih fun y member => rare y (List.mem_cons_of_mem x member)

/-- A call in the session is answered with what came for it, or was not sent and failed. -/
theorem tally_ask_of_call {β : Type} (s : Scene) {q : Ask β} {e : Endpoint} {params : Params}
    (calls : (q.run s.engine.client).2 = (s.engine.client.callInSession e params).2) (later : Int) :
    (tally (s.ask q later).past = tally s.past ∧
      (s.engine.client.callInSession e params).1.isOk = false) ∨
    ∃ x, x.request.endpoint = e ∧
      x.reply.value = (s.engine.client.callInSession e params).1 ∧
      tally (s.ask q later).past = (tally s.past).send x s.engine.clock := by
  cases session : s.engine.client.loggedIn with
  | true =>
      obtain ⟨reply, value, called⟩ := Client.callInSession_sends session e params
      exact .inr ⟨_, rfl, value.symm, s.tally_ask (calls ▸ called.exchanges) later⟩
  | false =>
      have unsent : s.engine.client.callInSession e params =
          (.error .notLoggedIn, s.engine.client) :=
        if_neg (Bool.eq_false_iff.mp session)
      rw [unsent] at calls ⊢
      have grown : (q.run s.engine.client).2.exchanges = s.engine.client.exchanges ++ [] := by
        rw [calls, List.append_nil]
      exact .inl ⟨s.tally_ask grown later, rfl⟩

end Scene

end PvrBackend
