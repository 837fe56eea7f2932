import PvrBackend.Proofs.Engine.Watches
import PvrBackend.Proofs.Session.Outcomes

/-!
# Logging in again and again

A worker that cannot log in tells the host so and tries again after the number of sleeps that the
settings say, until it succeeds or is to end. What is seen of it is one failed attempt after the
other, each with its report and its sleeps, and perhaps a success with its report at last; it may
break off anywhere.

The worker looks whether it is to end before each attempt and each sleep. So when others want it to
end, an attempt that it was about to make is the only one to come, and it lies down once at most.
-/

namespace PvrBackend

/-- A login that succeeds leaves a session. -/
theorem Client.loggedIn_of_login_eq_ok {c : Client} (ok : c.login.1 = .ok ()) :
    c.login.2.loggedIn = true := by
  rw [login_eq] at ok ⊢
  generalize c.locked.ensureCredentials = ensured at ok ⊢
  obtain ⟨_ | _, c'⟩ := ensured
  · cases ok
  · have opening := c'.openSession_opening
    dsimp only at ok ⊢
    generalize c'.openSession = result at opening ok ⊢
    cases opening with
    | opened answer token => simpa [loggedIn] using token
    | unanswered => cases ok
    | rejected => cases ok

/-! ### What logging in looks like -/

namespace Moment

@[simp] def isAsk : Moment → Bool
  | asked .. => true
  | _ => false

@[simp] def isSleep : Moment → Bool
  | sleeps _ => true
  | _ => false

/-- What others notice of the worker. -/
@[simp] def isDeed : Moment → Bool
  | asked .. | told _ | sleeps _ => true
  | acted | stopped => false

end Moment

/-- What others noticed of the worker. -/
def deeds (log : List Moment) : List Moment := log.filter Moment.isDeed

@[simp] theorem deeds_append (log log' : List Moment) :
    deeds (log ++ log') = deeds log ++ deeds log' := List.filter_append ..

theorem deeds_acted (log : List Moment) : deeds (log ++ [.acted]) = deeds log := by simp [deeds]

/-- What others do is not noticed of the worker. -/
theorem deeds_others (s : Watch) (e : Engine) : deeds (s.others e).log = deeds s.log := by
  rw [Watch.others]
  split <;> simp [deeds]

/-- An attempt that fails, its report, and the sleeps before the next one. -/
def failedLogin (s : Settings) (c : Client) : List Moment :=
  .asked .login c :: .told (.connection false) :: List.replicate s.loginRetryTicks (.sleeps s.poll)

/-- An attempt that succeeds, and its report. -/
def successfulLogin (c : Client) : List Moment := [.asked .login c, .told (.connection true)]

/-- What is left to see since others wanted the worker to end: no attempt but one that it was about
to make, and a bounded number of sleeps. -/
structure Hush (most : Nat) (after : List Moment) : Prop where
  asks : ∀ x ∈ after.tail, x.isAsk = false
  sleeps : after.countP Moment.isSleep ≤ most

theorem hush_nil (most : Nat) : Hush most [] := ⟨List.forall_mem_nil _, Nat.zero_le _⟩

theorem Hush.weaken {after : List Moment} (hush : Hush 0 after) : Hush 1 after :=
  ⟨hush.asks, Nat.le_succ_of_le hush.sleeps⟩

theorem Hush.append {most most' : Nat} {after new : List Moment} (hush : Hush most after)
    (asks : ∀ x ∈ new, x.isAsk = false) (le : most + new.countP Moment.isSleep ≤ most') :
    Hush most' (after ++ new) := by
  refine ⟨fun x mem => ?_, ?_⟩
  · cases after with
    | nil => exact asks x (List.mem_of_mem_tail mem)
    | cons first rest =>
        rcases List.mem_append.mp mem with before | added
        · exact hush.asks x before
        · exact asks x added
  · rw [List.countP_append]
    exact Nat.le_trans (Nat.add_le_add_right hush.sleeps _) le

/-- Something in a list and more stands in the list or in what is more. -/
theorem eq_append_cons_cases {α : Type _} {log new before after : List α} {x : α}
    (split : log ++ new = before ++ x :: after) :
    (∃ rest, log = before ++ x :: rest ∧ after = rest ++ new) ∨
      ∃ rest, before = log ++ rest ∧ new = rest ++ x :: after := by
  rcases List.append_eq_append_iff.mp split with ⟨rest, past, late⟩ | ⟨rest, early, late⟩
  · exact .inr ⟨rest, past, late⟩
  · cases rest with
    | nil => exact .inr ⟨[], by simpa using early.symm, late.symm⟩
    | cons first rest =>
        obtain ⟨rfl, rfl⟩ := List.cons.inj late
        exact .inl ⟨rest, early, rfl⟩

/-! ### What is kept all along -/

/-- The settings stay, the worker that is to end stays so, and what was seen since others wanted
that is as it should be. -/
structure Watch.Kept (S : Settings) (Lull : List Moment → Prop) (s : Watch) : Prop where
  settings : s.engine.settings = S
  stopped : .stopped ∈ s.log → s.engine.store.running = false
  since : ∀ before after, s.log = before ++ .stopped :: after → Lull after

namespace Watch.Kept

variable {S : Settings} {Lull Lull' : List Moment → Prop} {s : Watch}

/-- A worker that is to go on was not told to end. -/
theorem unstopped (kept : s.Kept S Lull) (running : s.engine.store.running = true) :
    .stopped ∉ s.log := by
  intro stopped
  have halted := kept.stopped stopped
  rw [running] at halted
  cases halted

theorem extend (kept : s.Kept S Lull) {e : Engine} {new : List Moment}
    (settings : e.settings = s.engine.settings)
    (running : e.store.running = s.engine.store.running) (free : .stopped ∉ new)
    (since : ∀ after, Lull after → Lull' (after ++ new)) : Kept S Lull' ⟨e, s.log ++ new⟩ := by
  refine ⟨settings.trans kept.settings, fun stopped => ?_, fun before after split => ?_⟩
  · rcases List.mem_append.mp stopped with past | now
    · exact running.trans (kept.stopped past)
    · exact absurd now free
  · rcases eq_append_cons_cases split with ⟨rest, early, rfl⟩ | ⟨rest, -, late⟩
    · exact since rest (kept.since before rest early)
    · exact absurd (by simp [late]) free

/-- Nothing was seen of a worker that is to go on since it was wanted to end. -/
theorem onward (kept : s.Kept S Lull) (running : s.engine.store.running = true)
    (Lull' : List Moment → Prop) : Kept S Lull' ⟨s.engine, s.log ++ [.acted]⟩ := by
  have free := kept.unstopped running
  have none : s.Kept S fun _ => False :=
    ⟨kept.settings, kept.stopped, fun before after split => free (by simp [split])⟩
  exact none.extend rfl rfl (by simp) fun _ => False.elim

theorem others (kept : s.Kept S Lull) (nil : Lull []) {e : Engine} (beside : s.engine.Beside e) :
    (s.others e).Kept S Lull := by
  rw [Watch.others]
  split
  next ends =>
    obtain ⟨running, halted⟩ := Bool.and_eq_true_iff.mp ends
    refine ⟨beside.settings.trans kept.settings, fun _ => by simpa using halted, ?_⟩
    intro before after split
    rcases eq_append_cons_cases split with ⟨rest, early, -⟩ | ⟨rest, -, late⟩
    · exact absurd (by simp [early]) (kept.unstopped running)
    · have length := congrArg List.length late
      have last : after = [] := List.eq_nil_of_length_eq_zero (by simp at length; omega)
      rwa [last]
  next =>
    rw [List.append_nil]
    exact ⟨beside.settings.trans kept.settings,
      fun stopped => beside.running (kept.stopped stopped), kept.since⟩

theorem hush {most most' : Nat} (kept : s.Kept S (Hush most)) {e : Engine} {new : List Moment}
    (settings : e.settings = s.engine.settings)
    (running : e.store.running = s.engine.store.running) (free : .stopped ∉ new)
    (asks : ∀ x ∈ new, x.isAsk = false) (le : most + new.countP Moment.isSleep ≤ most') :
    Kept S (Hush most') ⟨e, s.log ++ new⟩ :=
  kept.extend settings running free fun _ hush => hush.append asks le

/-- A worker that asks looked before. -/
theorem ask (kept : s.Kept S (· = [])) {β : Type} (q : Ask β) (later : Int) :
    (s.ask q later).Kept S (Hush 0) := by
  refine kept.extend rfl rfl (by simp) fun after none => ?_
  rw [none]
  exact ⟨List.forall_mem_nil _, by simp⟩

theorem weaken (kept : s.Kept S (Hush 0)) : s.Kept S (Hush 1) :=
  ⟨kept.settings, kept.stopped, fun before after split => (kept.since before after split).weaken⟩

end Watch.Kept

/-! ### Points of the loop -/

/-- Where the worker is in the loop. -/
inductive LoginStage where
  /-- It sleeps, or is about to look; `delay` sleeps are still to come after that. -/
  | rests (delay : Nat)
  | looks (delay : Nat)
  | pauses (delay : Nat)
  /-- It is about to make an attempt. -/
  | tries
  | entered (reported : Bool)
  | refused (reported : Bool)
  /-- It saw that it is to end. -/
  | leaves
  | left

namespace LoginStage

/-- The worker has nothing in hand. -/
def Idle : LoginStage → Prop
  | rests _ | left => True
  | _ => False

/-- Where a worker comes to that is to go on. -/
def due : Nat → LoginStage
  | 0 => tries
  | delay + 1 => pauses delay

/-- Where an attempt leads. -/
def tried : Except ApiError Unit → LoginStage
  | .ok _ => entered false
  | .error _ => refused false

/-- What is left to see since others wanted the worker to end. -/
def Lull : LoginStage → List Moment → Prop
  | rests _ | looks _ | leaves | left => Hush 1
  | tries => (· = [])
  | pauses _ | entered _ | refused _ => Hush 0

theorem lull_nil (i : LoginStage) : i.Lull [] := by
  cases i <;> first | rfl | exact hush_nil _

section

variable (S : Settings) (next : Resume) (First : List Moment → Prop)

/-- Attempts that failed were noticed, after what came first. Of the last one some sleeps may be
still to come. -/
def Behind (delay : Nat) (log : List Moment) : Prop :=
  ∃ (first : List Moment) (failed : List Client), First first ∧
    (∀ c ∈ failed, c.login.1 ≠ .ok ()) ∧
    deeds log ++ List.replicate delay (.sleeps S.poll) = first ++ failed.flatMap (failedLogin S)

/-- After attempts that failed one more was made, and then this was noticed. -/
def Attempted (c : Client) (more log : List Moment) : Prop :=
  ∃ (first : List Moment) (failed : List Client), First first ∧
    (∀ c ∈ failed, c.login.1 ≠ .ok ()) ∧
    deeds log = first ++ failed.flatMap (failedLogin S) ++ .asked .login c :: more

/-- The report of an attempt, if it was made. -/
def report (connected reported : Bool) : List Moment :=
  if reported then [.told (.connection connected)] else []

/-- After what came first, attempts that fail were noticed, and perhaps one that succeeds; of the
last attempt it may be only how it begins. -/
def Begun (log : List Moment) : Prop :=
  ∃ (first : List Moment) (failed : List Client), First first ∧
    (∀ c ∈ failed, c.login.1 ≠ .ok ()) ∧
    (deeds log <+: first ++ failed.flatMap (failedLogin S) ∨
      ∃ c, c.login.1 = .ok () ∧
        deeds log <+: first ++ failed.flatMap (failedLogin S) ++ successfulLogin c)

/-- What is known of the worker. -/
def Known : LoginStage → Watch → Prop
  | rests delay, s =>
    s.engine.worker.phase = .login delay next ∧ Behind S First delay s.log
  | looks delay, s => s.engine.worker.wakeAt = none ∧ Behind S First delay s.log
  | pauses delay, s => s.engine.worker.wakeAt = none ∧ Behind S First (delay + 1) s.log
  | tries, s => s.engine.worker.wakeAt = none ∧ Behind S First 0 s.log
  | entered reported, s => s.engine.client.loggedIn = true ∧
    ∃ c, c.login.1 = .ok () ∧ Attempted S First c (report true reported) s.log
  | refused reported, s => s.engine.worker.wakeAt = none ∧
    ∃ c, c.login.1 ≠ .ok () ∧ Attempted S First c (report false reported) s.log
  | leaves, s => s.engine.store.running = false ∧ ∃ delay, Behind S First delay s.log
  | left, s => s.engine.worker.phase = next.phase ∧
    (s.engine.client.loggedIn = true ∧
        (∃ c, c.login.1 = .ok () ∧ Attempted S First c (report true true) s.log) ∨
      s.engine.store.running = false ∧ ∃ delay, Behind S First delay s.log)

/-- What holds in the loop. -/
def Holds (i : LoginStage) (s : Watch) : Prop := s.Kept S i.Lull ∧ i.Known S next First s

end

variable {S : Settings} {next : Resume} {First : List Moment → Prop} {s : Watch}

theorem Behind.congr {delay : Nat} {log log' : List Moment} (behind : Behind S First delay log)
    (same : deeds log' = deeds log) : Behind S First delay log' := by
  obtain ⟨first, failed, rest⟩ := behind
  exact ⟨first, failed, same ▸ rest⟩

theorem Attempted.congr {c : Client} {more log log' : List Moment}
    (attempted : Attempted S First c more log) (same : deeds log' = deeds log) :
    Attempted S First c more log' := by
  obtain ⟨first, failed, rest⟩ := attempted
  exact ⟨first, failed, same ▸ rest⟩

/-- A sleep that was still to come. -/
theorem Behind.sleep {delay : Nat} {log : List Moment} (behind : Behind S First (delay + 1) log) :
    Behind S First delay (log ++ [.acted, .sleeps S.poll]) := by
  obtain ⟨first, failed, begins, fail, same⟩ := behind
  refine ⟨first, failed, begins, fail, ?_⟩
  rw [← same, deeds_append, List.append_assoc, List.replicate_succ]
  rfl

/-- An attempt is made when no sleep is still to come. -/
theorem Behind.attempt {log : List Moment} (behind : Behind S First 0 log) (c : Client) :
    Attempted S First c [] (log ++ [.asked .login c]) := by
  obtain ⟨first, failed, begins, fail, same⟩ := behind
  refine ⟨first, failed, begins, fail, ?_⟩
  rw [← same, deeds_append, List.replicate_zero, List.append_nil]
  rfl

theorem Attempted.more {c : Client} {more new log : List Moment}
    (attempted : Attempted S First c more log) :
    Attempted S First c (more ++ deeds new) (log ++ new) := by
  obtain ⟨first, failed, begins, fail, same⟩ := attempted
  refine ⟨first, failed, begins, fail, ?_⟩
  rw [deeds_append, same, List.append_assoc, List.cons_append]

/-- An attempt that fails is one more of those. -/
theorem Attempted.failed {c : Client} {more log : List Moment} (fails : c.login.1 ≠ .ok ())
    (attempted : Attempted S First c more log) : ∃ (first : List Moment) (failed : List Client),
      First first ∧ (∀ c ∈ failed, c.login.1 ≠ .ok ()) ∧ ∀ rest,
        .asked .login c :: (more ++ rest) = failedLogin S c →
        deeds log ++ rest = first ++ failed.flatMap (failedLogin S) := by
  obtain ⟨first, failed, begins, fail, same⟩ := attempted
  refine ⟨first, failed ++ [c], begins, ?_, fun rest whole => ?_⟩
  · intro c' mem
    rcases List.mem_append.mp mem with mem | mem
    · exact fail c' mem
    · rwa [List.mem_singleton.mp mem]
  · rw [same, List.flatMap_append, List.flatMap_singleton, ← whole, List.append_assoc,
      List.append_assoc, List.cons_append]

/-- After the report of a failure all sleeps are still to come. -/
theorem Attempted.behind {c : Client} {log : List Moment} (fails : c.login.1 ≠ .ok ())
    (attempted : Attempted S First c (report false true) log) :
    Behind S First S.loginRetryTicks log := by
  obtain ⟨first, failed, begins, fail, same⟩ := attempted.failed fails
  exact ⟨first, failed, begins, fail, same _ rfl⟩

theorem Behind.begun {delay : Nat} {log : List Moment} (behind : Behind S First delay log) :
    Begun S First log := by
  obtain ⟨first, failed, begins, fail, same⟩ := behind
  exact ⟨first, failed, begins, fail, .inl ⟨_, same⟩⟩

theorem Attempted.begun {c : Client} {reported : Bool} {log : List Moment} (ok : c.login.1 = .ok ())
    (attempted : Attempted S First c (report true reported) log) : Begun S First log := by
  obtain ⟨first, failed, begins, fail, same⟩ := attempted
  refine ⟨first, failed, begins, fail, .inr ⟨c, ok, ?_⟩⟩
  rw [same, List.prefix_append_right_inj]
  cases reported with
  | false => exact ⟨[.told (.connection true)], rfl⟩
  | true => exact List.prefix_rfl

theorem Attempted.begun_of_ne {c : Client} {reported : Bool} {log : List Moment}
    (fails : c.login.1 ≠ .ok ()) (attempted : Attempted S First c (report false reported) log) :
    Begun S First log := by
  obtain ⟨first, failed, begins, fail, same⟩ := attempted.failed fails
  refine ⟨first, failed, begins, fail, .inl ?_⟩
  cases reported with
  | false => exact ⟨_, same _ rfl⟩
  | true => exact ⟨_, same _ rfl⟩

/-! ### From point to point -/

theorem Holds.others {i : LoginStage} (holds : i.Holds S next First s) {e : Engine}
    (beside : s.engine.Beside e) : i.Holds S next First (s.others e) := by
  obtain ⟨kept, known⟩ := holds
  refine ⟨kept.others i.lull_nil beside, ?_⟩
  have unnoticed := deeds_others s e
  have session : e.client.loggedIn = s.engine.client.loggedIn := by
    rw [Client.loggedIn, beside.token, Client.loggedIn]
  have awake : e.worker.wakeAt = s.engine.worker.wakeAt := by rw [beside.worker]
  cases i with
  | rests delay => exact ⟨beside.worker ▸ known.1, known.2.congr unnoticed⟩
  | looks delay => exact ⟨awake.trans known.1, known.2.congr unnoticed⟩
  | pauses delay => exact ⟨awake.trans known.1, known.2.congr unnoticed⟩
  | tries => exact ⟨awake.trans known.1, known.2.congr unnoticed⟩
  | entered reported =>
      obtain ⟨inside, c, ok, attempted⟩ := known
      exact ⟨session.trans inside, c, ok, attempted.congr unnoticed⟩
  | refused reported =>
      obtain ⟨up, c, fails, attempted⟩ := known
      exact ⟨awake.trans up, c, fails, attempted.congr unnoticed⟩
  | leaves =>
      obtain ⟨halted, delay, behind⟩ := known
      exact ⟨beside.running halted, delay, behind.congr unnoticed⟩
  | left =>
      obtain ⟨phase, ⟨inside, c, ok, attempted⟩ | ⟨halted, delay, behind⟩⟩ := known
      · exact ⟨beside.worker ▸ phase, .inl ⟨session.trans inside, c, ok, attempted.congr unnoticed⟩⟩
      · exact ⟨beside.worker ▸ phase, .inr ⟨beside.running halted, delay, behind.congr unnoticed⟩⟩

/-- The worker may come back later. -/
theorem Holds.idle {i : LoginStage} (idle : i.Idle) (holds : i.Holds S next First s) {e : Engine}
    (settings : e.settings = s.engine.settings) (client : e.client = s.engine.client)
    (store : e.store = s.engine.store) (phase : e.worker.phase = s.engine.worker.phase) :
    i.Holds S next First { s with engine := e } := by
  obtain ⟨kept, known⟩ := holds
  refine ⟨⟨settings.trans kept.settings, fun stopped => ?_, kept.since⟩, ?_⟩
  · rw [store]
    exact kept.stopped stopped
  · cases i with
    | rests delay => exact ⟨phase.trans known.1, known.2⟩
    | left =>
        refine ⟨phase.trans known.1, ?_⟩
        rw [store, client]
        exact known.2
    | _ => cases idle

/-- A worker that is to go on goes on. -/
theorem Holds.onward {delay : Nat} (holds : (looks delay).Holds S next First s)
    (running : s.engine.store.running = true) :
    (due delay).Holds S next First ⟨s.engine, s.log ++ [.acted]⟩ := by
  obtain ⟨kept, awake, behind⟩ := holds
  cases delay with
  | zero => exact ⟨kept.onward running _, awake, behind.congr (deeds_acted _)⟩
  | succ delay => exact ⟨kept.onward running _, awake, behind.congr (deeds_acted _)⟩

theorem Holds.lapse {delay : Nat} (holds : (looks delay).Holds S next First s)
    (halted : s.engine.store.running = false) :
    leaves.Holds S next First ⟨s.engine, s.log ++ [.acted]⟩ := by
  obtain ⟨kept, -, behind⟩ := holds
  exact ⟨kept.hush rfl rfl (by simp) (by simp) (by simp), halted, delay,
    behind.congr (deeds_acted _)⟩

theorem Holds.leave (holds : leaves.Holds S next First s) :
    left.Holds S next First ⟨s.engine.proceed next.phase, s.log ++ [.acted]⟩ := by
  obtain ⟨kept, halted, delay, behind⟩ := holds
  exact ⟨kept.hush rfl rfl (by simp) (by simp) (by simp), rfl,
    .inr ⟨halted, delay, behind.congr (deeds_acted _)⟩⟩

theorem Holds.pause {delay : Nat} (holds : (pauses delay).Holds S next First s) :
    (rests delay).Holds S next First ⟨s.engine.sleep (.login delay next),
      s.log ++ [.acted, .sleeps s.engine.settings.poll]⟩ := by
  obtain ⟨kept, awake, behind⟩ := holds
  refine ⟨kept.hush rfl rfl (by simp) (by simp) (by simp), rfl, ?_⟩
  rw [kept.settings]
  exact behind.sleep

theorem Holds.attempt (holds : tries.Holds S next First s) (later : Int) :
    (tried s.engine.client.login.1).Holds S next First (s.ask .login later) := by
  obtain ⟨kept, awake, behind⟩ := holds
  have made := behind.attempt s.engine.client
  cases answer : s.engine.client.login.1 with
  | ok => exact ⟨kept.ask _ _, Client.loggedIn_of_login_eq_ok answer, _, answer, made⟩
  | error err => exact ⟨kept.ask _ _, awake, _, by rw [answer]; exact nofun, made⟩

theorem Holds.greet (holds : (entered false).Holds S next First s) :
    (entered true).Holds S next First ⟨s.engine.tell (.connection true),
      s.log ++ [.acted, .told (.connection true)]⟩ := by
  obtain ⟨kept, inside, c, ok, attempted⟩ := holds
  exact ⟨kept.hush rfl rfl (by simp) (by simp) (by simp), inside, c, ok, attempted.more⟩

theorem Holds.enter (holds : (entered true).Holds S next First s) :
    left.Holds S next First ⟨s.engine.proceed next.phase, s.log ++ [.acted]⟩ := by
  obtain ⟨kept, inside, c, ok, attempted⟩ := holds
  exact ⟨kept.hush rfl rfl (by simp) (by simp) (by simp), rfl,
    .inl ⟨inside, c, ok, attempted.congr (deeds_acted _)⟩⟩

theorem Holds.complain (holds : (refused false).Holds S next First s) :
    (refused true).Holds S next First ⟨s.engine.tell (.connection false),
      s.log ++ [.acted, .told (.connection false)]⟩ := by
  obtain ⟨kept, awake, c, fails, attempted⟩ := holds
  exact ⟨kept.hush rfl rfl (by simp) (by simp) (by simp), awake, c, fails, attempted.more⟩

/-- After a failure the worker goes by its settings. -/
theorem Holds.retry (holds : (refused true).Holds S next First s) :
    (pauses (s.engine.settings.loginRetryTicks - 1)).Holds S next First
      ⟨s.engine, s.log ++ [.acted]⟩ := by
  obtain ⟨kept, awake, c, fails, attempted⟩ := holds
  refine ⟨kept.hush rfl rfl (by simp) (by simp) (by simp), awake, ?_⟩
  rw [kept.settings, Nat.sub_add_cancel S.loginRetryTicks_pos]
  exact (attempted.behind fails).congr (deeds_acted _)

open Routine in
/-- One round of the loop. -/
theorem upholds_step (S : Settings) (next : Resume) (First : List Moment → Prop) (delay : Nat) :
    (step (.login delay next)).Upholds (Holds S next First) (looks delay) Idle := by
  have ends : (proceed next.phase).Upholds (Holds S next First) leaves Idle :=
    upholds_proceed (fun _ holds => holds.leave) trivial
  refine upholds_note (upholds_note (upholds_running (fun _ running holds => holds.onward running)
    (fun _ halted holds => holds.lapse halted) ?_ ends))
  cases delay with
  | succ delay =>
      exact upholds_sleep (fun _ holds => holds.2.1) (fun _ holds => holds.pause) trivial
  | zero =>
      refine upholds_request tried (fun _ later holds => holds.attempt later) fun answer => ?_
      cases answer with
      | ok =>
          refine upholds_tell (fun _ holds => holds.greet) ?_
          exact upholds_proceed (fun _ holds => holds.enter) trivial
      | error err =>
          refine upholds_tell (fun _ holds => holds.complain) ?_
          refine upholds_look (fun s => pauses (s.loginRetryTicks - 1))
            (fun _ holds => holds.retry) fun s => ?_
          exact upholds_sleep (fun _ holds => holds.2.1) (fun _ holds => holds.pause) trivial

/-- What is known in the loop. -/
def outline (S : Settings) (next : Resume) (First : List Moment → Prop) :
    Watch.Outline LoginStage where
  Holds := Holds S next First
  Rests := Idle
  others holds beside := holds.others beside
  wait idle holds := holds.idle idle rfl rfl rfl rfl
  wake idle holds := holds.idle idle rfl rfl rfl rfl
  turn := by
    intro i s delay next' idle holds awake phase
    obtain ⟨kept, known⟩ := holds
    cases i with
    | rests delay' =>
        obtain ⟨rfl, rfl⟩ := Phase.login.inj (phase.symm.trans known.1)
        exact ⟨looks delay, ⟨kept, awake, known.2⟩, upholds_step S next' First delay⟩
    | left =>
        have other := phase.symm.trans known.1
        cases next <;> cases other
    | _ => cases idle

/-- Whatever the point, what was noticed is how failed attempts begin, or failed attempts and one
that succeeds. -/
theorem Known.begun {i : LoginStage} (known : i.Known S next First s) : Begun S First s.log := by
  cases i with
  | rests => exact known.2.begun
  | looks => exact known.2.begun
  | pauses => exact known.2.begun
  | tries => exact known.2.begun
  | entered =>
      obtain ⟨-, c, ok, attempted⟩ := known
      exact attempted.begun ok
  | refused =>
      obtain ⟨-, c, fails, attempted⟩ := known
      exact attempted.begun_of_ne fails
  | leaves =>
      obtain ⟨-, delay, behind⟩ := known
      exact behind.begun
  | left =>
      obtain ⟨-, ⟨-, c, ok, attempted⟩ | ⟨-, delay, behind⟩⟩ := known
      · exact attempted.begun ok
      · exact behind.begun

theorem Lull.hush {i : LoginStage} {after : List Moment} (lull : i.Lull after) : Hush 1 after := by
  cases i with
  | tries => exact lull ▸ hush_nil 1
  | pauses | entered | refused => exact lull.weaken
  | _ => exact lull

/-- A worker that has nothing in hand and nothing more to do with logging in left the loop. -/
theorem Holds.left_of_onward {i : LoginStage} (holds : i.Holds S next First s) (idle : i.Idle)
    (onward : ∀ delay next, s.engine.worker.phase ≠ .login delay next) :
    left.Holds S next First s := by
  cases i with
  | rests delay => exact absurd holds.2.1 (onward delay next)
  | left => exact holds
  | _ => cases idle

end LoginStage

/-! ### Logging in after a sign of life -/

/-- Where the worker is in the job of the sign of life. -/
inductive KeepAliveStage where
  | begins
  | asks
  /-- There was no usable answer. -/
  | faltered
  | done
  | login (stage : LoginStage)

namespace KeepAliveStage

/-- A sign of life that was not taken. -/
def Faltered (first : List Moment) : Prop :=
  ∃ c : Client, c.keepAlive.1 ≠ .ok () ∧ first = [.asked .keepAlive c]

def Idle : KeepAliveStage → Prop
  | done => True
  | login stage => stage.Idle
  | _ => False

def Lull : KeepAliveStage → List Moment → Prop
  | begins | done => Hush 1
  | asks => (· = [])
  | faltered => Hush 0
  | login stage => stage.Lull

theorem lull_nil (i : KeepAliveStage) : i.Lull [] := by
  cases i with
  | login stage => exact stage.lull_nil
  | asks => rfl
  | _ => exact hush_nil _

/-- What is known of the worker. -/
def Known (S : Settings) : KeepAliveStage → Watch → Prop
  | begins, s | asks, s => s.engine.worker.phase = .pass ∧ deeds s.log = []
  | faltered, s => LoginStage.Behind S Faltered 0 s.log
  | done, s => s.engine.worker.phase = .pass ∧
    (s.engine.store.running = false ∨
      ∃ c : Client, c.keepAlive.1 = .ok () ∧ deeds s.log = [.asked .keepAlive c])
  | login stage, s => stage.Known S .pass Faltered s

/-- What holds in the job. -/
def Holds (S : Settings) (i : KeepAliveStage) (s : Watch) : Prop := s.Kept S i.Lull ∧ i.Known S s

/-- Where the answer leads. -/
def answered : Except ApiError Unit → KeepAliveStage
  | .ok _ => done
  | .error _ => faltered

variable {S : Settings} {s : Watch}

theorem Holds.others {i : KeepAliveStage} (holds : i.Holds S s) {e : Engine}
    (beside : s.engine.Beside e) : i.Holds S (s.others e) := by
  obtain ⟨kept, known⟩ := holds
  cases i with
  | login stage => exact LoginStage.Holds.others ⟨kept, known⟩ beside
  | begins | asks =>
      exact ⟨kept.others (lull_nil _) beside, beside.worker ▸ known.1,
        (deeds_others s e).trans known.2⟩
  | faltered => exact ⟨kept.others (lull_nil _) beside, known.congr (deeds_others s e)⟩
  | done =>
      obtain ⟨phase, halted | ⟨c, ok, same⟩⟩ := known
      · exact ⟨kept.others (lull_nil _) beside, beside.worker ▸ phase, .inl (beside.running halted)⟩
      · exact ⟨kept.others (lull_nil _) beside, beside.worker ▸ phase,
          .inr ⟨c, ok, (deeds_others s e).trans same⟩⟩

theorem Holds.idle {i : KeepAliveStage} (idle : i.Idle) (holds : i.Holds S s) {e : Engine}
    (settings : e.settings = s.engine.settings) (client : e.client = s.engine.client)
    (store : e.store = s.engine.store) (phase : e.worker.phase = s.engine.worker.phase) :
    i.Holds S { s with engine := e } := by
  cases i with
  | login stage => exact LoginStage.Holds.idle idle holds settings client store phase
  | done =>
      obtain ⟨kept, known⟩ := holds
      refine ⟨⟨settings.trans kept.settings, fun stopped => ?_, kept.since⟩, ?_⟩
      · rw [store]
        exact kept.stopped stopped
      · rw [Known, store]
        exact ⟨phase.trans known.1, known.2⟩
  | _ => cases idle

theorem Holds.ask (holds : asks.Holds S s) (later : Int) :
    (answered s.engine.client.keepAlive.1).Holds S (s.ask .keepAlive later) := by
  obtain ⟨kept, phase, none⟩ := holds
  have made : deeds (s.ask .keepAlive later).log = [.asked .keepAlive s.engine.client] := by
    rw [Watch.ask, deeds_append, none]
    rfl
  cases answer : s.engine.client.keepAlive.1 with
  | ok => exact ⟨(kept.ask _ _).weaken, phase, .inr ⟨_, answer, made⟩⟩
  | error err =>
      refine ⟨kept.ask _ _, [.asked .keepAlive s.engine.client], [], ⟨_, ?_, rfl⟩, by simp, ?_⟩
      · rw [answer]
        exact nofun
      · rw [made]
        rfl

theorem Holds.onward (holds : begins.Holds S s) (running : s.engine.store.running = true) :
    asks.Holds S ⟨s.engine, s.log ++ [.acted]⟩ :=
  ⟨holds.1.onward running _, holds.2.1, (deeds_acted _).trans holds.2.2⟩

theorem Holds.lapse (holds : begins.Holds S s) (halted : s.engine.store.running = false) :
    done.Holds S ⟨s.engine, s.log ++ [.acted]⟩ :=
  ⟨holds.1.hush rfl rfl (by simp) (by simp) (by simp), holds.2.1, .inl halted⟩

/-- The worker turns to log in. -/
theorem Holds.turn (holds : faltered.Holds S s) : (login (.rests 0)).Holds S
    ⟨s.engine.proceed (.login 0 .pass), s.log ++ [.acted]⟩ :=
  ⟨holds.1.hush rfl rfl (by simp) (by simp) (by simp), rfl, holds.2.congr (deeds_acted _)⟩

open Routine in
theorem upholds_job (S : Settings) : keepAliveJob.Upholds (Holds S) begins Idle := by
  refine upholds_note (upholds_running (fun _ running holds => holds.onward running)
    (fun _ halted holds => holds.lapse halted) ?_ trivial)
  refine upholds_request answered (fun _ later holds => holds.ask later) fun answer => ?_
  cases answer with
  | ok => trivial
  | error err => exact upholds_proceed (fun _ holds => holds.turn) trivial

/-- What is known in the job, and in the loop that may follow it. -/
def outline (S : Settings) : Watch.Outline KeepAliveStage where
  Holds := Holds S
  Rests := Idle
  others holds beside := holds.others beside
  wait idle holds := holds.idle idle rfl rfl rfl rfl
  wake idle holds := holds.idle idle rfl rfl rfl rfl
  turn := by
    intro i s delay next idle holds awake phase
    cases i with
    | login stage =>
        obtain ⟨j, holds, upholds⟩ :=
          (LoginStage.outline S .pass Faltered).turn idle holds awake phase
        exact ⟨login j, holds, upholds.map login (fun _ _ => Iff.rfl) fun _ => id⟩
    | done => cases phase.symm.trans holds.2.1
    | _ => cases idle

end KeepAliveStage

/-! ### Logging in when the worker is to end already -/

/-- What is known of a worker that is to end and has nothing in hand: nothing more is noticed of
it. -/
def haltedOutline (noticed : List Moment) : Watch.Outline Unit where
  Holds _ s := s.engine.store.running = false ∧ deeds s.log = noticed
  Rests _ := True
  others holds beside := ⟨beside.running holds.1, (deeds_others _ _).trans holds.2⟩
  wait _ holds := holds
  wake _ holds := holds
  turn := by
    intro _ s delay next _ holds _ _
    refine ⟨(), holds, ?_⟩
    refine Routine.upholds_note (Routine.upholds_note (Routine.upholds_stopped (j := ())
      (fun _ holds => holds.1) (fun _ holds => ⟨holds.1, (deeds_acted _).trans holds.2⟩) ?_))
    exact Routine.upholds_proceed (j := ())
      (fun _ holds => ⟨holds.1, (deeds_acted _).trans holds.2⟩) trivial

namespace Watch

/-- A worker logs in until it succeeds or is to end, whatever the service answers and whatever
others do meanwhile. What is noticed of it are attempts that fail, each with its report and then as
many sleeps of one poll interval as the settings say, and at last perhaps one that succeeds, with
its report. It leaves the loop with a success, logged in, or because it is to end, and then only
sleeps may be missing. Once others wanted it to end no attempt comes but one that it was about to
make, as it had looked before, and it lies down once at most; if they wanted that before it began or
while it slept, nothing more comes at all. So when the job of the sign of life is over, either that
was taken, or a login succeeded, or the worker is to end. -/
theorem logins_keep_pace :
    (∀ (e : Engine) (next : Resume) (s : Watch) (todo : Routine Unit),
      e.worker.phase = .login 0 next → Run ⟨e, []⟩ (.done ()) s todo →
      1 ≤ e.settings.loginRetryTicks ∧
      (∃ failed : List Client, (∀ c ∈ failed, c.login.1 ≠ .ok ()) ∧
        (deeds s.log <+: failed.flatMap (failedLogin e.settings) ∨
          ∃ c, c.login.1 = .ok () ∧
            deeds s.log <+: failed.flatMap (failedLogin e.settings) ++ successfulLogin c)) ∧
      (Returned s todo →
        (s.engine.store.running = false ∧ ∃ (failed : List Client) (missing : Nat),
          (∀ c ∈ failed, c.login.1 ≠ .ok ()) ∧
          deeds s.log ++ List.replicate missing (.sleeps e.settings.poll) =
            failed.flatMap (failedLogin e.settings)) ∨
        s.engine.client.loggedIn = true ∧ ∃ (failed : List Client) (c : Client),
          (∀ c ∈ failed, c.login.1 ≠ .ok ()) ∧ c.login.1 = .ok () ∧
          deeds s.log = failed.flatMap (failedLogin e.settings) ++ successfulLogin c) ∧
      (.stopped ∈ s.log → s.engine.store.running = false) ∧
      (∀ before after, s.log = before ++ .stopped :: after →
        (∀ x ∈ after.tail, x.isAsk = false) ∧ after.countP Moment.isSleep ≤ 1)) ∧
    (∀ (s s' : Watch) (todo : Routine Unit), s.engine.store.running = false →
      Run s (.done ()) s' todo → deeds s'.log = deeds s.log) ∧
    (∀ (e : Engine) (s : Watch) (todo : Routine Unit),
      e.worker.phase = .pass → Run ⟨e, []⟩ .keepAliveJob s todo → Returned s todo →
      s.engine.store.running = true →
      (∃ c : Client, c.keepAlive.1 = .ok () ∧ deeds s.log = [.asked .keepAlive c]) ∨
      s.engine.client.loggedIn = true ∧ ∃ (c c' : Client) (failed : List Client),
        c.keepAlive.1 ≠ .ok () ∧ (∀ c ∈ failed, c.login.1 ≠ .ok ()) ∧ c'.login.1 = .ok () ∧
        deeds s.log = .asked .keepAlive c ::
          failed.flatMap (failedLogin e.settings) ++ successfulLogin c') := by
  have fresh : ∀ e : Engine, Kept e.settings (Hush 1) ⟨e, []⟩ := fun e => ⟨rfl, by simp, by simp⟩
  refine ⟨?loop, ?halted, ?job⟩
  case loop =>
    intro e next s todo phase run
    obtain ⟨i, holds, upholds⟩ := (LoginStage.outline e.settings next (· = [])).sound run
      (i := .rests 0) ⟨fresh e, phase, [], [], rfl, by simp, rfl⟩ trivial
    obtain ⟨kept, known⟩ := holds
    obtain ⟨first, failed, rfl, fail, begun⟩ := known.begun
    refine ⟨e.settings.loginRetryTicks_pos, ⟨failed, fail, begun⟩, ?returns, kept.stopped,
      ?stopped⟩
    case returns =>
      rintro ⟨rfl, -, onward⟩
      obtain ⟨-, -, ⟨inside, c, ok, first, failed, rfl, fail, same⟩ |
          ⟨halted, missing, first, failed, rfl, fail, same⟩⟩ :=
        LoginStage.Holds.left_of_onward ⟨kept, known⟩ upholds onward
      · exact .inr ⟨inside, failed, c, fail, ok, same⟩
      · exact .inl ⟨halted, failed, missing, fail, same⟩
    case stopped =>
      intro before after split
      have hush := (kept.since before after split).hush
      exact ⟨hush.asks, hush.sleeps⟩
  case halted =>
    intro s s' todo halted run
    obtain ⟨-, ⟨-, same⟩, -⟩ :=
      (haltedOutline (deeds s.log)).sound run (i := ()) ⟨halted, rfl⟩ trivial
    exact same
  case job =>
    intro e s todo phase run returned running
    obtain ⟨i, holds, upholds⟩ := (KeepAliveStage.outline e.settings).sound run
      (i := .begins) ⟨fresh e, phase, rfl⟩ (KeepAliveStage.upholds_job e.settings)
    obtain ⟨rfl, -, onward⟩ := returned
    cases i with
    | done =>
        obtain ⟨-, -, halted | taken⟩ := holds
        · rw [running] at halted
          cases halted
        · exact .inl taken
    | login stage =>
        obtain ⟨-, -, ⟨inside, c', ok, first, failed, ⟨c, fails, rfl⟩, fail, same⟩ | ⟨halted, -⟩⟩ :=
          LoginStage.Holds.left_of_onward holds upholds onward
        · exact .inr ⟨inside, c, c', failed, fails, fail, ok, same⟩
        · rw [running] at halted
          cases halted
    | _ => cases upholds

/-- An engine whose worker is about to log in, and sleeps once after a failure. -/
def hasty : Engine := .create { loginRetrySecs := 0 } { account := default } {} 0

/-- Its worker after a first attempt, which fails. -/
def rejected : Watch := (Routine.step (.login 0 .launch)).watch ⟨hasty, []⟩

theorem run_rejected : Run ⟨hasty, []⟩ (.done ()) rejected (.done ()) := by
  have turned : Run ⟨hasty, []⟩ (.done ()) ⟨hasty, []⟩ (.step (.login 0 .launch)) :=
    Run.start.turn rfl rfl
  exact turned.watch

/-- The service comes to let everyone in, and the worker wakes up. -/
def woken : Watch :=
  ((rejected.others { rejected.engine with
    client := { rejected.engine.client with server := Client.welcoming } }).wait 1000).wake

theorem run_woken : Run ⟨hasty, []⟩ (.done ()) woken (.done ()) := by
  have asleep : rejected.engine.worker.wakeAt = some 1000 := by decide +kernel
  have ahead : rejected.engine.now ≤ 1000 := by decide +kernel
  have served := run_rejected.others (rejected.engine.beside_surroundings Client.welcoming
    rejected.engine.client.pairStore rejected.engine.host)
  exact (served.wait asleep ahead).wake asleep (Int.le_refl 1000)

/-- The second attempt succeeds. -/
def admitted : Watch := (Routine.step (.login 0 .launch)).watch woken

theorem run_admitted : Run ⟨hasty, []⟩ (.done ()) admitted (.done ()) := by
  have turn : woken.engine.worker.phase = .login 0 .launch := by decide +kernel
  exact (run_woken.turn rfl turn).watch

/-- An engine whose worker is about to give a sign of life, without a session. -/
def lapsed : Engine :=
  { hasty with
    client := { hasty.client with server := Client.welcoming }
    worker := { hasty.worker with phase := .pass } }

/-- Its worker logs in instead. -/
def renewed : Watch :=
  (Routine.step (.login 0 .pass)).watch (Routine.keepAliveJob.watch ⟨lapsed, []⟩)

theorem run_renewed : Run ⟨lapsed, []⟩ .keepAliveJob renewed (.done ()) := by
  have job : Run ⟨lapsed, []⟩ .keepAliveJob (Routine.keepAliveJob.watch ⟨lapsed, []⟩) (.done ()) :=
    Run.start.watch
  have awake : (Routine.keepAliveJob.watch ⟨lapsed, []⟩).engine.worker.wakeAt = none := by
    decide +kernel
  have turn : (Routine.keepAliveJob.watch ⟨lapsed, []⟩).engine.worker.phase = .login 0 .pass := by
    decide +kernel
  exact (job.turn awake turn).watch

theorem returned_of_phase {s : Watch} (next : Resume) (awake : s.engine.worker.wakeAt = none)
    (phase : s.engine.worker.phase = next.phase) : Returned s (.done ()) := by
  refine ⟨rfl, awake, ?_⟩
  rw [phase]
  cases next <;> exact nofun

/-- One attempt fails and the next one succeeds, a sleep after it; and a sign of life that cannot be
given leads to a login. -/
theorem logins_of_hasty :
    (admitted.engine.client.loggedIn = true ∧ (deeds admitted.log).length = 5 ∧
      ∃ (failed : List Client) (c : Client),
        (∀ c ∈ failed, c.login.1 ≠ .ok ()) ∧ c.login.1 = .ok () ∧
        deeds admitted.log = failed.flatMap (failedLogin hasty.settings) ++ successfulLogin c) ∧
    renewed.engine.client.loggedIn = true ∧ (deeds renewed.log).length = 3 := by
  obtain ⟨loop, -, job⟩ := logins_keep_pace
  constructor
  · have returned : Returned admitted (.done ()) :=
      returned_of_phase .launch (by decide +kernel) (by decide +kernel)
    obtain ⟨-, -, returns, -⟩ := loop hasty .launch admitted _ rfl run_admitted
    rcases returns returned with ⟨halted, -⟩ | ⟨inside, rest⟩
    · exact absurd halted (by decide +kernel)
    · exact ⟨inside, by decide +kernel, rest⟩
  · have returned : Returned renewed (.done ()) :=
      returned_of_phase .pass (by decide +kernel) (by decide +kernel)
    have length : (deeds renewed.log).length = 3 := by decide +kernel
    rcases job lapsed renewed _ rfl run_renewed returned (by decide +kernel) with
      ⟨c, -, only⟩ | ⟨inside, -⟩
    · rw [only] at length
      cases length
    · exact ⟨inside, length⟩

/-- It is not true that no attempt comes once others wanted the worker to end: if they do so between
its look and the attempt that it was about to make then it makes that. -/
theorem not_always_hushed : ¬ ∀ (e : Engine) (next : Resume) (s : Watch) (todo : Routine Unit),
    e.worker.phase = .login 0 next → Run ⟨e, []⟩ (.done ()) s todo →
    ∀ before after, s.log = before ++ .stopped :: after → ∀ x ∈ after, x.isAsk = false := by
  intro hushed
  have looked := (Run.start.turn (s := ⟨hasty, []⟩) rfl rfl).note.note.act
  have stopped := looked.others (hasty.beside_serve .stop)
  have asked := stopped.ask (Int.le_refl _)
  exact absurd (hushed hasty .launch _ _ rfl asked [.acted] [.asked .login _] rfl _
    (List.mem_singleton_self _)) nofun

end Watch

end PvrBackend
