import PvrBackend.Proofs.Engine.Pacing
import PvrBackend.Proofs.Engine.Tallies

/-!
# The books of the worker

What the worker asked for up to some moment is known by its tally, and what its limiters have let
pass by the slots that they have used up. The two fit together: before the limiters start there is
at most one load of the lineup, and from then on each thing was asked for in the pace of its
limiter. What the worker polls, asks for and leaves keeps the books in order.
-/

namespace PvrBackend

/-- Whether the limiters are still to be started. -/
def Phase.isOpening : Phase → Bool
  | .login _ .launch | .launch => true
  | .login _ .pass | .pass | .ended => false

theorem Resume.isOpening_login (next : Resume) (delay : Nat) :
    (Phase.login delay next).isOpening = next.phase.isOpening := by
  cases next <;> rfl

/-- What the worker is just about to ask for. -/
inductive Due where
  | nothing
  | lineup
  | keepAlive
  /-- The listing of recordings, or to note a request for it. -/
  | recordings
  | guide
  /-- The guide was asked for, and is to be asked for once more if a part came. -/
  | looked (more : Bool)
deriving DecidableEq, Repr

namespace Due

open Limiter (Turn)

def lineupTurn : Due → Turn
  | .lineup => .due
  | _ => .idle

def keepAliveTurn : Due → Turn
  | .keepAlive => .due
  | _ => .idle

/-- The worker keeps in mind whether a part of the guide came in the last pass. -/
def guideTurn (due : Due) (updated : Bool) : Turn :=
  match due with
  | .guide => .due
  | .looked more => .after more
  | _ => .after updated

/-- How many requests for the listing are taken and not made. -/
def taken : Due → Nat
  | .recordings => 1
  | _ => 0

/-- Whether it does not matter when the worker goes on. -/
def isCalm : Due → Bool
  | .lineup | .keepAlive | .guide => false
  | _ => true

theorem turns_of_isCalm {due : Due} (calm : due.isCalm = true) :
    due.lineupTurn ≠ .due ∧ due.keepAliveTurn ≠ .due ∧
      ∀ updated, due.guideTurn updated ≠ .due := by
  have after : ∀ loaded, Turn.after loaded ≠ .due := by decide
  cases due with
  | nothing => exact ⟨nofun, nofun, after⟩
  | recordings => exact ⟨nofun, nofun, after⟩
  | looked more => exact ⟨nofun, nofun, fun _ => after more⟩
  | lineup => cases calm
  | keepAlive => cases calm
  | guide => cases calm

end Due

/-! ### What is known -/

/-- What is known before the limiters start, and up to the moment at which they do: nothing was
asked for but the lineup, once at most. -/
structure Early (asked started : Bool) (e : Engine) (t : Tally) : Prop where
  opening : e.worker.phase.isOpening = true
  updated : e.worker.guideUpdated = false
  paced : e.settings.Paced
  tally : t = { playlists := t.playlists, requests := t.requests,
                starts := if started then [e.clock] else [] }
  few : t.playlists.length ≤ asked.toNat
  past : ∀ time ∈ t.playlists, time ≤ e.clock

/-- What is known once the limiters have started: each thing was asked for in the pace of its own.
The load of the lineup before counts for the first slot. The limiter of the signs of life is not due
in its first slot, so that one does not count. -/
structure Late (start : Int) (due : Due) (e : Engine) (t : Tally) : Prop where
  opening : e.worker.phase.isOpening = false
  starts : t.starts = [start]
  lineup : e.worker.limiters.fullRefresh.Paces ⟨e.settings.fullRefresh, start⟩ e.clock
    0 t.playlists [] due.lineupTurn
  keepAlive : e.worker.limiters.keepAlive.Paces ⟨e.settings.keepAlive, start⟩ e.clock
    1 t.keepAlives [] due.keepAliveTurn
  guide : e.worker.limiters.guideCheck.Paces ⟨e.settings.guideCheck, start⟩ e.clock
    0 t.guides t.loads (due.guideTurn e.worker.guideUpdated)
  recordings : e.worker.limiters.recordings.Feeds ⟨e.settings.recordingsRefresh, start⟩ e.clock
    (t.listings.length + due.taken + e.store.loadRecordings.toNat) t.requests

/-- All that is known depends on is left alone, but for what the worker turns to next. -/
structure Engine.Alike (e e' : Engine) : Prop where
  settings : e'.settings = e.settings
  clock : e'.clock = e.clock
  updated : e'.worker.guideUpdated = e.worker.guideUpdated
  limiters : e'.worker.limiters = e.worker.limiters
  requested : e'.store.loadRecordings = e.store.loadRecordings

theorem Engine.Steady.alike {e e' : Engine} (steady : e.Steady e') : e.Alike e' where
  settings := steady.settings
  clock := steady.clock
  updated := by rw [steady.worker]
  limiters := by rw [steady.worker]
  requested := steady.requested

section Early

variable {asked started : Bool} {e : Engine} {t : Tally}

theorem Early.alike (early : Early asked started e t) {e' : Engine} (alike : e.Alike e')
    (opening : e'.worker.phase.isOpening = true) : Early asked started e' t where
  opening := opening
  updated := alike.updated.trans early.updated
  paced := alike.settings ▸ early.paced
  tally := alike.clock ▸ early.tally
  few := early.few
  past := alike.clock ▸ early.past

theorem Early.disturb (early : Early asked started e t) {e' : Engine} (disturbed : e.Disturbed e')
    (requests : Nat) : Early asked started e' { t with requests } where
  opening := disturbed.worker ▸ early.opening
  updated := disturbed.worker ▸ early.updated
  paced := disturbed.settings ▸ early.paced
  tally := by
    rw [early.tally, disturbed.clock]
  few := early.few
  past := disturbed.clock ▸ early.past

theorem Early.wait (early : Early asked false e t) (client : Client) {later : Int}
    (passed : e.clock ≤ later) : Early asked false { e with client, clock := later } t :=
  { early with past := fun time member => Int.le_trans (early.past time member) passed }

theorem Early.ask (early : Early false false e t) :
    Early true false e { t with playlists := t.playlists ++ [e.clock] } where
  opening := early.opening
  updated := early.updated
  paced := early.paced
  tally := by rw [early.tally]
  few := by
    have few := early.few
    simpa using few
  past time member := by
    rcases List.mem_append.mp member with before | last
    · exact early.past time before
    · exact Int.le_of_eq (List.mem_singleton.mp last)

theorem Early.leave (early : Early false false e t) : Early true false e t :=
  { early with few := Nat.le_trans early.few (Nat.zero_le 1) }

theorem Early.launched (early : Early asked false e t) :
    Early asked true e { t with starts := t.starts ++ [e.clock] } where
  opening := early.opening
  updated := early.updated
  paced := early.paced
  tally := by rw [early.tally]; rfl
  few := early.few
  past := early.past

/-- The limiters start with at most one load of the lineup behind them. -/
theorem Early.late (early : Early true true e t) :
    Late e.clock .nothing { e with worker := { e.worker with
      phase := .pass, wakeAt := none, limiters := .start e.settings e.clock } } t where
  opening := rfl
  starts := by rw [early.tally]; rfl
  lineup := Limiter.paces_start early.paced.fullRefresh early.few early.past
  keepAlive := by
    rw [early.tally]
    exact Limiter.paces_start early.paced.keepAlive (Nat.le_refl 1) nofun
  guide := by
    rw [early.tally]
    dsimp only
    rw [early.updated]
    exact Limiter.paces_start early.paced.guideCheck (Nat.le_refl 0) nofun
  recordings := by
    refine ⟨1, Limiter.onGrid_start early.paced.recordings true e.clock, ?_⟩
    rw [early.tally]
    have flag := Bool.toNat_le e.store.loadRecordings
    simp only [List.length_nil, Due.taken]
    omega

end Early

section Late

variable {start : Int} {due : Due} {e : Engine} {t : Tally}

theorem Late.alike (late : Late start due e t) {e' : Engine} (alike : e.Alike e')
    (opening : e'.worker.phase.isOpening = false) : Late start due e' t := by
  obtain ⟨settings, clock, updated, limiters, requested⟩ := alike
  constructor
  case opening => exact opening
  case starts => exact late.starts
  case lineup => exact limiters ▸ settings ▸ clock ▸ late.lineup
  case keepAlive => exact limiters ▸ settings ▸ clock ▸ late.keepAlive
  case guide => exact limiters ▸ settings ▸ clock ▸ updated ▸ late.guide
  case recordings => exact limiters ▸ settings ▸ clock ▸ requested ▸ late.recordings

/-- A request that others make waits, if none did before, and counts as theirs. -/
theorem Late.disturb (late : Late start due e t) {e' : Engine} (disturbed : e.Disturbed e') :
    Late start due e' { t with requests := t.requests +
      (!e.store.loadRecordings && e'.store.loadRecordings).toNat } := by
  obtain ⟨settings, clock, worker, -⟩ := disturbed
  constructor
  case opening => exact worker ▸ late.opening
  case starts => exact late.starts
  case lineup => exact worker ▸ settings ▸ clock ▸ late.lineup
  case keepAlive => exact worker ▸ settings ▸ clock ▸ late.keepAlive
  case guide => exact worker ▸ settings ▸ clock ▸ late.guide
  case recordings =>
    rw [worker, settings, clock]
    have waits : ∀ before after : Bool,
        after.toNat ≤ before.toNat + (!before && after).toNat := by decide
    have waits := waits e.store.loadRecordings e'.store.loadRecordings
    exact late.recordings.mono (by dsimp only; omega)

/-- Time may pass unless something is to be asked for in the slot of a poll. -/
theorem Late.wait (late : Late start due e t) (calm : due.isCalm = true) (client : Client)
    {later : Int} (passed : e.clock ≤ later) :
    Late start due { e with client, clock := later } t where
  opening := late.opening
  starts := late.starts
  lineup := late.lineup.wait (Due.turns_of_isCalm calm).1 passed
  keepAlive := late.keepAlive.wait (Due.turns_of_isCalm calm).2.1 passed
  guide := late.guide.wait ((Due.turns_of_isCalm calm).2.2 _) passed
  recordings := late.recordings.wait passed

/-! ### Polls -/

theorem Late.polled_fullRefresh (late : Late start .nothing e t) :
    let polled := e.worker.limiters.fullRefresh.poll e.clock
    Late start (if polled.1 then .lineup else .nothing)
      { e with worker := { e.worker with
        limiters := { e.worker.limiters with fullRefresh := polled.2 } } } t := by
  have paces := late.lineup.poll false
  dsimp only
  generalize e.worker.limiters.fullRefresh.poll e.clock = polled at paces ⊢
  obtain ⟨fires, limiter⟩ := polled
  cases fires with
  | false => exact { late with lineup := paces }
  | true => exact { late with lineup := paces }

theorem Late.polled_keepAlive (late : Late start .nothing e t) :
    let polled := e.worker.limiters.keepAlive.poll e.clock
    Late start (if polled.1 then .keepAlive else .nothing)
      { e with worker := { e.worker with
        limiters := { e.worker.limiters with keepAlive := polled.2 } } } t := by
  have paces := late.keepAlive.poll false
  dsimp only
  generalize e.worker.limiters.keepAlive.poll e.clock = polled at paces ⊢
  obtain ⟨fires, limiter⟩ := polled
  cases fires with
  | false => exact { late with keepAlive := paces }
  | true => exact { late with keepAlive := paces }

theorem Late.polled_recordings (late : Late start .nothing e t) :
    let polled := e.worker.limiters.recordings.poll e.clock
    Late start (if polled.1 then .recordings else .nothing)
      { e with worker := { e.worker with
        limiters := { e.worker.limiters with recordings := polled.2 } } } t := by
  have feeds := late.recordings.poll
  dsimp only
  generalize e.worker.limiters.recordings.poll e.clock = polled at feeds ⊢
  obtain ⟨fires, limiter⟩ := polled
  cases fires with
  | false => exact { late with recordings := feeds }
  | true =>
      refine { late with recordings := feeds.mono ?_ }
      simp only [if_true, Due.taken, Bool.toNat_true]
      omega

/-- The guide is looked at if its limiter fires, and after a part of it that came. -/
theorem Late.polled_guideCheck (late : Late start .nothing e t) :
    let polled := e.worker.limiters.guideCheck.poll e.clock
    Late start (if polled.1 || e.worker.guideUpdated then .guide else .looked false)
      { e with worker := { e.worker with
        limiters := { e.worker.limiters with guideCheck := polled.2 } } } t := by
  have paces := late.guide.poll e.worker.guideUpdated
  dsimp only
  generalize e.worker.limiters.guideCheck.poll e.clock = polled at paces ⊢
  obtain ⟨fires, limiter⟩ := polled
  cases looks : fires || e.worker.guideUpdated with
  | false =>
      dsimp only at paces
      rw [looks] at paces
      exact { late with guide := paces }
  | true =>
      dsimp only at paces
      rw [looks] at paces
      exact { late with guide := paces }

/-! ### What is due is done or left -/

/-- What is due is left, unless it is the guide, which has a turn of its own. -/
theorem Late.leave (late : Late start due e t)
    (apart : ∀ updated, due.guideTurn updated = .after updated) : Late start .nothing e t where
  opening := late.opening
  starts := late.starts
  lineup := late.lineup.leave
  keepAlive := late.keepAlive.leave
  guide := by
    have guide := late.guide
    rwa [apart] at guide
  recordings := late.recordings.mono (by simp only [Due.taken]; omega)

theorem Late.leave_guide (late : Late start .guide e t) : Late start (.looked false) e t :=
  { late with guide := late.guide.leave }

theorem Late.ask_lineup (late : Late start .lineup e t) :
    Late start .nothing e { t with playlists := t.playlists ++ [e.clock] } :=
  { late with lineup := late.lineup.ask false }

theorem Late.ask_keepAlive (late : Late start .keepAlive e t) :
    Late start .nothing e { t with keepAlives := t.keepAlives ++ [e.clock] } :=
  { late with keepAlive := late.keepAlive.ask false }

theorem Late.ask_guide (late : Late start .guide e t) (loaded : Bool) :
    Late start (.looked loaded) e { t with
      guides := t.guides ++ [e.clock]
      loads := t.loads ++ if loaded then [e.clock] else [] } :=
  { late with guide := late.guide.ask loaded }

theorem Late.ask_recordings (late : Late start .recordings e t) :
    Late start .nothing e { t with listings := t.listings ++ [e.clock] } := by
  refine { late with recordings := late.recordings.mono ?_ }
  simp only [List.length_append, List.length_singleton, Due.taken]
  omega

/-- The request that a limiter made is noted. -/
theorem Late.request (late : Late start .recordings e t) :
    Late start .nothing { e with store := e.store.requestRecordings } t := by
  refine { late with recordings := late.recordings.mono ?_ }
  simp only [Due.taken, Store.requestRecordings, Bool.toNat_true]
  omega

/-- A request that waits is taken. -/
theorem Late.take (late : Late start .nothing e t) :
    Late start (if e.store.loadRecordings then .recordings else .nothing)
      { e with store := e.store.takeRequest.2 } t := by
  have recordings := late.recordings
  cases requested : e.store.loadRecordings with
  | false =>
      rw [requested] at recordings
      exact { late with recordings }
  | true =>
      rw [requested] at recordings
      exact { late with recordings }

/-- Whether a part of the guide came is kept in mind for the next pass. -/
theorem Late.remember {updated : Bool} (late : Late start (.looked updated) e t) :
    Late start .nothing { e with worker := { e.worker with guideUpdated := updated } } t :=
  { late with }

end Late

end PvrBackend
