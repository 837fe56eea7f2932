import PvrBackend.Engine.Jobs
import PvrBackend.Proofs.Guide.Chunks

/-!
# Runs that fill the guide

While the worker fills the guide the host moves the window, and it may do so
between any two looks that the worker takes at it: at planning, at taking a chunk
in, and at releasing. `Filling.Step` therefore cuts the job of the guide at these
points and lets anything happen in between that touches neither the coverage nor
the lineup. The history of a run notes what was loaded, dropped and forgotten.

The main statement is that the coverage never claims too much. Whatever instant it
contains was in a chunk that came since the last restart, was read against the
channels that are published now, and was not excluded by any release since then.
-/

namespace PvrBackend

open Calendar

namespace Engine

/-! ### What the jobs do to coverage and lineup -/

@[simp] theorem publishLineup_worker (e : Engine) (root : Json) :
    (e.publishLineup root).worker = e.worker := by
  simp only [publishLineup]
  split <;> rfl

@[simp] theorem loadLineup_worker (e : Engine) : e.loadLineup.worker = e.worker := by
  rw [loadLineup]
  split
  · split
    · rfl
    · exact publishLineup_worker _ _
  · rfl

@[simp] theorem fullRefresh_coverage (e : Engine) :
    e.fullRefresh.worker.coverage = e.worker.coverage.reset := by
  rw [fullRefresh, loadLineup_worker]

@[simp] theorem releaseGuide_coverage (e : Engine) :
    e.releaseGuide.worker.coverage = e.worker.coverage.clip e.store.window := rfl

@[simp] theorem releaseGuide_lineup (e : Engine) :
    e.releaseGuide.store.lineup = e.store.lineup := rfl

@[simp] theorem loadChunk_lineup (e : Engine) (chunk : Chunk) :
    (e.loadChunk chunk).2.store.lineup = e.store.lineup := by
  rw [loadChunk]
  split
  · rfl
  · split <;> rfl

@[simp] theorem loadChunk_window (e : Engine) (chunk : Chunk) :
    (e.loadChunk chunk).2.store.window = e.store.window := by
  rw [loadChunk]
  split
  · rfl
  · split <;> rfl

/-- A chunk that came is taken in; in vain only the attempt is noted, if at all. -/
theorem loadChunk_coverage (e : Engine) (chunk : Chunk) :
    (e.loadChunk chunk).1 = true ∧
        (e.loadChunk chunk).2.worker.coverage = e.worker.coverage.extend chunk e.store.window ∨
      (e.loadChunk chunk).1 = false ∧
        ((e.loadChunk chunk).2.worker.coverage = e.worker.coverage ∨
          (e.loadChunk chunk).2.worker.coverage = e.worker.coverage.noteAttempt) := by
  rw [loadChunk]
  split
  · exact .inr ⟨rfl, .inl rfl⟩
  · split
    · exact .inr ⟨rfl, .inr rfl⟩
    · exact .inl ⟨rfl, rfl⟩

end Engine

/-- What the worker did to the guide. -/
inductive GuideDeed where
  /-- All that was loaded was forgotten. -/
  | restarted
  /-- A chunk came and was read against these channels. -/
  | loaded (chunk : Chunk) (channels : List Channel)
  /-- What this window excludes was dropped. -/
  | released (w : Window)

/-- Where the job of the guide is. -/
inductive GuideStage where
  | idle
  /-- A chunk was planned and is asked for next. -/
  | planned (chunk : Chunk)
  /-- Loading is over, and the release comes next. -/
  | settling

/-- An engine amid the filling of its guide. -/
structure Filling where
  engine : Engine
  stage : GuideStage
  /-- What the worker did so far, oldest first. -/
  history : List GuideDeed

namespace Filling

/-- What the engine covers. -/
def coverage (s : Filling) : Coverage := s.engine.worker.coverage

/-- The channels that are published. -/
def channels (s : Filling) : List Channel := s.engine.store.lineup.channels

/-- What follows the planning of a chunk, or of none. -/
def afterPlan : Option Chunk → GuideStage
  | some chunk => .planned chunk
  | none => .settling

/-- What a try to load a chunk adds to the history. -/
def loadDeeds (e : Engine) (chunk : Chunk) : List GuideDeed :=
  if (e.loadChunk chunk).1 then [.loaded chunk e.store.lineup.channels] else []

/-- A step of the worker at its guide, or of anyone else. Times are asked to be in
the years of the guide only where the worker reads them. -/
inductive Step : Filling → Filling → Prop where
  /-- Anything that touches neither coverage nor lineup: the window moves, the clock
  goes on, the service changes its mind, the host calls. -/
  | meanwhile {s : Filling} (e : Engine) (coverage : e.worker.coverage = s.coverage)
      (lineup : e.store.lineup = s.engine.store.lineup) : Step s { s with engine := e }
  | plan {e : Engine} {history : List GuideDeed} (running : e.store.running = true)
      (now : Modern e.now) (window : e.store.window.Modern) :
      Step ⟨e, .idle, history⟩ ⟨e, afterPlan e.nextChunk?, history⟩
  | load {e : Engine} {history : List GuideDeed} (chunk : Chunk) (window : e.store.window.Modern) :
      Step ⟨e, .planned chunk, history⟩
        ⟨(e.loadChunk chunk).2, .settling, history ++ loadDeeds e chunk⟩
  | release {e : Engine} {history : List GuideDeed} (running : e.store.running = true)
      (window : e.store.window.Modern) :
      Step ⟨e, .settling, history⟩ ⟨e.releaseGuide, .idle, history ++ [.released e.store.window]⟩
  /-- A worker that is to end drops nothing any more. -/
  | skipRelease {e : Engine} {history : List GuideDeed} (stopped : e.store.running = false) :
      Step ⟨e, .settling, history⟩ ⟨e, .idle, history⟩
  | refresh {e : Engine} {history : List GuideDeed} :
      Step ⟨e, .idle, history⟩ ⟨e.fullRefresh, .idle, history ++ [.restarted]⟩

/-- States that are reached from the first load of the lineup, whatever came of it. -/
inductive Run : Filling → Prop where
  | start (e : Engine) (fresh : e.worker.coverage = {}) : Run ⟨e.loadLineup, .idle, []⟩
  | step {s s' : Filling} (run : Run s) (step : Step s s') : Run s'

/-- Releasing, or leaving it when the worker is to end, finishes a job. -/
theorem Run.finish {e : Engine} {history : List GuideDeed} (run : Run ⟨e, .settling, history⟩)
    (window : e.store.window.Modern) :
    ∃ deeds, Run ⟨if e.store.running then e.releaseGuide else e, .idle, deeds⟩ := by
  split
  next running => exact ⟨_, run.step (.release running window)⟩
  next stopped => exact ⟨_, run.step (.skipRelease (Bool.eq_false_iff.mpr stopped))⟩

/-- The job of the guide is such a run: the one in which nobody comes in between. -/
theorem Run.guideJob {e : Engine} {history : List GuideDeed} (run : Run ⟨e, .idle, history⟩)
    (now : Modern e.now) (window : e.store.window.Modern) :
    ∃ deeds, Run ⟨e.guideJob.2, .idle, deeds⟩ := by
  rw [Engine.guideJob]
  split
  next running =>
    have planned := run.step (.plan running now window)
    cases next : e.nextChunk? with
    | none =>
        rw [next] at planned
        exact planned.finish window
    | some chunk =>
        rw [next] at planned
        have settling := planned.step (.load chunk window)
        exact settling.finish (by rwa [Engine.loadChunk_window])
  next => exact ⟨history, run⟩

/-- An instant is really there: a chunk with it came since the last restart, was read
against the channels of now, and no release since then excluded it. -/
def Held (s : Filling) (t : Int) : Prop :=
  ∃ before chunk after, s.history = before ++ .loaded chunk s.channels :: after ∧ t ∈ chunk ∧
    .restarted ∉ after ∧ ∀ w, .released w ∈ after → t ∈ w

/-! ### What is held stays held -/

theorem Held.congr {s s' : Filling} {t : Int} (held : s.Held t) (history : s'.history = s.history)
    (channels : s'.channels = s.channels) : s'.Held t := by
  obtain ⟨before, chunk, after, split, rest⟩ := held
  exact ⟨before, chunk, after, by rw [history, channels, split], rest⟩

/-- A deed other than a restart loses only what it excludes. -/
theorem Held.snoc {s s' : Filling} {t : Int} {deed : GuideDeed} (held : s.Held t)
    (history : s'.history = s.history ++ [deed]) (channels : s'.channels = s.channels)
    (going : deed ≠ .restarted) (kept : ∀ w, deed = .released w → t ∈ w) : s'.Held t := by
  obtain ⟨before, chunk, after, split, inside, unbroken, released⟩ := held
  refine ⟨before, chunk, after ++ [deed], ?_, inside, ?_, ?_⟩
  · rw [history, channels, split, List.append_assoc, List.cons_append]
  · intro member
    rcases List.mem_append.mp member with member | member
    · exact unbroken member
    · exact going (List.mem_singleton.mp member).symm
  · intro w member
    rcases List.mem_append.mp member with member | member
    · exact released w member
    · exact kept w (List.mem_singleton.mp member).symm

theorem Held.of_loaded {s : Filling} {t : Int} {chunk : Chunk} {before : List GuideDeed}
    (history : s.history = before ++ [.loaded chunk s.channels]) (inside : t ∈ chunk) : s.Held t :=
  ⟨before, chunk, [], history, inside, List.not_mem_nil, fun _ member => nomatch member⟩

/-! ### The invariant -/

/-- The coverage claims only what is held, its ends are times of the guide, and a
planned chunk can be taken in by it. -/
structure Sound (s : Filling) : Prop where
  held : ∀ t ∈ s.coverage, s.Held t
  modern : s.coverage.Modern
  joins : ∀ chunk, s.stage = .planned chunk → s.coverage.Joins chunk

theorem sound_start {e : Engine} (fresh : e.worker.coverage = {}) :
    Sound ⟨e.loadLineup, .idle, []⟩ := by
  have empty : e.loadLineup.worker.coverage = {} := by rw [Engine.loadLineup_worker, fresh]
  refine ⟨?_, ?_, fun _ stage => nomatch stage⟩
  · intro t member
    rw [coverage, empty, Coverage.mem_iff] at member
    dsimp only at member
    omega
  · rw [coverage, empty]
    exact Coverage.modern_default

theorem Sound.plan {e : Engine} {history : List GuideDeed} (sound : Sound ⟨e, .idle, history⟩)
    (now : Modern e.now) (window : e.store.window.Modern) :
    Sound ⟨e, afterPlan e.nextChunk?, history⟩ := by
  refine ⟨fun t member => (sound.held t member).congr rfl rfl, sound.modern, ?_⟩
  intro chunk stage
  cases planned : e.nextChunk? with
  | none => simp [planned, afterPlan] at stage
  | some next =>
      obtain rfl : next = chunk := by simpa [planned, afterPlan] using stage
      exact Coverage.joins_of_next? sound.modern window now planned

/-- A chunk that came makes up for what the coverage gains, and one that did not
changes nothing that the coverage claims. -/
theorem Sound.load {e : Engine} {chunk : Chunk} {history : List GuideDeed}
    (sound : Sound ⟨e, .planned chunk, history⟩) (window : e.store.window.Modern) :
    Sound ⟨(e.loadChunk chunk).2, .settling, history ++ loadDeeds e chunk⟩ := by
  have joins := sound.joins chunk rfl
  have same : (e.loadChunk chunk).2.store.lineup.channels = e.store.lineup.channels := by
    rw [Engine.loadChunk_lineup]
  obtain ⟨came, extended⟩ | ⟨failed, kept⟩ := e.loadChunk_coverage chunk
  · rw [loadDeeds, if_pos came]
    refine ⟨?_, ?_, fun _ stage => nomatch stage⟩
    · intro t member
      rw [coverage, extended] at member
      obtain ⟨old | new, -⟩ := Coverage.of_mem_extend joins member
      · exact (sound.held t old).snoc rfl same (by simp) (by simp)
      · exact .of_loaded (by rw [channels, same]) new
    · rw [coverage, extended]
      exact sound.modern.extend joins window
  · rw [loadDeeds, if_neg (by simp [failed]), List.append_nil]
    have ends : (e.loadChunk chunk).2.worker.coverage.start = e.worker.coverage.start ∧
        (e.loadChunk chunk).2.worker.coverage.stop = e.worker.coverage.stop := by
      rcases kept with kept | kept <;> rw [kept] <;> exact ⟨rfl, rfl⟩
    refine ⟨?_, ?_, fun _ stage => nomatch stage⟩
    · intro t member
      rw [coverage, Coverage.mem_iff, ends.1, ends.2] at member
      exact (sound.held t member).congr rfl same
    · exact ⟨by rw [coverage, ends.1]; exact sound.modern.start,
        by rw [coverage, ends.2]; exact sound.modern.stop⟩

/-- Releasing drops from the coverage at least what it drops from the guide. -/
theorem Sound.release {e : Engine} {history : List GuideDeed}
    (sound : Sound ⟨e, .settling, history⟩) (window : e.store.window.Modern) :
    Sound ⟨e.releaseGuide, .idle, history ++ [.released e.store.window]⟩ := by
  refine ⟨?_, ?_, fun _ stage => nomatch stage⟩
  · intro t member
    rw [coverage, Engine.releaseGuide_coverage] at member
    obtain ⟨old, inside⟩ := Coverage.of_mem_clip sound.modern member
    refine (sound.held t old).snoc rfl ?_ (by simp) ?_
    · rw [channels, Engine.releaseGuide_lineup, channels]
    · rintro w same
      obtain rfl := GuideDeed.released.inj same
      exact inside
  · rw [coverage, Engine.releaseGuide_coverage]
    exact sound.modern.clip window

/-- A full refresh forgets the coverage before it loads another lineup. -/
theorem sound_refresh (e : Engine) (history : List GuideDeed) :
    Sound ⟨e.fullRefresh, .idle, history ++ [.restarted]⟩ := by
  refine ⟨?_, ?_, fun _ stage => nomatch stage⟩
  · intro t member
    rw [coverage, Engine.fullRefresh_coverage, Coverage.mem_iff, Coverage.reset_start,
      Coverage.reset_stop] at member
    omega
  · rw [coverage, Engine.fullRefresh_coverage]
    exact Coverage.modern_reset _

theorem Sound.step {s s' : Filling} (sound : s.Sound) (step : Step s s') : s'.Sound := by
  cases step with
  | meanwhile e same lineup =>
      have unchanged : coverage { s with engine := e } = s.coverage := same
      refine ⟨?_, ?_, ?_⟩
      · intro t member
        rw [unchanged] at member
        exact (sound.held t member).congr rfl (congrArg Lineup.channels lineup)
      · rw [unchanged]
        exact sound.modern
      · rw [unchanged]
        exact sound.joins
  | plan _ now window => exact sound.plan now window
  | load chunk window => exact sound.load window
  | release _ window => exact sound.release window
  | skipRelease =>
      exact ⟨fun t member => (sound.held t member).congr rfl rfl, sound.modern,
        fun _ stage => nomatch stage⟩
  | refresh => exact sound_refresh _ _

theorem Run.sound {s : Filling} (run : s.Run) : s.Sound := by
  induction run with
  | start e fresh => exact sound_start fresh
  | step _ step sound => exact sound.step step

/-- The coverage never claims an instant that is not held: in every run, with whatever
answers and whatever window at each look at it, an instant in the span was loaded since
the last restart, against the channels of now, and no release since excluded it. -/
theorem held_of_mem_coverage {s : Filling} (run : s.Run) {t : Int}
    (start : s.engine.worker.coverage.start ≤ t) (stop : t < s.engine.worker.coverage.stop) :
    s.Held t :=
  run.sound.held t ⟨start, stop⟩

/-- An engine with a session that has just started; its service answers for the guide
only, with an empty one. -/
def startedAt (now : Int) : Engine where
  settings := {}
  client := {
    account := default
    token := "token"
    server := ⟨Table.empty.insert "epg" [.body "\x7b\"status\":1\x7d"]⟩ }
  host := {}
  store := .start 1 1 now
  worker := { limiters := default }
  clock := 1000 * now.toNat

/-- After the first chunk the hour from noon on is covered, and so it is held. -/
theorem held_after_first_chunk : ∃ s : Filling, s.Run ∧
    s.engine.worker.coverage.start ≤ 1705317000 ∧ 1705317000 < s.engine.worker.coverage.stop ∧
    s.Held 1705317000 := by
  have planned := (Run.start (startedAt 1705316400) rfl).step
    (.plan (by decide +kernel) (by decide +kernel) (by decide +kernel))
  have loaded := planned.step (.load (.hour 1705316400) (by decide +kernel))
  refine ⟨_, loaded, ?_, ?_, held_of_mem_coverage loaded ?_ ?_⟩ <;> decide +kernel

end Filling

end PvrBackend
