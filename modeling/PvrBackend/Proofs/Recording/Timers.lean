import PvrBackend.Proofs.Recording.Listings
import PvrBackend.Proofs.Recording.Retries

/-!
# How old published timers are

A refresh compares timers by the numbers of their records and by nothing else. If the sequence of
numbers is another one than before, the timers of the listing are published, and they are current:
each is marked as its record asks for at the moment. If it is the same the published timers stay,
however far the clock has moved since and whatever times the listing has for their records now. So
published timers are as old as the last refresh that found other numbers, and current for its
listing and its moment.
-/

namespace PvrBackend

/-- A timer has the times of a record of its number, and is marked if the record is on the air. -/
def Timer.Current (t : Timer) (root : Json) (now : Int) : Prop :=
  ∃ d ∈ Listing.dated root, d.id = t.clientIndex ∧ t.startTime = d.start ∧ t.endTime = d.stop ∧
    (t.state = .recording ↔ t.startTime ≤ now ∧ now < t.endTime)

/-- The timers of a listing are current when it is read. -/
theorem Listing.current_of_mem {channels : List Channel} {lockedLabel : String} {now : Int}
    {root : Json} {t : Timer} (mem : t ∈ (ofAnswer channels lockedLabel now root).timers) :
    t.Current root now := by
  rw [timers_ofAnswer] at mem
  obtain ⟨d, kept, rfl⟩ := List.mem_map.mp mem
  obtain ⟨listed, waiting⟩ := List.mem_filter.mp kept
  obtain ⟨-, positive, -⟩ := Dated.place_eq_timers_iff.mp (of_decide_eq_true waiting)
  exact ⟨d, listed, (Int.toNat_of_nonneg positive).symm, rfl, rfl, d.running_iff⟩

namespace Engine

/-! ### Timers change only in refreshes -/

theorem loadLineup_timers (e : Engine) : e.loadLineup.store.timers = e.store.timers := by
  unfold loadLineup
  split
  · split
    next => rfl
    next root client _ =>
      simp only [publishLineup]
      split <;> rfl
  · rfl

theorem loadChunk_timers (e : Engine) (chunk : Chunk) :
    (e.loadChunk chunk).2.store.timers = e.store.timers := by
  unfold loadChunk
  split
  · rfl
  · split <;> rfl

/-- Without a listing a refresh leaves the timers alone. -/
theorem recordingsJob_timers {e : Engine} (idle : ∀ root, ¬ e.Refreshes (.work .recordings) root) :
    e.recordingsJob.2.store.timers = e.store.timers := by
  rw [recordingsJob]
  split
  next running =>
    dsimp only
    split
    next due =>
      cases answer : e.client.recordings.1 with
      | error err =>
          have same : loadRecordings { e with store := e.store.takeRequest.2 } =
              { e with client := e.client.recordings.2, store := e.store.takeRequest.2 } :=
            loadRecordings_of_error answer
          rw [same]
          rfl
      | ok root => exact absurd ⟨rfl, running, due, answer⟩ (idle root)
    next => rfl
  next => rfl

end Engine

theorem Store.Kept.timers {s s' : Store} (kept : Kept s s') : s'.timers = s.timers := by
  obtain ⟨_, rfl⟩ := kept
  rfl

namespace Engine

theorem serve_timers (e : Engine) (call : HostCall) :
    (e.serve call).store.timers = e.store.timers := by
  cases call with
  | channels radio => rfl
  | guideOf uid start stop => rfl
  | setMaxDays future past => rfl
  | play what => exact (e.play_gated what).kept.timers
  | addTimer uid start =>
      have booking := e.addTimer_booking uid start
      rw [serve]
      generalize e.addTimer uid start = answer at booking ⊢
      cases booking <;> rfl
  | deleteRecording id => exact (e.deleteRecording_called id).2.timers
  | deleteTimer index => exact (e.deleteRecording_called _).2.timers
  | stop => rfl

/-- Only a refresh that gets a listing changes the timers. -/
theorem timers_of_act {e : Engine} {a : Action} (idle : ∀ root, ¬ e.Refreshes a root) :
    (e.act a).store.timers = e.store.timers := by
  cases a with
  | meanwhile => rfl
  | serve call => exact e.serve_timers call
  | work job =>
      cases job with
      | logIn delay next => exact congrArg Store.timers (e.loginStep_store delay next)
      | keepAlive => exact congrArg Store.timers e.keepAliveJob_store
      | loadLineup => exact e.loadLineup_timers
      | fullRefresh => exact loadLineup_timers _
      | requestRecordings => rfl
      | recordings => exact recordingsJob_timers idle
      | loadChunk chunk => exact e.loadChunk_timers chunk
      | releaseGuide => rfl

/-! ### Refreshes that find other numbers -/

/-- Whether a refresh finds other numbers than are published. -/
def Renumbers (e : Engine) (a : Action) (root : Json) : Prop :=
  e.Refreshes a root ∧
    Timer.numbers e.store.timers ≠ Timer.numbers (e.listing root).timers

theorem Refreshes.timers {e : Engine} {a : Action} {root : Json} (refreshes : e.Refreshes a root) :
    (e.act a).store.timers =
      if Timer.numbers e.store.timers = Timer.numbers (e.listing root).timers then e.store.timers
      else (e.listing root).timers := by
  obtain rfl := refreshes.1
  obtain ⟨_, _, -, -, takes⟩ := refreshes.takes
  have published : ((e.act (.work .recordings)).store.timers) = _ := takes.timers
  rw [published]
  split
  next changed =>
    rw [if_neg]
    intro same
    rw [timersChange_eq_false_iff.mpr same] at changed
    cases changed
  next unchanged => rw [if_pos (timersChange_eq_false_iff.mp (Bool.eq_false_iff.mpr unchanged))]

/-- Actions other than a refresh that finds other numbers leave the timers alone. -/
theorem timers_of_not_renumbers {e : Engine} {a : Action} (kept : ∀ root, ¬ e.Renumbers a root) :
    (e.act a).store.timers = e.store.timers := by
  by_cases refresh : ∃ root, e.Refreshes a root
  · obtain ⟨root, refreshes⟩ := refresh
    rw [refreshes.timers, if_pos]
    by_contra other
    exact kept root ⟨refreshes, other⟩
  · exact timers_of_act (not_exists.mp refresh)

/-- An engine in a course, with the engine and the listing of the last refresh that found other
numbers, if there was one. -/
inductive Dates : Engine → Option (Engine × Json) → Prop where
  | start (settings : Settings) (account : Account) (server : Server) (pairStore : PairStore)
      (host : Host) (clock : Int) :
      Dates (.create settings { account, server, pairStore } host clock) none
  | renumbered {e : Engine} {origin : Option (Engine × Json)} (dates : Dates e origin) {a : Action}
      {root : Json} (renumbers : e.Renumbers a root) : Dates (e.act a) (some (e, root))
  | kept {e : Engine} {origin : Option (Engine × Json)} (dates : Dates e origin) {a : Action}
      (kept : ∀ root, ¬ e.Renumbers a root) : Dates (e.act a) origin

theorem Reached.dates {e : Engine} (reached : e.Reached) : ∃ origin, e.Dates origin := by
  obtain ⟨history, run⟩ := reached
  suffices dates : ∀ s : Course, s.Run → ∃ origin, s.engine.Dates origin from dates _ run
  intro s run
  induction run with
  | start => exact ⟨none, .start ..⟩
  | @act s _ a ih =>
      obtain ⟨origin, dates⟩ := ih
      by_cases renumbered : ∃ root, s.engine.Renumbers a root
      · obtain ⟨root, renumbers⟩ := renumbered
        exact ⟨_, dates.renumbered renumbers⟩
      · exact ⟨origin, dates.kept (not_exists.mp renumbered)⟩

/-- Timers are those of the refresh that they date from, and before there was one there are none. -/
theorem Dates.current {e : Engine} {origin : Option (Engine × Json)} (dates : e.Dates origin) :
    ∀ t ∈ e.store.timers, ∃ e₀ root₀, origin = some (e₀, root₀) ∧ t.Current root₀ e₀.now := by
  induction dates with
  | start => nofun
  | @renumbered e _ _ a root renumbers =>
      rw [renumbers.1.timers, if_neg renumbers.2]
      exact fun t mem => ⟨e, root, rfl, Listing.current_of_mem mem⟩
  | kept _ kept ih => rwa [timers_of_not_renumbers kept]

/-- After a refresh with a listing the published timers are of the same records as those of the
listing. They are current for it if these are not the records that were published before. If they
are, the timers stay, and are current for the refresh that they date from. -/
theorem timers_current_of_renumbered {e : Engine} (reached : e.Reached) :
    (∃ origin, e.Dates origin) ∧ ∀ origin, e.Dates origin →
    ∀ root, e.Refreshes (.work .recordings) root →
      let published := (e.work .recordings).store.timers
      let listed := Timer.numbers (e.listing root).timers
      Timer.numbers published = listed ∧
      (Timer.numbers e.store.timers ≠ listed → ∀ t ∈ published, t.Current root e.now) ∧
      (Timer.numbers e.store.timers = listed → published = e.store.timers ∧
        ∀ t ∈ published, ∃ e₀ root₀, origin = some (e₀, root₀) ∧ t.Current root₀ e₀.now) := by
  refine ⟨reached.dates, fun origin dates root refreshes => ?_⟩
  have timers : (e.work .recordings).store.timers = _ := refreshes.timers
  dsimp only
  rw [timers]
  refine ⟨?_, fun other => ?_, fun same => ?_⟩
  · split
    next same => exact same
    next => rfl
  · rw [if_neg other]
    exact fun t mem => Listing.current_of_mem mem
  · rw [if_pos same]
    exact ⟨rfl, dates.current⟩

/-! ### A timer that outlives its mark -/

/-- A service that lists one record, of an hour from a minute past noon on. -/
def expectant : Server :=
  Client.welcoming.reroute "get-pvr" [.body ("\x7b\"status\":1,\"records\":[" ++
    "\x7b\"id\":7,\"startTime\":\"2024-01-15 12:01\",\"duration\":3600\x7d]\x7d")]

/-- An engine that published the timer at noon, at five past, when the next refresh is due. -/
def pastStart : Engine :=
  ((((create {} { account := default, server := expectant, pairStore := {} } {} 1705316400000).work
    (.logIn 0 .launch)).work .recordings).act
      (.meanwhile expectant {} {} 1705316700000 { limiters := default })).work .requestRecordings

theorem reached_pastStart : pastStart.Reached :=
  (((Reached.work ⟨_, .start _ _ _ _ _ _⟩ (.logIn 0 .launch)).work .recordings).act _).work
    .requestRecordings

/-- The refresh lists the same record, so the timer stays as it was published at noon. -/
theorem timers_stay_past_start : pastStart.Reached ∧ ∃ root,
    pastStart.Refreshes (.work .recordings) root ∧
    (pastStart.work .recordings).store.timers = pastStart.store.timers ∧
    Timer.numbers pastStart.store.timers = [7] ∧
    ∀ t ∈ (pastStart.work .recordings).store.timers,
      ∃ (e₀ : Engine) (root₀ : Json), t.Current root₀ e₀.now := by
  obtain ⟨running, due, answered, numbers, listed⟩ :
      pastStart.store.running = true ∧ pastStart.store.loadRecordings = true ∧
      pastStart.client.recordings.1.isOk = true ∧
      Timer.numbers pastStart.store.timers = [7] ∧
      Timer.numbers pastStart.nextListing.timers = [7] := by
    decide +kernel
  obtain ⟨root, refreshes, listing⟩ := refreshes_of_answered running due answered
  obtain ⟨⟨origin, dates⟩, follows⟩ := timers_current_of_renumbered reached_pastStart
  obtain ⟨-, -, same⟩ := follows origin dates root refreshes
  obtain ⟨stay, current⟩ := same (by rw [listing, numbers, listed])
  refine ⟨reached_pastStart, root, refreshes, stay, numbers, fun t mem => ?_⟩
  obtain ⟨e₀, root₀, -, current⟩ := current t mem
  exact ⟨e₀, root₀, current⟩

/-- It is not true that published timers are always current: at five past the record is on the air,
and the timer is not marked. -/
theorem not_always_current : ¬ ∀ e : Engine, e.Reached →
    ∀ root, e.Refreshes (.work .recordings) root →
    ∀ t ∈ (e.work .recordings).store.timers, t.Current root e.now := by
  intro always
  obtain ⟨running, due, answered, published⟩ :
      pastStart.store.running = true ∧ pastStart.store.loadRecordings = true ∧
      pastStart.client.recordings.1.isOk = true ∧
      ∃ t ∈ (pastStart.work .recordings).store.timers, t.state = .scheduled ∧
        t.startTime ≤ pastStart.now ∧ pastStart.now < t.endTime := by
    decide +kernel
  obtain ⟨root, refreshes, -⟩ := refreshes_of_answered running due answered
  obtain ⟨t, mem, unmarked, begun, unfinished⟩ := published
  obtain ⟨_, -, -, -, -, marked⟩ := always pastStart reached_pastStart root refreshes t mem
  rw [marked.mpr ⟨begun, unfinished⟩] at unmarked
  cases unmarked

end Engine

end PvrBackend
