import PvrBackend.Engine.Jobs
import PvrBackend.Engine.Requests
import PvrBackend.Proofs.Guide.Mirror

/-!
# Runs that a host follows

Between two reports of the guide the window moves, the lineup is loaded again, and
the host has events recorded, which notes a record for a broadcast without a report.
`Following.Step` lets all of this happen between the parts of the job of the guide.

The main statement is that a host can follow: every change that it is told of fits
what it has, and after every step it has what is published, but for the records that
were noted.
-/

namespace PvrBackend

/-- Every broadcast of an answer carries the number of the channel it is listed for. -/
theorem Guide.channel_of_mem_ofAnswer {channels : List Channel} {root : Json}
    {part : String × List GuideEntry} (mem : part ∈ Guide.ofAnswer channels root) :
    ∃ c ∈ channels, c.id = part.1 ∧ ∀ e ∈ part.2, e.channelUid = c.uniqueId := by
  obtain ⟨⟨id, events⟩, -, listed⟩ := List.mem_filterMap.mp mem
  obtain ⟨c, found, rfl⟩ := Option.map_eq_some_iff.mp listed
  refine ⟨c, List.mem_of_find?_eq_some found, ?_, ?_⟩
  · simpa using List.find?_some found
  · intro e mem'
    obtain ⟨event, -, read⟩ := List.mem_filterMap.mp mem'
    obtain ⟨start, -, built⟩ := Option.bind_eq_some_iff.mp read
    rw [← Option.some.inj built]

/-- The reported change of the guide, if that is what the host was told. -/
def Callback.change? : Callback → Option GuideChange
  | .guide change => some change
  | _ => none

namespace Engine

/-- What the host was told of the guide, oldest first. -/
def changes (e : Engine) : List GuideChange := e.callbacks.filterMap Callback.change?

theorem changes_tell_of_none (e : Engine) {c : Callback} (other : c.change? = none) :
    (e.tell c).changes = e.changes := by
  simp [changes, tell, other]

@[simp] theorem changes_tellChanges (e : Engine) (cs : List GuideChange) :
    (e.tellChanges cs).changes = e.changes ++ cs := by
  have told : (cs.map Callback.guide).filterMap Callback.change? = cs :=
    List.filterMap_map.trans List.filterMap_some
  rw [changes, tellChanges, List.filterMap_append, told]
  rfl

theorem mergeGuide_changes (e : Engine) (root : Json) : (e.mergeGuide root).changes =
    e.changes ++ (e.store.guide.mergeAll (Guide.ofAnswer e.store.lineup.channels root)).1 :=
  changes_tellChanges _ _

theorem releaseGuide_changes (e : Engine) :
    e.releaseGuide.changes = e.changes ++ (e.store.guide.release e.store.window).1 :=
  changes_tellChanges _ _

theorem publishLineup_guide (e : Engine) (root : Json) :
    (e.publishLineup root).store.guide = e.store.guide := by
  simp only [publishLineup]
  split <;> rfl

theorem publishLineup_changes (e : Engine) (root : Json) :
    (e.publishLineup root).changes = e.changes := by
  simp only [publishLineup]
  split
  · rw [changes_tell_of_none _ rfl, changes_tell_of_none _ rfl]
    exact changes_tell_of_none e rfl
  · exact changes_tell_of_none e rfl

/-- Loading the lineup leaves the guide alone and reports nothing of it. -/
theorem loadLineup_guide (e : Engine) :
    e.loadLineup.store.guide = e.store.guide ∧ e.loadLineup.changes = e.changes := by
  rw [loadLineup]
  split
  · split
    · exact ⟨rfl, rfl⟩
    · exact ⟨publishLineup_guide _ _, publishLineup_changes _ _⟩
  · exact ⟨rfl, rfl⟩

end Engine

/-- An engine with the lineups published so far and the keys of the broadcasts for
which the host noted a record. -/
structure Following where
  engine : Engine
  lineups : List Lineup
  noted : List (Nat × Int) := []

namespace Following

/-- The key that a successful request to record an event adds to those noted. -/
def noteOf (e : Engine) (uid : Nat) (start : Int) : List (Nat × Int) :=
  match (e.addTimer uid start).1 with
  | .ok () => [(uid, start)]
  | .error _ => []

/-- What the worker and the host do, one thing at a time. The parts of a job of the
guide are steps of their own, since the window may move between them. -/
inductive Step : Following → Following → Prop where
  /-- Anything that touches neither guide nor lineup and reports nothing of the guide:
  the window moves, the clock goes on, the service changes its mind, the host calls. -/
  | meanwhile {s : Following} (e : Engine) (guide : e.store.guide = s.engine.store.guide)
      (lineup : e.store.lineup = s.engine.store.lineup) (quiet : e.changes = s.engine.changes) :
      Step s { s with engine := e }
  | loadLineup {e : Engine} {ls : List Lineup} {noted : List (Nat × Int)} :
      Step ⟨e, ls, noted⟩ ⟨e.loadLineup, ls ++ [e.loadLineup.store.lineup], noted⟩
  | loadChunk {e : Engine} {ls : List Lineup} {noted : List (Nat × Int)} (chunk : Chunk) :
      Step ⟨e, ls, noted⟩ ⟨(e.loadChunk chunk).2, ls, noted⟩
  | release {e : Engine} {ls : List Lineup} {noted : List (Nat × Int)} :
      Step ⟨e, ls, noted⟩ ⟨e.releaseGuide, ls, noted⟩
  | addTimer {e : Engine} {ls : List Lineup} {noted : List (Nat × Int)} (uid : Nat) (start : Int) :
      Step ⟨e, ls, noted⟩ ⟨(e.addTimer uid start).2, ls, noteOf e uid start ++ noted⟩

/-- States that are reached from an engine without a guide, of which nothing was
reported. -/
inductive Run : Following → Prop where
  | start (e : Engine) (empty : e.store.guide.channels = .empty) (quiet : e.changes = []) :
      Run ⟨e, [e.store.lineup], []⟩
  | step {s s' : Following} (run : Run s) (step : Step s s') : Run s'

/-- The job of the guide is such a run: the one in which nobody comes in between. -/
theorem Run.guideJob {e : Engine} {ls : List Lineup} {noted : List (Nat × Int)}
    (run : Run ⟨e, ls, noted⟩) : Run ⟨e.guideJob.2, ls, noted⟩ := by
  have settle : ∀ {e' : Engine}, Run ⟨e', ls, noted⟩ →
      Run ⟨if e'.store.running then e'.releaseGuide else e', ls, noted⟩ := by
    intro e' run'
    split
    · exact run'.step .release
    · exact run'
  rw [Engine.guideJob]
  split
  · cases e.nextChunk? with
    | none => exact settle run
    | some chunk => exact settle (run.step (.loadChunk chunk))
  · exact run

/-- The host moves the window. -/
theorem Run.moveWindow {e : Engine} {ls : List Lineup} {noted : List (Nat × Int)}
    (run : Run ⟨e, ls, noted⟩) (w : Window) :
    Run ⟨{ e with store := { e.store with window := w } }, ls, noted⟩ :=
  run.step (.meanwhile _ rfl rfl rfl)

/-- So is a full refresh, which moves the window before it loads the lineup. -/
theorem Run.fullRefresh {e : Engine} {ls : List Lineup} {noted : List (Nat × Int)}
    (run : Run ⟨e, ls, noted⟩) :
    Run ⟨e.fullRefresh, ls ++ [e.fullRefresh.store.lineup], noted⟩ := by
  let reset : Engine :=
    { e with
      store := e.store.setMaxDays e.store.futureDays e.store.pastDays e.now
      worker := { e.worker with coverage := e.worker.coverage.reset } }
  have moved : Run ⟨reset, ls, noted⟩ := run.step (.meanwhile reset rfl rfl rfl)
  exact moved.step .loadLineup

/-! ### The invariant -/

/-- Every change that was reported fitted, and the host that followed them is up to date. -/
structure Sound (s : Following) : Prop where
  current : s.engine.store.lineup ∈ s.lineups
  expected : Mirror.ExpectsAll (fun _ => none) s.engine.changes
  follows : Follows s.lineups s.noted (Mirror.replay s.engine.changes) s.engine.store.guide.view

theorem Step.lineups_subset {s s' : Following} (step : Step s s') : s.lineups ⊆ s'.lineups := by
  cases step with
  | loadLineup => exact List.subset_append_left _ _
  | _ => exact List.Subset.refl _

/-- Edits of the guide whose changes fit are followed once they are reported. -/
theorem Sound.edit {s : Following} (sound : s.Sound) {e : Engine} {cs : List GuideChange}
    (lineup : e.store.lineup = s.engine.store.lineup) (changes : e.changes = s.engine.changes ++ cs)
    (expected : (Mirror.replay s.engine.changes).ExpectsAll cs)
    (follows : Follows s.lineups s.noted ((Mirror.replay s.engine.changes).follow cs)
      e.store.guide.view) : Sound { s with engine := e } := by
  refine ⟨?_, ?_, ?_⟩
  · exact lineup ▸ sound.current
  · rw [changes]
    exact Mirror.expectsAll_append.mpr ⟨sound.expected, expected⟩
  · rw [changes, Mirror.replay, Mirror.follow_append]
    exact follows

theorem Sound.loadChunk {e : Engine} {ls : List Lineup} {noted : List (Nat × Int)}
    (sound : Sound ⟨e, ls, noted⟩) (consistent : Lineup.Consistent ls) (chunk : Chunk) :
    Sound ⟨(e.loadChunk chunk).2, ls, noted⟩ := by
  rw [Engine.loadChunk]
  split
  next => exact sound
  next =>
    split
    next => exact ⟨sound.current, sound.expected, sound.follows⟩
    next root client _ =>
      let e' : Engine := { e with client }.extendCoverage chunk
      have named : ∀ part ∈ Guide.ofAnswer e'.store.lineup.channels root, ∀ entry ∈ part.2,
          Lineup.Names ls part.1 entry.channelUid := by
        intro part mem entry mem'
        obtain ⟨c, there, id, uid⟩ := Guide.channel_of_mem_ofAnswer mem
        exact ⟨_, sound.current, c, there, id, (uid entry mem').symm⟩
      obtain ⟨expected, follows⟩ := sound.follows.mergeAll consistent named
      exact sound.edit (e := e'.mergeGuide root) rfl (e'.mergeGuide_changes root) expected follows

theorem Sound.release {e : Engine} {ls : List Lineup} {noted : List (Nat × Int)}
    (sound : Sound ⟨e, ls, noted⟩) (consistent : Lineup.Consistent ls) :
    Sound ⟨e.releaseGuide, ls, noted⟩ := by
  obtain ⟨expected, follows⟩ := sound.follows.releaseGuide consistent e.store.window
  exact sound.edit rfl e.releaseGuide_changes expected follows

theorem Sound.addTimer {e : Engine} {ls : List Lineup} {noted : List (Nat × Int)}
    (sound : Sound ⟨e, ls, noted⟩) (consistent : Lineup.Consistent ls) (uid : Nat) (start : Int) :
    Sound ⟨(e.addTimer uid start).2, ls, noteOf e uid start ++ noted⟩ := by
  rw [noteOf, Engine.addTimer]
  cases found : e.findChannel uid with
  | error => exact sound
  | ok c =>
      have named : Lineup.Names ls c.id uid := by
        rw [Engine.findChannel] at found
        split at found
        next c' there =>
          obtain rfl := Except.ok.inj found
          refine ⟨_, sound.current, c', List.mem_of_find?_eq_some there, rfl, ?_⟩
          simpa using List.find?_some there
        next => cases found
      dsimp only
      cases e.store.guide.entry? c.id start with
      | none => exact sound
      | some entry =>
          dsimp only
          cases e.client.recordEvent entry.eventId with
          | mk answer client =>
          cases answer with
          | error => exact ⟨sound.current, sound.expected, sound.follows⟩
          | ok recordId =>
              have follows := sound.follows.note consistent named start recordId
              refine ⟨sound.current, sound.expected, ?_⟩
              have same : (e.store.guide.setRecord c.id start recordId).view = _ :=
                funext fun id' => funext fun start' =>
                  e.store.guide.view_setRecord c.id start recordId id' start'
              exact same ▸ follows

theorem Sound.step {s s' : Following} (sound : s.Sound) (consistent : Lineup.Consistent s'.lineups)
    (step : Step s s') : s'.Sound := by
  cases step with
  | meanwhile e guide lineup quiet =>
      refine ⟨lineup ▸ sound.current, quiet ▸ sound.expected, ?_⟩
      rw [quiet, guide]
      exact sound.follows
  | @loadLineup e ls noted =>
      obtain ⟨guide, quiet⟩ := e.loadLineup_guide
      refine ⟨List.mem_append_right _ (List.mem_singleton_self _), quiet ▸ sound.expected, ?_⟩
      rw [quiet, guide]
      exact sound.follows.grow (List.subset_append_left _ _) consistent
  | loadChunk chunk => exact sound.loadChunk consistent chunk
  | release => exact sound.release consistent
  | addTimer uid start => exact sound.addTimer consistent uid start

theorem Run.sound {s : Following} (run : s.Run) (consistent : Lineup.Consistent s.lineups) :
    s.Sound := by
  induction run with
  | start e empty quiet =>
      have nothing : e.store.guide.view = fun _ _ => none := by
        funext id start
        rw [Guide.view, Guide.entry?, Guide.channel?, empty]
        rfl
      refine ⟨List.mem_singleton_self _, ?_, ?_⟩
      · rw [quiet]
        trivial
      · rw [quiet, nothing]
        refine ⟨fun id start e there => ?_, fun _ _ _ _ => .none, fun _ there => absurd rfl there⟩
        cases there
  | step _ step ih => exact (ih (consistent.anti step.lineups_subset)).step consistent step

/-- A host can follow: as long as the lineups published in the run agree on the numbers
of channels, every change that it is told of fits what it has just then, and what it has
after every step is what is published, broadcast by broadcast, but for noted records. -/
theorem host_follows_guide {s : Following} (run : s.Run)
    (consistent : Lineup.Consistent s.lineups) :
    (∀ before change after, s.engine.changes = before ++ change :: after →
      (Mirror.replay before).Expects change) ∧
    (Mirror.replay s.engine.changes).Shows s.noted s.engine.store.guide := by
  have sound := run.sound consistent
  refine ⟨?_, sound.follows.shows consistent⟩
  intro before change after split
  have expected := sound.expected
  rw [split] at expected
  exact expected.expects

/-- An engine with a session, whose service has one channel with one broadcast and
records it when asked. -/
def tuned : Engine where
  settings := {}
  client := {
    account := default
    token := "token"
    server := ⟨((Table.empty.insert "playlist"
        [.body "\x7b\"status\":1,\"channels\":[\x7b\"id\":\"ct1\"\x7d]\x7d"]).insert "epg"
        [.body ("\x7b\"status\":1,\"channels\":\x7b\"ct1\":[" ++
          "\x7b\"startTime\":\"2024-01-15 12:00\"," ++
          "\"endTime\":\"2024-01-15 12:30\"\x7d]\x7d\x7d")]).insert "record-event"
        [.body "\x7b\"status\":1,\"recordId\":7\x7d"]⟩ }
  host := {}
  store := .start 1 1 1705316400
  worker := { limiters := default }
  clock := 1705316400000

/-- The broadcast comes, is recorded, comes again and leaves the window: the host is
told of its creation, its update and its deletion, and can follow. -/
theorem host_follows_broadcast : ∃ s : Following, s.Run ∧ Lineup.Consistent s.lineups ∧
    s.engine.changes.map (·.kind) = [.created, .updated, .deleted] ∧ s.noted = [(1, 1705316400)] ∧
    (∀ before change after, s.engine.changes = before ++ change :: after →
      (Mirror.replay before).Expects change) ∧
    (Mirror.replay s.engine.changes).Shows s.noted s.engine.store.guide := by
  have loaded := ((Run.start tuned rfl rfl).step .loadLineup).step (.loadChunk (.hour 1705316400))
  have updated := (loaded.step (.addTimer 1 1705316400)).step (.loadChunk (.hour 1705320000))
  have left := (updated.moveWindow ⟨0, 0⟩).step .release
  have single : ∀ l ∈ [tuned.store.lineup] ++ [tuned.loadLineup.store.lineup], ∀ c ∈ l.channels,
      c.id = "ct1" ∧ c.uniqueId = 1 := by decide +kernel
  have consistent :
      Lineup.Consistent ([tuned.store.lineup] ++ [tuned.loadLineup.store.lineup]) := by
    rintro _ _ _ _ ⟨l, mem, c, there, rfl, rfl⟩ ⟨l', mem', c', there', rfl, rfl⟩
    obtain ⟨id, uid⟩ := single l mem c there
    obtain ⟨id', uid'⟩ := single l' mem' c' there'
    simp [id, uid, id', uid']
  obtain ⟨fits, shows⟩ := host_follows_guide left consistent
  exact ⟨_, left, consistent, by decide +kernel, by decide +kernel, fits, shows⟩

end Following

end PvrBackend
