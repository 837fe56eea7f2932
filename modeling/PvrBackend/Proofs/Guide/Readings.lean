import PvrBackend.Proofs.Engine.Frames
import PvrBackend.Proofs.Guide.Overrides

/-!
# The numbers that broadcasts carry

A broadcast carries the number of its channel, as the lineup had it when the answer that
lists the broadcast was read. Lineups come and go, and with them the numbers; what was
read before keeps the old one until it is listed again. So the host can be given
broadcasts of a channel that carry another number than the one it asked for: the channel
is right, the number is that of an older lineup.
-/

namespace PvrBackend

/-- The number under which a reading takes a broadcast in, if it does. -/
def readingNumber? (id : String) (start : Int) (reading : List Channel × Json) : Option Nat :=
  (Guide.lastAt? (Guide.listedFor (Guide.ofAnswer reading.1 reading.2) id) start).bind fun _ =>
    (Channel.withId? reading.1 id).map (·.uniqueId)

theorem readingNumber?_eq (id : String) (start : Int) (channels : List Channel) (root : Json) :
    readingNumber? id start (channels, root) =
      (Guide.lastAt? (Guide.listedFor (Guide.ofAnswer channels root) id) start).map
        (·.channelUid) := by
  rw [readingNumber?]
  cases last : Guide.lastAt? (Guide.listedFor (Guide.ofAnswer channels root) id) start with
  | none => rfl
  | some e => exact Guide.number_of_mem_listedFor (Guide.mem_of_lastAt? last).1

namespace Course

/-- What was read of the guide in a course, oldest first. -/
def readings (s : Course) : List (List Channel × Json) := s.history.filterMap Deed.reading?

theorem readings_act (s : Course) (a : Action) :
    (s.act a).readings = s.readings ++ s.engine.readings a := by
  rw [readings, act_history, List.filterMap_append]
  rfl

/-- The number that a channel had when a broadcast of it was read last. -/
def number? (s : Course) (id : String) (start : Int) : Option Nat :=
  (s.readings.filterMap (readingNumber? id start)).getLast?

/-- Broadcasts stand under their starts, with the numbers that their channels had. -/
def Numbered (s : Course) : Prop :=
  ∀ id start e, s.engine.store.guide.view id start = some e →
    e.startTime = start ∧ s.number? id start = some e.channelUid

/-- What leaves no broadcast behind with another start or number keeps them right. -/
theorem Numbered.anti {s s' : Course} (numbered : s.Numbered)
    (same : ∀ id start, s'.number? id start = s.number? id start)
    (from_old : ∀ id start e, s'.engine.store.guide.view id start = some e →
      ∃ old, s.engine.store.guide.view id start = some old ∧ old.startTime = e.startTime ∧
        old.channelUid = e.channelUid) : s'.Numbered := by
  intro id start e there
  obtain ⟨old, published, sameStart, sameUid⟩ := from_old id start e there
  obtain ⟨stands, number⟩ := numbered id start old published
  rw [same, ← sameStart, ← sameUid]
  exact ⟨stands, number⟩

/-- Reading an answer renews the numbers of what it lists. -/
theorem Numbered.read {s s' : Course} (numbered : s.Numbered) {channels : List Channel}
    {root : Json} (reads : s'.readings = s.readings ++ [(channels, root)])
    (guide : s'.engine.store.guide =
      (s.engine.store.guide.mergeAll (Guide.ofAnswer channels root)).2) : s'.Numbered := by
  intro id start e there
  have number : s'.number? id start =
      ((Guide.lastAt? (Guide.listedFor (Guide.ofAnswer channels root) id) start).map
        (·.channelUid)).or (s.number? id start) := by
    rw [number?, reads, List.filterMap_append, List.getLast?_append, ← readingNumber?_eq]
    cases new : readingNumber? id start (channels, root) <;> simp [new, number?]
  rw [guide, Guide.view_mergeAll] at there
  rw [number]
  cases last : Guide.lastAt? (Guide.listedFor (Guide.ofAnswer channels root) id) start with
  | none =>
      rw [last, Option.none_or] at there
      exact numbered id start e there
  | some new =>
      rw [last, Option.some_or] at there
      obtain rfl := Option.some.inj there
      exact ⟨(Guide.mem_of_lastAt? last).2, rfl⟩

theorem Numbered.act {s : Course} (numbered : s.Numbered) (a : Action) : (s.act a).Numbered := by
  have same (unread : s.engine.readings a = []) (id : String) (start : Int) :
      (s.act a).number? id start = s.number? id start := by
    rw [number?, readings_act, unread, List.append_nil, number?]
  cases s.engine.act_edit a with
  | settled store unread =>
      refine numbered.anti (same unread) fun id start e there => ⟨e, ?_, rfl, rfl⟩
      rwa [act_engine, store.guide] at there
  | refreshed refreshes guide unread =>
      refine numbered.anti (same unread) fun id start e there => ⟨e, ?_, rfl, rfl⟩
      rwa [act_engine, guide] at there
  | @read root guide recordings reads =>
      refine numbered.read ?_ guide
      rw [readings_act, reads]
  | released w guide recordings unread =>
      refine numbered.anti (same unread) fun id start e there => ⟨e, ?_, rfl, rfl⟩
      rw [act_engine, guide, Guide.view_release] at there
      exact (Option.filter_eq_some_iff.mp there).1
  | noted id' start' recordId guide recordings unread =>
      refine numbered.anti (same unread) fun id start e there => ?_
      rw [act_engine, guide, Guide.view_setRecord] at there
      split at there
      next =>
        obtain ⟨old, published, rfl⟩ := Option.map_eq_some_iff.mp there
        exact ⟨old, published, rfl, rfl⟩
      next => exact ⟨e, there, rfl, rfl⟩

theorem numbered_of_run {s : Course} (run : s.Run) : s.Numbered := by
  induction run with
  | start =>
      intro id start e there
      cases there
  | act _ a ih => exact ih.act a

end Course

/-- What is handed out for a channel is published for it. -/
theorem Engine.mem_guideOf {e : Engine} {uid : Nat} {start stop : Int} {entry : GuideEntry}
    (mem : entry ∈ (e.guideOf uid start stop).1) :
    ∃ c, Channel.withUid? e.store.lineup.channels uid = some c ∧
      ∃ key, e.store.guide.view c.id key = some entry := by
  rw [guideOf] at mem
  cases found : Channel.withUid? e.store.lineup.channels uid with
  | none => simp [found] at mem
  | some c =>
      cases there : e.store.guide.channel? c.id with
      | none => simp [found, there] at mem
      | some guide =>
          have inside : entry ∈ guide.inRange start stop := by simpa [found, there] using mem
          obtain ⟨key, stands⟩ := Table.mem_values_iff.mp (List.mem_of_mem_filter inside)
          refine ⟨c, rfl, key, ?_⟩
          rw [Guide.view, Guide.entry?, there, Option.bind_some, stands]

namespace Course

/-- In every course the host is given broadcasts that are published for the channel that it
asks for, and each carries the number that this channel had when the broadcast was read
last. That is the number asked for exactly if the channel had it then. -/
theorem number_of_mem_guideOf {s : Course} (run : s.Run) {uid : Nat} {start stop : Int}
    {entry : GuideEntry} (mem : entry ∈ (s.engine.guideOf uid start stop).1) :
    ∃ c, Channel.withUid? s.engine.store.lineup.channels uid = some c ∧
      s.engine.store.guide.entry? c.id entry.startTime = some entry ∧
      s.number? c.id entry.startTime = some entry.channelUid ∧
      (entry.channelUid = uid ↔ s.number? c.id entry.startTime = some uid) := by
  obtain ⟨c, found, key, published⟩ := Engine.mem_guideOf mem
  obtain ⟨rfl, number⟩ := numbered_of_run run c.id key entry published
  refine ⟨c, found, published, number, ?_⟩
  rw [number, Option.some.injEq]

/-- A service that has one channel with one broadcast, and then another channel before it. -/
def regrouping : Server :=
  (Client.welcoming.reroute "playlist"
    [.body "\x7b\"status\":1,\"channels\":[\x7b\"id\":\"ct1\"\x7d]\x7d",
      .body ("\x7b\"status\":1,\"channels\":[" ++
        "\x7b\"id\":\"ct0\"\x7d,\x7b\"id\":\"ct1\"\x7d]\x7d")]).reroute
    "epg" [.body ("\x7b\"status\":1,\"channels\":\x7b\"ct1\":[" ++
      "\x7b\"startTime\":\"2024-01-15 12:00\",\"endTime\":\"2024-01-15 12:30\"\x7d]\x7d\x7d")]

/-- The lineup is loaded, an hour of the guide, and the lineup again. -/
def renumbered : Course :=
  let created : Course :=
    ⟨.create {} { account := default, server := regrouping, pairStore := {} } {} 1705316400000, []⟩
  (((created.act (.work (.logIn 0 .launch))).act (.work .loadLineup)).act
    (.work (.loadChunk (.hour 1705316400)))).act (.work .loadLineup)

theorem run_renumbered : renumbered.Run :=
  ((((Run.start _ _ _ _ _ _).act _).act _).act _).act _

/-- The host is given a broadcast of the second channel with the first number. -/
theorem carried_renumbered :
    1 ∈ (renumbered.engine.guideOf 2 1705316400 1705320000).1.map (·.channelUid) := by
  decide +kernel

/-- The broadcast of the channel that is second now was read when it was the first. -/
theorem number_of_second : renumbered.Run ∧
    ∃ entry ∈ (renumbered.engine.guideOf 2 1705316400 1705320000).1,
      ∃ c, Channel.withUid? renumbered.engine.store.lineup.channels 2 = some c ∧ c.id = "ct1" ∧
        renumbered.number? c.id entry.startTime = some 1 := by
  have second :
      (Channel.withUid? renumbered.engine.store.lineup.channels 2).map (·.id) = some "ct1" := by
    decide +kernel
  obtain ⟨entry, mem, uid⟩ := List.mem_map.mp carried_renumbered
  obtain ⟨c, found, -, number, -⟩ := number_of_mem_guideOf run_renumbered mem
  rw [found, Option.map_some] at second
  exact ⟨run_renumbered, entry, mem, c, found, Option.some.inj second, uid ▸ number⟩

/-- It is not true that what is handed out always carries the number asked for. -/
theorem not_always_numbered : ¬ ∀ s : Course, s.Run → ∀ (uid : Nat) (start stop : Int),
    ∀ entry ∈ (s.engine.guideOf uid start stop).1, entry.channelUid = uid := by
  intro always
  obtain ⟨entry, mem, uid⟩ := List.mem_map.mp carried_renumbered
  have asked : entry.channelUid = 2 := always renumbered run_renumbered 2 _ _ entry mem
  rw [asked] at uid
  cases uid

end Course

end PvrBackend
