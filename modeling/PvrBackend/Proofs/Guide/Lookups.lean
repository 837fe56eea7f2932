import PvrBackend.Proofs.Engine.Frames
import PvrBackend.Proofs.Engine.Refusals
import PvrBackend.Proofs.Guide.Entries

/-!
# Ways to a broadcast

The host is handed broadcasts for a span of time, and comes back for one of them: by its
number when it is to be played, by its start when it is to be recorded. Either way leads
from the number of the channel to the first channel that has it, from there by the remote
id to a channel of the guide, and then to what stands under a start. The number of a
broadcast is its start as far as 32 bits go, so both ways lead back to the broadcast that
was handed out if it starts between 1970 and 2106.

This rests on how the guide is kept: channels stand under their ids, and broadcasts stand
under their starts with the numbers that belong to them. Reading, merging, dropping and
noting records keep it so.
-/

namespace PvrBackend

/-- The number is what 32 bits take of the start, its remainder modulo 2³². -/
def GuideEntry.Stamped (e : GuideEntry) : Prop :=
  e.broadcastId = (e.startTime % 0x100000000).toNat

/-- A start that fits into 32 bits can be read off from the number. -/
theorem GuideEntry.Stamped.cast_broadcastId {e : GuideEntry} (stamped : e.Stamped)
    (early : 0 ≤ e.startTime) (late : e.startTime < 0x100000000) :
    (e.broadcastId : Int) = e.startTime := by
  have fits : e.startTime % 0x100000000 = e.startTime := Int.emod_eq_of_lt early late
  rw [stamped, fits, Int.toNat_of_nonneg early]

theorem ChannelGuide.release_id (c : ChannelGuide) (w : Window) (revision : Nat) :
    (c.release w revision).id = c.id := by
  rw [release]
  split <;> rfl

namespace Guide

/-- Every channel stands under its id, and every broadcast under its start with the number
that belongs to it. -/
structure Keyed (g : Guide) : Prop where
  channels : ∀ id c, g.channel? id = some c → c.id = id
  entries : ∀ id start e, g.entry? id start = some e → e.startTime = start ∧ e.Stamped

theorem keyed_empty : Keyed {} := ⟨nofun, nofun⟩

theorem Keyed.every {g : Guide} (keyed : g.Keyed) :
    g.Every fun start e => e.startTime = start ∧ e.Stamped :=
  keyed.entries

/-! ### Edits of the guide -/

/-- A channel that is put under its id joins channels that stand under theirs. -/
theorem Keyed.channels_put {g : Guide} (keyed : g.Keyed) {id : String} {c : ChannelGuide}
    (named : c.id = id) (id' : String) (c' : ChannelGuide)
    (there : (g.put id c).channel? id' = some c') : c'.id = id' := by
  by_cases here : id' = id
  · rw [here, channel?_put_self] at there
    rw [← Option.some.inj there, here]
    exact named
  · rw [g.channel?_put_of_ne here] at there
    exact keyed.channels id' c' there

theorem Keyed.merge {g : Guide} (keyed : g.Keyed) (id : String) {es : List GuideEntry}
    (stamped : ∀ e ∈ es, e.Stamped) : (g.merge id es).2.Keyed := by
  constructor
  case channels =>
    intro id' c' there
    rw [Guide.merge] at there
    split at there
    next => exact keyed.channels id' c' there
    next =>
      refine keyed.channels_put ?_ id' c' there
      show ((g.channel? id).getD { id }).id = id
      cases known : g.channel? id with
      | none => rfl
      | some c => exact keyed.channels id c known
  case entries => exact keyed.every.merge id fun e mem => ⟨rfl, stamped e mem⟩

theorem Keyed.mergeAll {g : Guide} (keyed : g.Keyed) {parts : List (String × List GuideEntry)}
    (stamped : ∀ part ∈ parts, ∀ e ∈ part.2, e.Stamped) : (g.mergeAll parts).2.Keyed := by
  induction parts generalizing g with
  | nil => exact keyed
  | cons part parts ih =>
      have first := keyed.merge part.1 (stamped part List.mem_cons_self)
      apply ih first
      intro part' mem
      exact stamped part' (List.mem_cons_of_mem _ mem)

theorem Keyed.release {g : Guide} (keyed : g.Keyed) (w : Window) : (g.release w).2.Keyed := by
  constructor
  case channels =>
    intro id c there
    rw [Guide.release, channel?, Table.get?_mapValues] at there
    obtain ⟨old, known, rfl⟩ := Option.map_eq_some_iff.mp there
    rw [ChannelGuide.release_id]
    exact keyed.channels id old known
  case entries => exact keyed.every.release w

theorem Keyed.setRecord {g : Guide} (keyed : g.Keyed) (id : String) (start : Int)
    (recordId : String) : (g.setRecord id start recordId).Keyed := by
  constructor
  case channels =>
    intro id' c' there
    rw [Guide.setRecord] at there
    split at there
    next => exact keyed.channels id' c' there
    next c known =>
      refine keyed.channels_put ?_ id' c' there
      exact keyed.channels id c known
  case entries =>
    -- The record is not what a broadcast is found by.
    exact keyed.every.setRecord fun e known => keyed.entries id start e known

/-- Broadcasts are read with the numbers that belong to them. -/
theorem stamped_of_mem_ofAnswer {channels : List Channel} {root : Json}
    {part : String × List GuideEntry} (listed : part ∈ ofAnswer channels root) {e : GuideEntry}
    (mem : e ∈ part.2) : e.Stamped := by
  obtain ⟨c, event, taken⟩ := exists_entryOf listed mem
  obtain ⟨start, -, built⟩ := Option.bind_eq_some_iff.mp taken
  rw [← Option.some.inj built]
  rfl

end Guide

/-- In every course the guide is kept in order. -/
theorem Course.keyed_of_run {s : Course} (run : s.Run) : s.engine.store.guide.Keyed := by
  induction run with
  | start => exact Guide.keyed_empty
  | @act s run a ih =>
      rw [act_engine]
      cases s.engine.act_edit a with
      | settled store => exact store.guide ▸ ih
      | refreshed refreshes guide => exact guide ▸ ih
      | read guide =>
          rw [guide]
          apply ih.mergeAll
          intro part listed e mem
          exact Guide.stamped_of_mem_ofAnswer listed mem
      | released w guide => exact guide ▸ ih.release w
      | noted id start recordId guide => exact guide ▸ ih.setRecord id start recordId

namespace ChannelGuide

variable {c : ChannelGuide}

/-- What overlaps a span of time stands under its start, -/
theorem mem_inRange_iff (starts : ∀ key e, c.entries.get? key = some e → e.startTime = key)
    (start stop : Int) (e : GuideEntry) : e ∈ c.inRange start stop ↔
      c.entries.get? e.startTime = some e ∧ start ≤ e.endTime ∧ e.startTime ≤ stop := by
  have stands : (∃ key, c.entries.get? key = some e) ↔ c.entries.get? e.startTime = some e := by
    constructor
    · rintro ⟨key, there⟩
      rwa [starts key e there]
    · exact fun there => ⟨_, there⟩
  rw [inRange, List.mem_filter, Table.mem_values_iff, stands]
  simp

/-- and comes in the order of the starts. -/
theorem pairwise_inRange (starts : ∀ key e, c.entries.get? key = some e → e.startTime = key)
    (start stop : Int) :
    (c.inRange start stop).Pairwise fun a b => a.startTime < b.startTime := by
  rw [inRange]
  refine List.Pairwise.filter _ ?_
  rw [Table.values, List.pairwise_map]
  refine c.entries.ascending.imp_of_mem ?_
  rintro ⟨key, e⟩ ⟨key', e'⟩ mem mem' below
  have first := starts key e (Table.mem_entries_iff.mp mem)
  have second := starts key' e' (Table.mem_entries_iff.mp mem')
  rw [first, second]
  exact Int.compare_eq_lt.mp below

end ChannelGuide

namespace Engine

/-! ### Broadcasts of a span of time -/

/-- What the host is handed for a span of time: all that the channel has there, in the order
of the starts. -/
structure HandsOut (e : Engine) (uid : Nat) (start stop : Int) (entries : List GuideEntry) :
    Prop where
  ascending : entries.Pairwise fun a b => a.startTime < b.startTime
  mem_iff : ∀ entry, entry ∈ entries ↔
    ∃ c, Channel.withUid? e.store.lineup.channels uid = some c ∧
      e.store.guide.entry? c.id entry.startTime = some entry ∧
      start ≤ entry.endTime ∧ entry.startTime ≤ stop

/-- Asking widens the window, and leaves what is published. -/
@[simp] theorem guideOf_lineup (e : Engine) (uid : Nat) (start stop : Int) :
    (e.guideOf uid start stop).2.store.lineup = e.store.lineup := rfl

@[simp] theorem guideOf_guide (e : Engine) (uid : Nat) (start stop : Int) :
    (e.guideOf uid start stop).2.store.guide = e.store.guide := rfl

theorem guideOf_fst {e : Engine} {uid : Nat} {c : Channel} {guide : ChannelGuide}
    (found : Channel.withUid? e.store.lineup.channels uid = some c)
    (there : e.store.guide.channel? c.id = some guide) (start stop : Int) :
    (e.guideOf uid start stop).1 = guide.inRange start stop := by
  simp [guideOf, found, there]

theorem guideOf_handsOut {e : Engine} (keyed : e.store.guide.Keyed) (uid : Nat)
    (start stop : Int) : e.HandsOut uid start stop (e.guideOf uid start stop).1 := by
  cases found : Channel.withUid? e.store.lineup.channels uid with
  | none =>
      constructor
      case ascending => simp [guideOf, found]
      case mem_iff => simp [guideOf, found]
  | some c =>
      cases there : e.store.guide.channel? c.id with
      | none =>
          constructor
          case ascending => simp [guideOf, found, there]
          case mem_iff => simp [guideOf, found, there, Guide.entry?]
      | some guide =>
          have stands : ∀ key, e.store.guide.entry? c.id key = guide.entries.get? key := by
            intro key
            rw [Guide.entry?, there, Option.bind_some]
          have starts : ∀ key entry, guide.entries.get? key = some entry →
              entry.startTime = key := by
            intro key entry listed
            exact (keyed.entries c.id key entry ((stands key).trans listed)).1
          rw [guideOf_fst found there]
          constructor
          case ascending => exact ChannelGuide.pairwise_inRange starts start stop
          case mem_iff =>
            intro entry
            rw [ChannelGuide.mem_inRange_iff starts, ← stands]
            simp [found]

/-! ### Coming back for a broadcast -/

/-- The number and the start of a broadcast lead the calls of the host back to it. -/
structure Resolves (e : Engine) (uid : Nat) (entry : GuideEntry) : Prop where
  playable : e.isPlayable uid entry.broadcastId =
    .ok (entry.availableTimeshift && entry.startTime < e.now)
  recordable : e.isRecordable uid entry.broadcastId =
    .ok (entry.availableTimeshift && (e.recordingOf? entry).isNone && entry.startTime < e.now)
  /-- No other event is asked for on the way to the stream. -/
  stream : ∃ xs, e.Tried (e.broadcastStream uid entry.broadcastId).2 xs ∧
    ∀ x ∈ xs, SeeksStream entry.eventId x
  /-- Within a session the event is asked for, unless it has a recording or no PIN comes. -/
  timeshift : e.client.loggedIn = true → e.recordingOf? entry = none →
    (e.broadcastStream uid entry.broadcastId).1 ≠ .error .pinRequired →
    ∃ xs reply, (e.broadcastStream uid entry.broadcastId).2.client.exchanges =
      e.client.exchanges ++ xs ++
        [⟨e.client.request .eventStream (streamParams entry.eventId) (some e.client.token), reply⟩]
  /-- Within a session the event is recorded. -/
  timer : e.client.loggedIn = true →
    ∃ reply, (e.addTimer uid entry.startTime).2.client.exchanges = e.client.exchanges ++
      [⟨e.client.request .recordEvent [("eventId", entry.eventId)] (some e.client.token), reply⟩]

theorem eventStream_asks {e : Engine} (session : e.client.loggedIn = true) (eventId : String) :
    ∃ reply, (e.eventStream eventId).2.client.exchanges = e.client.exchanges ++
      [⟨e.client.request .eventStream (streamParams eventId) (some e.client.token), reply⟩] := by
  obtain ⟨reply, -, called⟩ :=
    Client.callInSession_sends session .eventStream (streamParams eventId)
  rw [eventStream_snd]
  exact ⟨reply, called.exchanges⟩

theorem addTimer_asks {e : Engine} (session : e.client.loggedIn = true) {uid : Nat} {c : Channel}
    (found : e.findChannel uid = .ok c) {start : Int} {entry : GuideEntry}
    (listed : e.store.guide.entry? c.id start = some entry) :
    ∃ reply, (e.addTimer uid start).2.client.exchanges = e.client.exchanges ++
      [⟨e.client.request .recordEvent [("eventId", entry.eventId)] (some e.client.token),
        reply⟩] := by
  obtain ⟨reply, -, called⟩ :=
    Client.callInSession_sends session .recordEvent [("eventId", entry.eventId)]
  refine ⟨reply, ?_⟩
  rw [addTimer, found]
  dsimp only
  rw [listed]
  dsimp only
  rw [Client.recordEvent]
  generalize e.client.callInSession .recordEvent _ = attempt at called ⊢
  obtain ⟨_ | root, client⟩ := attempt
  · exact called.exchanges
  · exact called.exchanges

theorem broadcastStream_asks {e : Engine} (session : e.client.loggedIn = true) {uid id : Nat}
    {c : Channel} {entry : GuideEntry} (found : e.findBroadcast uid id = .ok (c, entry))
    (unrecorded : e.recordingOf? entry = none)
    (admitted : (e.broadcastStream uid id).1 ≠ .error .pinRequired) :
    ∃ xs reply, (e.broadcastStream uid id).2.client.exchanges = e.client.exchanges ++ xs ++
      [⟨e.client.request .eventStream (streamParams entry.eventId) (some e.client.token),
        reply⟩] := by
  obtain ⟨xs, ⟨server, callbacks, left⟩, -⟩ := e.unlock_tried c.isPinLocked
  rw [broadcastStream, found] at admitted ⊢
  dsimp only at admitted ⊢
  rw [guarded_eq] at admitted ⊢
  split at admitted
  next opened =>
    -- The gate changes neither the session nor what is recorded.
    have session' : (e.unlock c.isPinLocked).2.client.loggedIn = true := by rw [left]; exact session
    have unrecorded' : (e.unlock c.isPinLocked).2.recordingOf? entry = none := by
      rw [left]
      exact unrecorded
    obtain ⟨reply, sent⟩ := eventStream_asks session' entry.eventId
    rw [if_pos opened, unrecorded']
    refine ⟨xs, reply, sent.trans ?_⟩
    rw [left]
    rfl
  next => exact absurd rfl admitted

theorem resolves_of_listed {e : Engine} {uid : Nat} {c : Channel} {entry : GuideEntry}
    (found : e.findChannel uid = .ok c)
    (listed : e.store.guide.entry? c.id entry.startTime = some entry)
    (number : (entry.broadcastId : Int) = entry.startTime) : e.Resolves uid entry := by
  have there : e.findBroadcast uid entry.broadcastId = .ok (c, entry) := by
    rw [findBroadcast, found]
    simp only [bind, Except.bind, number, listed]
    rfl
  constructor
  case playable => rw [isPlayable, there]; rfl
  case recordable => rw [isRecordable, there]; rfl
  case stream => exact broadcastStream_tried there
  case timeshift =>
    intro session
    exact broadcastStream_asks session there
  case timer =>
    intro session
    exact addTimer_asks session found listed

end Engine

namespace Course

/-- In every course the guide is kept in order, and the host is handed what a channel has
in a span of time. As long as lineup and guide stay, it gets back to each broadcast that
starts within 32 bits, by its number as by its start. -/
theorem lookups_agree {s : Course} (run : s.Run) : s.engine.store.guide.Keyed ∧
    ∀ uid start stop,
      s.engine.HandsOut uid start stop (s.engine.guideOf uid start stop).1 ∧
      ∀ entry ∈ (s.engine.guideOf uid start stop).1,
        0 ≤ entry.startTime → entry.startTime < 0x100000000 →
        ∀ e : Engine, e.store.lineup = s.engine.store.lineup →
          e.store.guide = s.engine.store.guide → e.Resolves uid entry := by
  have keyed := keyed_of_run run
  refine ⟨keyed, ?_⟩
  intro uid start stop
  have handsOut := Engine.guideOf_handsOut keyed uid start stop
  refine ⟨handsOut, ?_⟩
  intro entry mem early late e sameLineup sameGuide
  obtain ⟨c, found, listed, -⟩ := (handsOut.mem_iff entry).mp mem
  have stamped := (keyed.entries c.id entry.startTime entry listed).2
  refine Engine.resolves_of_listed (c := c) ?_ ?_ (stamped.cast_broadcastId early late)
  · rw [Engine.findChannel, sameLineup, found]
  · rw [sameGuide, listed]

/-- The broadcast at noon is handed out, and found again once the span was asked for. -/
theorem lookups_noon : noon.Run ∧ noon.engine.store.guide.Keyed ∧
    ∃ entry ∈ (noon.engine.guideOf 1 1705316400 1705320000).1, entry.eventId = "ct1:noon" ∧
      (noon.engine.guideOf 1 1705316400 1705320000).2.Resolves 1 entry := by
  have handed : ("ct1:noon", 1705316400) ∈
      (noon.engine.guideOf 1 1705316400 1705320000).1.map (fun e => (e.eventId, e.startTime)) := by
    decide +kernel
  obtain ⟨entry, mem, same⟩ := List.mem_map.mp handed
  obtain ⟨event, start⟩ := Prod.mk.inj same
  obtain ⟨keyed, lookups⟩ := lookups_agree run_noon
  obtain ⟨-, resolves⟩ := lookups 1 1705316400 1705320000
  refine ⟨run_noon, keyed, entry, mem, event, ?_⟩
  apply resolves entry mem
  · rw [start]
    decide
  · rw [start]
    decide
  · exact Engine.guideOf_lineup ..
  · exact Engine.guideOf_guide ..

end Course

end PvrBackend
