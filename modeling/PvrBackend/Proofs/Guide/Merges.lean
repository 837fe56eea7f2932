import PvrBackend.Proofs.Guide.Overrides
import PvrBackend.Proofs.Json.Values

/-!
# What becomes of an answer

An answer lists events by the ids of channels, and may list channels that the lineup does not
have, events without a readable start, and several events under one start: in spring two texts
of the clock can stand for one time. Merging it leaves, under each id and start, the broadcast
of the last event that starts then. All that is not listed stays as it was, and no channel comes
in without a broadcast.

Each event that is read is reported once, channel after channel in the order of their ids. It
is reported as new if nothing stood in its place, neither before nor from the same answer.
-/

namespace PvrBackend

namespace Guide

/-! ### Events and broadcasts -/

/-- The events that an answer lists under the id of a channel. -/
def eventsFor (root : Json) (id : String) : List Json :=
  (((root.get? "channels").bind (·.get? id)).bind Json.items?).getD []

/-- Whether an event starts at a time. -/
def startsAt (start : Int) (event : Json) : Bool :=
  Calendar.readTime (event.textAt "startTime") = some start

/-- The last of some events that starts at a time. -/
def lastEvent? (events : List Json) (start : Int) : Option Json :=
  (events.filter (startsAt start)).getLast?

/-- An event is read if its start can be. -/
theorem startsAt_iff (channel : Channel) (start : Int) (event : Json) :
    startsAt start event = true ↔
      ∃ e, entryOf channel event = some e ∧ e.startTime = start := by
  rw [startsAt, decide_eq_true_iff, entryOf]
  cases Calendar.readTime (event.textAt "startTime") <;> simp

theorem lastEvent?_cons (event : Json) (events : List Json) (start : Int) :
    lastEvent? (event :: events) start =
      (lastEvent? events start).or (if startsAt start event then some event else none) := by
  rw [lastEvent?, ← List.singleton_append, List.filter_append, List.getLast?_append, lastEvent?]
  congr 1
  by_cases starts : startsAt start event = true <;> simp [starts]

/-- The last broadcast under a start is that of the last event that starts then. -/
theorem lastAt?_filterMap (channel : Channel) (events : List Json) (start : Int) :
    lastAt? (events.filterMap (entryOf channel)) start =
      (lastEvent? events start).bind (entryOf channel) := by
  induction events with
  | nil => rfl
  | cons event events ih =>
      have first : lastAt? (entryOf channel event).toList start =
          if startsAt start event then entryOf channel event else none := by
        have starts := startsAt_iff channel start event
        cases read : entryOf channel event with
        | none => simp [lastAt?]
        | some e =>
            rw [Option.toList_some, lastAt?_singleton]
            simp [starts, read]
      have split : (event :: events).filterMap (entryOf channel) =
          (entryOf channel event).toList ++ events.filterMap (entryOf channel) := by
        cases read : entryOf channel event <;> simp [read]
      rw [split, lastAt?_append, ih, first, lastEvent?_cons]
      cases last : lastEvent? events start with
      | none => by_cases starts : startsAt start event = true <;> simp [starts]
      | some event' =>
          have mem := List.mem_of_getLast? last
          obtain ⟨e, read, -⟩ := (startsAt_iff channel start event').mp (List.mem_filter.mp mem).2
          simp [read]

/-! ### What an answer lists for a channel -/

/-- What an answer lists for a channel are the events under its id that can be read, if the
lineup has the channel. -/
theorem listedFor_ofAnswer {depth : Nat} {root : Json} (readable : root.Readable depth)
    (channels : List Channel) (id : String) :
    listedFor (ofAnswer channels root) id =
      ((Channel.withId? channels id).map
        fun c => (eventsFor root id).filterMap (entryOf c)).getD [] := by
  have here : eventsFor root id =
      ((Table.look id (((root.get? "channels").bind Json.members?).getD [])).bind
        Json.items?).getD [] := by
    rw [eventsFor]
    cases root.get? "channels" with
    | none => rfl
    | some members => cases members <;> rfl
  rw [here, listedFor, ofAnswer]
  generalize ((root.get? "channels").bind Json.members?).getD [] = members,
    readable.ascending_at "channels" = ascending
  have picked : (members.filterMap fun m =>
        (Channel.withId? channels m.1).map fun c => (m.1, entriesOf c m.2)).filter
          (fun part => part.1 = id) =
      (members.filter (fun m => m.1 == id)).filterMap fun m =>
        (Channel.withId? channels m.1).map fun c => (m.1, entriesOf c m.2) := by
    rw [List.filter_filterMap, List.filterMap_filter]
    refine List.filterMap_congr fun m _ => ?_
    by_cases same : m.1 = id
    · cases Channel.withId? channels m.1 <;> simp [same]
    · cases Channel.withId? channels m.1 <;> simp [same]
  rw [picked, ascending.filter_key]
  cases Table.look id members with
  | none => cases Channel.withId? channels id <;> rfl
  | some events => cases found : Channel.withId? channels id <;> simp [found, entriesOf]

/-! ### Reports -/

/-- How a broadcast is reported that is written where something stands, or where nothing does. -/
def kindFor (known : Bool) : ChangeKind := if known then .updated else .created

/-- Reports of broadcasts that are written one after the other, where some are known already.
Each is known from then on. -/
def reports (known : String → Int → Bool) : List (String × GuideEntry) → List GuideChange
  | [] => []
  | p :: ps =>
    ⟨kindFor (known p.1 p.2.startTime), p.2⟩ ::
      reports (fun id start => known id start || (p.1 = id && p.2.startTime = start)) ps

/-- Whether one of some broadcasts stands under an id and a start. -/
def among (ps : List (String × GuideEntry)) (id : String) (start : Int) : Bool :=
  ps.any fun p => p.1 = id && p.2.startTime = start

theorem among_eq_false_iff {ps : List (String × GuideEntry)} {id : String} {start : Int} :
    among ps id start = false ↔ ∀ p ∈ ps, ¬ (p.1 = id ∧ p.2.startTime = start) := by
  simp [among, List.any_eq_false]

theorem reports_append (known : String → Int → Bool) (ps qs : List (String × GuideEntry)) :
    reports known (ps ++ qs) =
      reports known ps ++ reports (fun id start => known id start || among ps id start) qs := by
  induction ps generalizing known with
  | nil => simp [reports, among]
  | cons p ps ih => simp [reports, ih, among, Bool.or_assoc]

theorem length_reports (known : String → Int → Bool) (ps : List (String × GuideEntry)) :
    (reports known ps).length = ps.length := by
  induction ps generalizing known with
  | nil => rfl
  | cons p ps ih => rw [reports, List.length_cons, List.length_cons, ih]

/-- A broadcast is reported as new if nothing was known in its place, and none of those before
it stands there. -/
theorem getElem?_reports (known : String → Int → Bool) (before : List (String × GuideEntry))
    (p : String × GuideEntry) (after : List (String × GuideEntry)) :
    (reports known (before ++ p :: after))[before.length]? =
      some ⟨kindFor (known p.1 p.2.startTime || among before p.1 p.2.startTime), p.2⟩ := by
  have here : before.length = (reports known before).length := (length_reports known before).symm
  rw [reports_append, here, List.getElem?_append_right (Nat.le_refl _), Nat.sub_self, reports,
    List.getElem?_cons_zero]

theorem isSome_lastAt? (id : String) (es : List GuideEntry) (start : Int) :
    (lastAt? es start).isSome = among (es.map (id, ·)) id start := by
  induction es with
  | nil => rfl
  | cons e es ih =>
      rw [← List.singleton_append, lastAt?_append, Option.isSome_or, ih, lastAt?_singleton]
      by_cases here : e.startTime = start <;> simp [among, here]

end Guide

theorem ChannelGuide.write_fst (t : Table Int GuideEntry) (id : String) (es : List GuideEntry)
    {known : String → Int → Bool} (same : ∀ start, known id start = (t.get? start).isSome) :
    (write t es).1 = Guide.reports known (es.map (id, ·)) := by
  induction es generalizing t known with
  | nil => rfl
  | cons e es ih =>
      have written : ∀ start, (known id start || (id = id && e.startTime = start)) =
          ((t.insert e.startTime e).get? start).isSome := by
        intro start
        by_cases here : start = e.startTime
        · simp [here, t.get?_insert_self]
        · simp [t.get?_insert_of_ne here, same, Ne.symm here]
      rw [write, List.map_cons, Guide.reports, same, ← ih (t.insert e.startTime e) written]
      rfl

namespace Guide

/-- What was known before an answer is what stood in the guide. -/
def knows (g : Guide) (id : String) (start : Int) : Bool := (g.view id start).isSome

theorem merge_fst (g : Guide) (id : String) (es : List GuideEntry) :
    (g.merge id es).1 = reports g.knows (es.map (id, ·)) := by
  rw [merge]
  split
  next nothing => rw [nothing]; rfl
  next =>
    refine ChannelGuide.write_fst _ id es fun start => ?_
    rw [knows, view, entry?]
    cases g.channel? id <;> rfl

theorem knows_merge (g : Guide) (id : String) (es : List GuideEntry) :
    (g.merge id es).2.knows =
      fun id' start => g.knows id' start || among (es.map (id, ·)) id' start := by
  funext id' start
  rw [knows, view_merge, knows]
  by_cases here : id = id'
  · subst here
    rw [if_pos rfl, Option.isSome_or, isSome_lastAt? id, Bool.or_comm]
  · have away : among (es.map (id, ·)) id' start = false := by simp [among, here]
    rw [if_neg here, away, Bool.or_false]

/-- All broadcasts in turn, each with the id of its channel. -/
def flatten (parts : List (String × List GuideEntry)) : List (String × GuideEntry) :=
  parts.flatMap fun part => part.2.map (part.1, ·)

theorem flatten_cons (part : String × List GuideEntry)
    (parts : List (String × List GuideEntry)) :
    flatten (part :: parts) = part.2.map (part.1, ·) ++ flatten parts := List.flatMap_cons

theorem mergeAll_fst (g : Guide) (parts : List (String × List GuideEntry)) :
    (g.mergeAll parts).1 = reports g.knows (flatten parts) := by
  induction parts generalizing g with
  | nil => rfl
  | cons part parts ih =>
      have first : (g.mergeAll (part :: parts)).1 =
          (g.merge part.1 part.2).1 ++ ((g.merge part.1 part.2).2.mergeAll parts).1 := rfl
      rw [first, ih, merge_fst, knows_merge, flatten_cons, reports_append]

/-- The broadcasts of one channel among all are those that are listed for it. -/
theorem map_filter_flatten (parts : List (String × List GuideEntry)) (id : String) :
    ((flatten parts).filter fun p => p.1 = id).map (·.2) = listedFor parts id := by
  induction parts with
  | nil => rfl
  | cons part parts ih =>
      rw [flatten_cons, List.filter_append, List.map_append, ih, listedFor_cons]
      by_cases here : part.1 = id
      · rw [if_pos here, List.filter_eq_self.mpr (by simp [here]), List.map_map]
        exact congrArg (· ++ _) (List.map_id _)
      · rw [if_neg here, List.filter_eq_nil_iff.mpr (by simp [here])]
        rfl

/-- What an answer lists comes in the order of the ids. -/
theorem pairwise_flatten_ofAnswer {depth : Nat} {root : Json} (readable : root.Readable depth)
    (channels : List Channel) :
    (flatten (ofAnswer channels root)).Pairwise fun p q => (compare p.1 q.1).isLE = true := by
  rw [flatten, List.pairwise_flatMap]
  constructor
  · intro part _
    exact List.pairwise_map.mpr (List.pairwise_of_forall fun _ _ => by simp)
  · rw [ofAnswer, List.pairwise_filterMap]
    refine (readable.ascending_at "channels").imp fun {m m'} below part listed part' listed' => ?_
    obtain ⟨c, -, rfl⟩ := Option.map_eq_some_iff.mp listed
    obtain ⟨c', -, rfl⟩ := Option.map_eq_some_iff.mp listed'
    intro p mem p' mem'
    obtain ⟨e, -, rfl⟩ := List.mem_map.mp mem
    obtain ⟨e', -, rfl⟩ := List.mem_map.mp mem'
    exact Ordering.isLE_of_eq_lt below

/-! ### Channels -/

theorem channel?_merge_ne_none (g : Guide) (id : String) (es : List GuideEntry) (id' : String) :
    (g.merge id es).2.channel? id' ≠ none ↔ g.channel? id' ≠ none ∨ id = id' ∧ es ≠ [] := by
  rw [merge]
  split
  next nothing => simp [nothing]
  next some =>
    by_cases here : id' = id
    · subst here
      rw [channel?_put_self]
      simp [some]
    · rw [channel?_put_of_ne _ here]
      simp [Ne.symm here]

/-- A channel comes in only with a broadcast. -/
theorem channel?_mergeAll_ne_none (g : Guide) (parts : List (String × List GuideEntry))
    (id : String) :
    (g.mergeAll parts).2.channel? id ≠ none ↔ g.channel? id ≠ none ∨ listedFor parts id ≠ [] := by
  induction parts generalizing g with
  | nil => simp [mergeAll, listedFor]
  | cons part parts ih =>
      have first : (g.mergeAll (part :: parts)).2 =
          ((g.merge part.1 part.2).2.mergeAll parts).2 := rfl
      rw [first, ih, channel?_merge_ne_none, listedFor_cons]
      by_cases here : part.1 = id
      · simp [here, or_assoc, imp_iff_not_or]
      · simp [here]

/-! ### Answers -/

/-- An answer overrides the guide. Where it lists an event that can be read, for a channel of the
lineup, the last one under its start is published; elsewhere everything is as before, and channels
come in with a broadcast only. Each event that is read is reported once, in the order of the ids
and within a channel in that of the answer, as new if nothing stood in its place before it. -/
theorem answer_overrides {depth : Nat} {root : Json} (readable : root.Readable depth) (g : Guide)
    (channels : List Channel) :
    (∀ id start c event, Channel.withId? channels id = some c →
      lastEvent? (eventsFor root id) start = some event →
      ∃ e, entryOf c event = some e ∧
        entry? (g.mergeAll (ofAnswer channels root)).2 id start = some e) ∧
    (∀ id start, Channel.withId? channels id = none ∨
        lastEvent? (eventsFor root id) start = none →
      entry? (g.mergeAll (ofAnswer channels root)).2 id start = g.entry? id start) ∧
    (∀ id, (g.mergeAll (ofAnswer channels root)).2.channel? id ≠ none ↔
      g.channel? id ≠ none ∨ ∃ c, Channel.withId? channels id = some c ∧
        ∃ event ∈ eventsFor root id, entryOf c event ≠ none) ∧
    ∃ read : List (String × GuideEntry),
      (read.Pairwise fun p q => (compare p.1 q.1).isLE = true) ∧
      (∀ id, (read.filter fun p => p.1 = id).map (·.2) =
        ((Channel.withId? channels id).map
          fun c => (eventsFor root id).filterMap (entryOf c)).getD []) ∧
      (g.mergeAll (ofAnswer channels root)).1.length = read.length ∧
      ∀ before p after, read = before ++ p :: after →
        (g.mergeAll (ofAnswer channels root)).1[before.length]? =
          some ⟨if g.entry? p.1 p.2.startTime = none ∧
              ∀ q ∈ before, ¬ (q.1 = p.1 ∧ q.2.startTime = p.2.startTime)
            then .created else .updated, p.2⟩ := by
  have listed := listedFor_ofAnswer readable channels
  refine ⟨?published, ?kept, ?joined, flatten (ofAnswer channels root),
    pairwise_flatten_ofAnswer readable channels, ?each, ?once, ?kinds⟩
  case published =>
    intro id start c event found last
    obtain ⟨e, read, -⟩ := (startsAt_iff c start event).mp
      (List.mem_filter.mp (List.mem_of_getLast? last)).2
    have view := g.view_mergeAll (ofAnswer channels root) id start
    rw [listed, found, Option.map_some, Option.getD_some, lastAt?_filterMap, last,
      Option.bind_some, read, Option.some_or] at view
    exact ⟨e, read, view⟩
  case kept =>
    intro id start absent
    have view := g.view_mergeAll (ofAnswer channels root) id start
    have none : lastAt? (listedFor (ofAnswer channels root) id) start = none := by
      rw [listed]
      rcases absent with unlisted | absent
      · rw [unlisted]
        rfl
      · cases Channel.withId? channels id with
        | none => rfl
        | some c => rw [Option.map_some, Option.getD_some, lastAt?_filterMap, absent]; rfl
    rwa [none, Option.none_or] at view
  case joined =>
    intro id
    rw [channel?_mergeAll_ne_none, listed]
    cases Channel.withId? channels id with
    | none => simp
    | some c => simp [List.filterMap_eq_nil_iff]
  case each =>
    intro id
    rw [map_filter_flatten, listed]
  case once => rw [mergeAll_fst, length_reports]
  case kinds =>
    intro before p after split
    have new : (g.knows p.1 p.2.startTime || among before p.1 p.2.startTime) = false ↔
        g.entry? p.1 p.2.startTime = none ∧
          ∀ q ∈ before, ¬ (q.1 = p.1 ∧ q.2.startTime = p.2.startTime) := by
      rw [Bool.or_eq_false_iff, among_eq_false_iff, knows, view, Option.isSome_eq_false_iff,
        Option.isNone_iff_eq_none]
    rw [mergeAll_fst, split, getElem?_reports, kindFor]
    split_ifs with updated created created
    · rw [new.mpr created] at updated
      cases updated
    · rfl
    · rfl
    · exact absurd (new.mp (Bool.eq_false_iff.mpr updated)) created

/-- An event as an answer lists it when it says no more than title and start. -/
def plainEvent (title start : String) : Json :=
  .object [("startTime", .string start), ("title", .string title)]

theorem readable_plainEvent (title start : String) : (plainEvent title start).Readable 1 := by
  refine .object (by simp [Table.Ascending]; decide) ?_
  simp [Json.Readable.string]

/-- An answer for the night in which summer time begins. The two events of its first channel start
at one time, as the earlier one falls into the hour that is left out. -/
def springAnswer : Json :=
  .object [("channels", .object [
    ("ct1", .array [plainEvent "Early" "2024-03-31 02:30", plainEvent "Undated" "soon",
      plainEvent "Late" "2024-03-31 03:30"]),
    ("ct9", .array [plainEvent "Lost" "2024-03-31 02:30"])])]

theorem readable_springAnswer : springAnswer.Readable 4 := by
  refine .object (List.pairwise_singleton _ _) (List.forall_mem_singleton.mpr ?_)
  refine .object (by simp [Table.Ascending]; decide) (List.forall_mem_cons.mpr ⟨.array ?_, ?_⟩)
  · simp [readable_plainEvent]
  · exact List.forall_mem_singleton.mpr (.array (by simp [readable_plainEvent]))

/-- The later of the two is published and both are reported. The channel that the lineup does not
have stays out. -/
theorem overrides_in_spring :
    springAnswer.Readable 4 ∧
    (∃ e, e.title = "Late" ∧
      entry? (mergeAll {} (ofAnswer [{ id := "ct1" }] springAnswer)).2 "ct1" 1711848600 = some e) ∧
    (mergeAll {} (ofAnswer [{ id := "ct1" }] springAnswer)).2.channel? "ct9" = none ∧
    (mergeAll {} (ofAnswer [{ id := "ct1" }] springAnswer)).1.map (·.kind) =
      [.created, .updated] := by
  obtain ⟨published, -, joined, -⟩ :=
    answer_overrides readable_springAnswer {} [{ id := "ct1" }]
  have late : ((lastEvent? (eventsFor springAnswer "ct1") 1711848600).bind
      (entryOf { id := "ct1" })).map (·.title) = some "Late" := by decide +kernel
  obtain ⟨e, read, title⟩ := Option.map_eq_some_iff.mp late
  obtain ⟨event, last, read⟩ := Option.bind_eq_some_iff.mp read
  obtain ⟨e', read', there⟩ := published "ct1" 1711848600 { id := "ct1" } event (by decide) last
  obtain rfl := Option.some.inj (read.symm.trans read')
  refine ⟨readable_springAnswer, ⟨e, title, there⟩, ?_, by decide +kernel⟩
  have unlisted : ¬ _ := (joined "ct9").not.mpr (by simp [channel?, Channel.withId?])
  exact Classical.not_not.mp unlisted

end Guide

end PvrBackend
