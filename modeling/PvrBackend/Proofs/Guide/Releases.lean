import PvrBackend.Proofs.Guide.Lookups

/-!
# What leaves with the window

Dropping what a window excludes is a filter on the broadcasts of every channel, whatever they say
of themselves: some end before they start, and a window may have its ends the wrong way round. The
channels all stay, also those that are left without a broadcast.

So dropping twice is dropping once with what both windows have in common, and who asks for a span
inside the window does not notice. What is dropped is reported in the order in which it stood.
-/

namespace PvrBackend

namespace Window

/-- What two windows have in common. -/
def meet (w w' : Window) : Window := ⟨max w.lower w'.lower, min w.upper w'.upper⟩

theorem excludes_iff {w : Window} {e : GuideEntry} :
    w.excludes e = true ↔ e.endTime < w.lower ∨ w.upper < e.startTime := by
  rw [excludes, Bool.or_eq_true, decide_eq_true_iff, decide_eq_true_iff, or_comm]

theorem not_excludes_iff {w : Window} {e : GuideEntry} :
    (!w.excludes e) = true ↔ ¬ (e.endTime < w.lower ∨ w.upper < e.startTime) := by
  rw [Bool.not_eq_true', ← excludes_iff, Bool.not_eq_true]

/-- One of two windows excludes what their common part excludes. -/
theorem meet_excludes (w w' : Window) (e : GuideEntry) :
    (w.meet w').excludes e = (w.excludes e || w'.excludes e) := by
  rw [Bool.eq_iff_iff, Bool.or_eq_true, excludes_iff, excludes_iff, excludes_iff]
  simp only [meet]
  omega

end Window

namespace Table

variable {κ α : Type} [Ord κ]

theorem values_filter (t : Table κ α) (keep : α → Bool) :
    (t.filter fun _ a => keep a).values = t.values.filter keep := by
  rw [values, values, entries_filter, List.filter_map]
  rfl

theorem filter_filter (t : Table κ α) (keep keep' : κ → α → Bool) :
    (t.filter keep).filter keep' = t.filter fun k a => keep k a && keep' k a := by
  apply ext
  rw [entries_filter, entries_filter, entries_filter, List.filter_filter]
  simp only [Bool.and_comm]

theorem keys_mapValues {β : Type} (f : κ → α → β) (t : Table κ α) :
    (t.mapValues f).keys = t.keys := by
  rw [keys, keys, entries_mapValues, List.map_map]
  rfl

theorem mapValues_mapValues {β γ : Type} (f : κ → α → β) (f' : κ → β → γ) (t : Table κ α) :
    (t.mapValues f).mapValues f' = t.mapValues fun k a => f' k (f k a) := by
  apply ext
  rw [entries_mapValues, entries_mapValues, entries_mapValues, List.map_map]
  rfl

end Table

namespace ChannelGuide

/-- Whether or not there is anything to drop, the rest is what the window does not exclude. -/
theorem entries_release (c : ChannelGuide) (w : Window) (revision : Nat) :
    (c.release w revision).entries = c.entries.filter fun _ e => !w.excludes e := by
  rw [release]
  split
  next inside =>
    apply Table.ext
    refine (List.filter_eq_self.mpr fun p mem => ?_).symm
    have value : p.2 ∈ c.entries.values := List.mem_map_of_mem mem
    have kept := List.filter_eq_nil_iff.mp inside p.2 value
    simpa using kept
  next => rfl

/-- What overlaps a span inside the window is not dropped. -/
theorem inRange_release (c : ChannelGuide) {w : Window} {start stop : Int}
    (after : w.lower ≤ start) (before : stop ≤ w.upper) (revision : Nat) :
    (c.release w revision).inRange start stop = c.inRange start stop := by
  rw [inRange, inRange, entries_release, Table.values_filter, List.filter_filter]
  refine List.filter_congr fun e _ => ?_
  rw [Bool.eq_iff_iff]
  simp only [Bool.and_eq_true, decide_eq_true_eq, Window.not_excludes_iff]
  omega

end ChannelGuide

namespace Guide

/-- The broadcasts that a window excludes, with their places in the guide. -/
def dropped (g : Guide) (w : Window) : List (String × Int × GuideEntry) :=
  g.channels.entries.flatMap fun (id, c) =>
    (c.entries.entries.filter fun p => w.excludes p.2).map fun p => (id, p.1, p.2)

theorem mem_dropped_iff {g : Guide} {w : Window} {id : String} {start : Int} {e : GuideEntry} :
    (id, start, e) ∈ g.dropped w ↔
      g.entry? id start = some e ∧ (e.endTime < w.lower ∨ w.upper < e.startTime) := by
  rw [← Window.excludes_iff, entry?, channel?, Option.bind_eq_some_iff]
  simp only [dropped, List.mem_flatMap, List.mem_map, List.mem_filter, Prod.exists, Prod.mk.injEq]
  constructor
  · rintro ⟨_, c, there, _, _, ⟨found, out⟩, rfl, rfl, rfl⟩
    exact ⟨⟨c, Table.mem_entries_iff.mp there, Table.mem_entries_iff.mp found⟩, out⟩
  · rintro ⟨⟨c, there, found⟩, out⟩
    exact ⟨id, c, Table.mem_entries_iff.mpr there, start, e,
      ⟨Table.mem_entries_iff.mpr found, out⟩, rfl, rfl, rfl⟩

/-- What is dropped stands in the order of the ids, and under each id in that of the starts. -/
theorem pairwise_dropped (g : Guide) (w : Window) :
    (g.dropped w).Pairwise fun a b =>
      compare a.1 b.1 = .lt ∨ a.1 = b.1 ∧ a.2.1 < b.2.1 := by
  rw [dropped, List.pairwise_flatMap]
  constructor
  · rintro ⟨id, c⟩ -
    rw [List.pairwise_map]
    refine (c.entries.ascending.filter _).imp fun below => .inr ⟨rfl, ?_⟩
    exact Int.compare_eq_lt.mp below
  · refine g.channels.ascending.imp fun below a mem b mem' => .inl ?_
    obtain ⟨p, -, rfl⟩ := List.mem_map.mp mem
    obtain ⟨p', -, rfl⟩ := List.mem_map.mp mem'
    exact below

/-- What is reported is what is dropped, in the order in which it stood. -/
theorem release_fst_eq_dropped (g : Guide) (w : Window) :
    (g.release w).1 = (g.dropped w).map fun d => ⟨.deleted, d.2.2⟩ := by
  have each : ∀ p : String × ChannelGuide,
      (p.2.outside w).map (⟨.deleted, ·⟩) =
        ((p.2.entries.entries.filter fun q => w.excludes q.2).map fun q => (p.1, q.1, q.2)).map
          fun d => (⟨.deleted, d.2.2⟩ : GuideChange) := by
    intro p
    rw [ChannelGuide.outside, Table.values, List.filter_map, List.map_map, List.map_map]
    rfl
  rw [release_fst, outside, dropped, Table.values, List.map_flatMap, List.map_flatMap,
    List.flatMap_map]
  exact congrArg (g.channels.entries.flatMap ·) (funext each)

/-- What is published: channels with their ids, and their broadcasts by start. -/
def contents (g : Guide) : Table String (String × Table Int GuideEntry) :=
  g.channels.mapValues fun _ c => (c.id, c.entries)

theorem contents_release (g : Guide) (w : Window) :
    (g.release w).2.contents =
      g.contents.mapValues fun _ c => (c.1, c.2.filter fun _ e => !w.excludes e) := by
  have each : ∀ c : ChannelGuide, ((c.release w g.nextRevision).id,
      (c.release w g.nextRevision).entries) =
        (c.id, c.entries.filter fun _ e => !w.excludes e) := by
    intro c
    rw [ChannelGuide.entries_release, ChannelGuide.release_id]
  rw [contents, contents, release, Table.mapValues_mapValues, Table.mapValues_mapValues]
  exact congrArg (g.channels.mapValues ·) (funext fun _ => funext each)

/-- Dropping twice is dropping what one of the windows excludes. -/
theorem contents_release_release (g : Guide) (w w' : Window) :
    ((g.release w).2.release w').2.contents = (g.release (w.meet w')).2.contents := by
  rw [contents_release, contents_release, contents_release, Table.mapValues_mapValues]
  simp only [Table.filter_filter, Window.meet_excludes, Bool.not_or]

/-- Nothing is left to drop. -/
theorem dropped_release (g : Guide) (w : Window) : (g.release w).2.dropped w = [] := by
  rw [List.eq_nil_iff_forall_not_mem]
  rintro ⟨id, start, e⟩ mem
  obtain ⟨found, out⟩ := mem_dropped_iff.mp mem
  rw [← view, view_release, Option.filter_eq_some_iff, Window.not_excludes_iff] at found
  exact found.2 out

/-- A channel answers for a span inside the window as it did before. -/
theorem inRange_channel?_release (g : Guide) {w : Window} (id : String) {start stop : Int}
    (after : w.lower ≤ start) (before : stop ≤ w.upper) :
    ((g.release w).2.channel? id).map (·.inRange start stop) =
      (g.channel? id).map (·.inRange start stop) := by
  rw [release, channel?, Table.get?_mapValues, channel?]
  cases g.channels.get? id with
  | none => rfl
  | some c => exact congrArg some (c.inRange_release after before _)

/-- Dropping what a window excludes is exact, and does not show inside the window. Of the broadcasts
those are gone that end before the window or start behind it, whichever of their times is the
earlier one; every other one stays, and so does every channel. Each is reported once, as deleted,
in the order of the channels and of the starts under which they stood. The same window drops
nothing more, and another one leaves what dropping with their common part leaves. -/
theorem release_exact (g : Guide) (w : Window) :
    (∀ id start e, entry? (g.release w).2 id start = some e ↔
      g.entry? id start = some e ∧ ¬ (e.endTime < w.lower ∨ w.upper < e.startTime)) ∧
    (g.release w).2.channels.keys = g.channels.keys ∧
    (∃ gone : List (String × Int × GuideEntry),
      (∀ id start e, (id, start, e) ∈ gone ↔
        g.entry? id start = some e ∧ (e.endTime < w.lower ∨ w.upper < e.startTime)) ∧
      gone.Pairwise (fun a b => compare a.1 b.1 = .lt ∨ a.1 = b.1 ∧ a.2.1 < b.2.1) ∧
      (g.release w).1 = gone.map fun d => ⟨.deleted, d.2.2⟩) ∧
    ((g.release w).2.release w).1 = [] ∧
    (∀ w', ((g.release w).2.release w').2.contents =
      (g.release ⟨max w.lower w'.lower, min w.upper w'.upper⟩).2.contents) ∧
    ∀ id start stop, w.lower ≤ start → stop ≤ w.upper →
      ((g.release w).2.channel? id).map (·.inRange start stop) =
        (g.channel? id).map (·.inRange start stop) := by
  refine ⟨?stays, ?channels, ?reported, ?again, ?twice, ?inside⟩
  case stays =>
    intro id start e
    rw [← view, view_release, Option.filter_eq_some_iff, Window.not_excludes_iff, view]
  case channels => exact Table.keys_mapValues _ _
  case reported =>
    exact ⟨g.dropped w, fun id start e => mem_dropped_iff, g.pairwise_dropped w,
      g.release_fst_eq_dropped w⟩
  case again => rw [release_fst_eq_dropped, dropped_release, List.map_nil]
  case twice => exact g.contents_release_release w
  case inside => exact fun id start stop => g.inRange_channel?_release id

/-- A guide with a broadcast that lasts, one that ends before it starts, and a channel whose only
broadcast is late. -/
def mixedGuide : Guide :=
  (mergeAll {} [("ct1", [{ startTime := 0, endTime := 1000 }, { startTime := 300, endTime := 50 }]),
    ("ct2", [{ startTime := 500, endTime := 600 }])]).2

/-- A window with its ends the wrong way round still leaves what lasts over both of them, and a
span inside the window from 0 to 400 answers the same after the release. -/
theorem mixedGuide_released :
    (∃ e, entry? (mixedGuide.release ⟨400, 200⟩).2 "ct1" 0 = some e) ∧
    entry? (mixedGuide.release ⟨400, 200⟩).2 "ct1" 300 = none ∧
    (mixedGuide.release ⟨400, 200⟩).2.channels.keys = ["ct1", "ct2"] ∧
    (mixedGuide.release ⟨400, 200⟩).1.map (·.entry.startTime) = [300, 500] ∧
    ((mixedGuide.release ⟨0, 400⟩).2.channel? "ct1").map (·.inRange 10 320) =
      (mixedGuide.channel? "ct1").map (·.inRange 10 320) := by
  obtain ⟨stays, channels, -⟩ := mixedGuide.release_exact ⟨400, 200⟩
  obtain ⟨-, -, -, -, -, inside⟩ := mixedGuide.release_exact ⟨0, 400⟩
  refine ⟨⟨{ startTime := 0, endTime := 1000 }, ?_⟩, ?_, channels.trans (by decide +kernel),
    by decide +kernel, inside "ct1" 10 320 (by decide) (by decide)⟩
  · exact (stays "ct1" 0 _).mpr ⟨by decide +kernel, by decide⟩
  · refine Option.eq_none_iff_forall_ne_some.mpr fun e there => ?_
    obtain ⟨found, kept⟩ := (stays "ct1" 300 e).mp there
    have same : mixedGuide.entry? "ct1" 300 = some { startTime := 300, endTime := 50 } := by
      decide +kernel
    obtain rfl := Option.some.inj (same.symm.trans found)
    exact kept (.inl (by decide))

end Guide

end PvrBackend
