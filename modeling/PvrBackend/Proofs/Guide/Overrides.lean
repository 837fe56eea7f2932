import PvrBackend.Guide.Answer
import PvrBackend.Proofs.Guide.Mirror

/-!
# Answers override the guide

Merging an answer writes its broadcasts one after the other. So under each start time
the last one stands that the answer lists for the channel, and where it lists none the
guide is what it was.
-/

namespace PvrBackend

namespace Guide

/-- The last of some broadcasts that start at a time. -/
def lastAt? (es : List GuideEntry) (start : Int) : Option GuideEntry :=
  (es.filter (fun e => e.startTime = start)).getLast?

theorem lastAt?_append (es es' : List GuideEntry) (start : Int) :
    lastAt? (es ++ es') start = (lastAt? es' start).or (lastAt? es start) := by
  rw [lastAt?, List.filter_append, List.getLast?_append]
  rfl

theorem lastAt?_singleton (e : GuideEntry) (start : Int) :
    lastAt? [e] start = if e.startTime = start then some e else none := by
  by_cases here : e.startTime = start <;> simp [lastAt?, here]

theorem mem_of_lastAt? {es : List GuideEntry} {start : Int} {e : GuideEntry}
    (last : lastAt? es start = some e) : e ∈ es ∧ e.startTime = start := by
  have mem := List.mem_of_getLast? last
  simpa using mem

/-- What an answer lists for a channel. -/
def listedFor (parts : List (String × List GuideEntry)) (id : String) : List GuideEntry :=
  (parts.filter (fun part => part.1 = id)).flatMap (·.2)

theorem listedFor_cons (part : String × List GuideEntry) (parts : List (String × List GuideEntry))
    (id : String) : listedFor (part :: parts) id =
      if part.1 = id then part.2 ++ listedFor parts id else listedFor parts id := by
  by_cases here : part.1 = id <;> simp [listedFor, here]

theorem mem_listedFor {parts : List (String × List GuideEntry)} {id : String} {e : GuideEntry} :
    e ∈ listedFor parts id ↔ ∃ part ∈ parts, part.1 = id ∧ e ∈ part.2 := by
  simp [listedFor, and_assoc]

end Guide

namespace ChannelGuide

theorem get?_write (t : Table Int GuideEntry) (es : List GuideEntry) (start : Int) :
    (write t es).2.get? start = (Guide.lastAt? es start).or (t.get? start) := by
  induction es generalizing t with
  | nil => rfl
  | cons e es ih =>
      have first : (t.insert e.startTime e).get? start =
          (Guide.lastAt? [e] start).or (t.get? start) := by
        rw [Guide.lastAt?_singleton]
        split
        next here => rw [← here, t.get?_insert_self, Option.some_or]
        next away => rw [t.get?_insert_of_ne (Ne.symm away), Option.none_or]
      calc (write t (e :: es)).2.get? start
          = (write (t.insert e.startTime e) es).2.get? start := rfl
        _ = (Guide.lastAt? es start).or ((Guide.lastAt? [e] start).or (t.get? start)) := by
            rw [ih, first]
        _ = (Guide.lastAt? ([e] ++ es) start).or (t.get? start) := by
            rw [Guide.lastAt?_append, Option.or_assoc]

end ChannelGuide

namespace Guide

theorem view_merge (g : Guide) (id : String) (es : List GuideEntry) (id' : String) (start : Int) :
    (g.merge id es).2.view id' start =
      if id = id' then (lastAt? es start).or (g.view id' start) else g.view id' start := by
  rw [merge]
  split
  next nothing =>
    subst nothing
    split <;> rfl
  next =>
    dsimp only
    rw [view_put]
    by_cases here : id = id'
    · subst here
      rw [Function.update_self, if_pos rfl, ChannelGuide.get?_write, view, entry?]
      cases g.channel? id <;> rfl
    · rw [Function.update_of_ne (Ne.symm here), if_neg here]

/-- After an answer was merged, the last broadcast that it lists for a channel under a
start time is published there, and the old one where it lists none. -/
theorem view_mergeAll (g : Guide) (parts : List (String × List GuideEntry)) (id : String)
    (start : Int) : (g.mergeAll parts).2.view id start =
      (lastAt? (listedFor parts id) start).or (g.view id start) := by
  induction parts generalizing g with
  | nil => rfl
  | cons part parts ih =>
      have first : (g.mergeAll (part :: parts)).2 =
          ((g.merge part.1 part.2).2.mergeAll parts).2 := rfl
      rw [first, ih, view_merge, listedFor_cons]
      split
      next => rw [lastAt?_append, Option.or_assoc]
      next => rfl

/-! ### Numbers of channels -/

/-- What an answer lists for a channel carries the number that the lineup gives it. -/
theorem number_of_mem_listedFor {channels : List Channel} {root : Json} {id : String}
    {e : GuideEntry} (mem : e ∈ listedFor (ofAnswer channels root) id) :
    (Channel.withId? channels id).map (·.uniqueId) = some e.channelUid := by
  obtain ⟨part, there, rfl, inside⟩ := mem_listedFor.mp mem
  obtain ⟨⟨id, events⟩, -, listed⟩ := List.mem_filterMap.mp there
  obtain ⟨c, found, rfl⟩ := Option.map_eq_some_iff.mp listed
  obtain ⟨event, -, read⟩ := List.mem_filterMap.mp inside
  obtain ⟨start, -, built⟩ := Option.bind_eq_some_iff.mp read
  rw [found, ← Option.some.inj built]
  rfl

end Guide

end PvrBackend
