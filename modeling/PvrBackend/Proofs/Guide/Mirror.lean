import Mathlib.Logic.Function.Basic
import PvrBackend.Guide.Basic
import PvrBackend.Lineup.Basic

/-!
# A host that follows the guide

A host need not read the guide again after every change. It can keep the
broadcasts it was told of, each under the number of its channel and its start,
and follow the reported changes: what is created or updated is written, what is
deleted is removed.

Broadcasts are published by the ids of their channels, so the two agree only as long
as no lineup gives a channel another number, and no two channels one number. Each
edit of the guide then reports changes that fit what the host has, and brings the
host to what is published after it.
-/

namespace PvrBackend

/-- The number of the channel and the start, by which a host knows a broadcast. -/
def GuideEntry.key (e : GuideEntry) : Nat × Int := (e.channelUid, e.startTime)

/-- What a host has of the guide. -/
abbrev Mirror := Nat × Int → Option GuideEntry

namespace Mirror

/-- Follow one change. -/
def apply (m : Mirror) (c : GuideChange) : Mirror := fun k =>
  if k = c.entry.key then
    match c.kind with
    | .created | .updated => some c.entry
    | .deleted => none
  else m k

/-- Follow changes one after the other. -/
def follow (m : Mirror) (changes : List GuideChange) : Mirror := changes.foldl apply m

/-- What a host has that started with nothing. -/
def replay (changes : List GuideChange) : Mirror := follow (fun _ => none) changes

/-- A change that fits: only what is missing is created, and only what is there is
updated or deleted. -/
def Expects (m : Mirror) (c : GuideChange) : Prop :=
  match c.kind with
  | .created => m c.entry.key = none
  | .updated | .deleted => m c.entry.key ≠ none

/-- Changes that fit one after the other. -/
def ExpectsAll : Mirror → List GuideChange → Prop
  | _, [] => True
  | m, c :: cs => m.Expects c ∧ ExpectsAll (m.apply c) cs

@[simp] theorem follow_nil (m : Mirror) : m.follow [] = m := rfl

@[simp] theorem follow_cons (m : Mirror) (c : GuideChange) (cs : List GuideChange) :
    m.follow (c :: cs) = (m.apply c).follow cs := rfl

theorem follow_append (m : Mirror) (cs ds : List GuideChange) :
    m.follow (cs ++ ds) = (m.follow cs).follow ds := List.foldl_append

theorem expectsAll_append {m : Mirror} {cs ds : List GuideChange} :
    m.ExpectsAll (cs ++ ds) ↔ m.ExpectsAll cs ∧ (m.follow cs).ExpectsAll ds := by
  induction cs generalizing m with
  | nil => simp [ExpectsAll]
  | cons c cs ih => simp [ExpectsAll, ih, and_assoc]

/-- Every change fits what the host has just then. -/
theorem ExpectsAll.expects {m : Mirror} {before after : List GuideChange} {c : GuideChange}
    (expected : m.ExpectsAll (before ++ c :: after)) : (m.follow before).Expects c :=
  (expectsAll_append.mp expected).2.1

theorem apply_self (m : Mirror) {c : GuideChange} (kept : c.kind ≠ .deleted) :
    m.apply c c.entry.key = some c.entry := by
  rw [apply, if_pos rfl]
  cases kind : c.kind with
  | deleted => exact absurd kind kept
  | _ => rfl

theorem apply_of_ne (m : Mirror) {c : GuideChange} {k : Nat × Int} (h : k ≠ c.entry.key) :
    m.apply c k = m k := if_neg h

/-- Deletions remove the deleted broadcasts and nothing else. -/
theorem follow_deleted (m : Mirror) (es : List GuideEntry) (k : Nat × Int) :
    m.follow (es.map (⟨.deleted, ·⟩)) k = if k ∈ es.map GuideEntry.key then none else m k := by
  induction es generalizing m with
  | nil => simp
  | cons e es ih =>
      rw [List.map_cons, follow_cons, ih]
      by_cases same : k = e.key
      · simp [apply, same]
      · simp [apply_of_ne, same]

/-- Deletions of different broadcasts fit if all of them are there. -/
theorem expectsAll_deleted {m : Mirror} {es : List GuideEntry} (there : ∀ e ∈ es, m e.key ≠ none)
    (different : (es.map GuideEntry.key).Nodup) : m.ExpectsAll (es.map (⟨.deleted, ·⟩)) := by
  induction es generalizing m with
  | nil => trivial
  | cons e es ih =>
      obtain ⟨fresh, different⟩ := List.nodup_cons.mp different
      refine ⟨there e List.mem_cons_self, ih ?_ different⟩
      intro e' mem
      have ne : e'.key ≠ e.key := fun same => fresh (same ▸ List.mem_map_of_mem mem)
      rw [apply_of_ne m ne]
      exact there e' (List.mem_cons_of_mem _ mem)

end Mirror

/-- The published broadcasts, by the id of the channel and the start. -/
def Guide.view (g : Guide) (id : String) (start : Int) : Option GuideEntry := g.entry? id start

/-! ### Names of channels -/

/-- Among the lineups one gives this number to the channel with this id. -/
def Lineup.Names (ls : List Lineup) (id : String) (uid : Nat) : Prop :=
  ∃ l ∈ ls, ∃ c ∈ l.channels, c.id = id ∧ c.uniqueId = uid

/-- No channel has two numbers, and no number stands for two channels. -/
def Lineup.Consistent (ls : List Lineup) : Prop :=
  ∀ ⦃id id' uid uid'⦄, Names ls id uid → Names ls id' uid' → (id = id' ↔ uid = uid')

theorem Lineup.Names.mono {ls ls' : List Lineup} (sub : ls ⊆ ls') {id : String} {uid : Nat}
    (named : Names ls id uid) : Names ls' id uid := by
  obtain ⟨l, mem, rest⟩ := named
  exact ⟨l, sub mem, rest⟩

theorem Lineup.Consistent.anti {ls ls' : List Lineup} (sub : ls ⊆ ls')
    (consistent : Consistent ls') : Consistent ls :=
  fun _ _ _ _ named named' => consistent (named.mono sub) (named'.mono sub)

/-! ### Having what is published -/

/-- A broadcast as the host has it and as it is published: the same, or different only
in a record that was noted meanwhile. -/
def SameBroadcast (noted : List (Nat × Int)) (x e : GuideEntry) : Prop :=
  x = e ∨ e.key ∈ noted ∧ x = { e with recordId := x.recordId }

theorem SameBroadcast.mono {noted noted' : List (Nat × Int)} (sub : noted ⊆ noted')
    {x e : GuideEntry} (same : SameBroadcast noted x e) : SameBroadcast noted' x e :=
  same.imp_right fun ⟨mem, rest⟩ => ⟨sub mem, rest⟩

/-- A record may be noted for a broadcast under a key that is listed. -/
theorem SameBroadcast.note {noted : List (Nat × Int)} {x e : GuideEntry}
    (same : SameBroadcast noted x e) (recordId : String) :
    SameBroadcast (e.key :: noted) x { e with recordId := some recordId } := by
  refine .inr ⟨List.mem_cons_self, ?_⟩
  rcases same with rfl | ⟨-, differs⟩
  · rfl
  · rw [differs]

/-- A host with `m` has what is published, broadcast by broadcast, whatever records
were noted for the broadcasts under `noted`. -/
structure Mirror.Shows (m : Mirror) (noted : List (Nat × Int)) (g : Guide) : Prop where
  /-- Everything published is there. -/
  published : ∀ id start e, g.view id start = some e →
    ∃ x, m e.key = some x ∧ SameBroadcast noted x e
  /-- Everything there is published, under its start. -/
  shown : ∀ k x, m k = some x →
    ∃ id e, g.view id k.2 = some e ∧ e.key = k ∧ SameBroadcast noted x e
  /-- No two published broadcasts have one key. -/
  single : ∀ id id' start start' e e', g.view id start = some e → g.view id' start' = some e' →
    e.key = e'.key → id = id' ∧ start = start'

/-- What holds between the guide, by the ids and starts in `view`, and a host that
follows it, while the lineups `ls` were published. -/
structure Follows (ls : List Lineup) (noted : List (Nat × Int)) (m : Mirror)
    (view : String → Int → Option GuideEntry) : Prop where
  /-- Broadcasts stand under their starts and carry a number of their channel. -/
  keyed : ∀ id start e, view id start = some e →
    e.startTime = start ∧ Lineup.Names ls id e.channelUid
  same : ∀ id uid start, Lineup.Names ls id uid → 
    Option.Rel (SameBroadcast noted) (m (uid, start)) (view id start)
  known : ∀ k, m k ≠ none → ∃ id, Lineup.Names ls id k.1

namespace Follows

variable {ls : List Lineup} {noted : List (Nat × Int)} {m : Mirror}
variable {view : String → Int → Option GuideEntry}

/-- A broadcast that is written and reported is there on both sides. -/
theorem write (follows : Follows ls noted m view) (consistent : Lineup.Consistent ls) {id : String}
    {c : GuideChange} (kept : c.kind ≠ .deleted) (named : Lineup.Names ls id c.entry.channelUid)
    {view' : String → Int → Option GuideEntry}
    (written : view' id c.entry.startTime = some c.entry)
    (others : ∀ id' start, ¬ (id' = id ∧ start = c.entry.startTime) →
      view' id' start = view id' start) :
    Follows ls noted (m.apply c) view' := by
  refine ⟨?_, ?_, ?_⟩
  · intro id' start e found
    by_cases here : id' = id ∧ start = c.entry.startTime
    · obtain ⟨rfl, rfl⟩ := here
      obtain rfl := Option.some.inj (written.symm.trans found)
      exact ⟨rfl, named⟩
    · exact follows.keyed id' start e ((others id' start here).symm.trans found)
  · intro id' uid start named'
    by_cases here : id' = id ∧ start = c.entry.startTime
    · obtain ⟨rfl, rfl⟩ := here
      obtain rfl : c.entry.channelUid = uid := (consistent named named').mp rfl
      have there : m.apply c (c.entry.channelUid, c.entry.startTime) = some c.entry :=
        m.apply_self kept
      rw [there, written]
      exact .some (.inl rfl)
    · have ne : (uid, start) ≠ c.entry.key := by
        intro same
        obtain ⟨sameUid, sameStart⟩ := Prod.mk.inj same
        exact here ⟨(consistent named' named).mpr sameUid, sameStart⟩
      rw [m.apply_of_ne ne, others id' start here]
      exact follows.same id' uid start named'
  · intro k there
    by_cases here : k = c.entry.key
    · exact ⟨id, here ▸ named⟩
    · rw [m.apply_of_ne here] at there
      exact follows.known k there

/-- Broadcasts that are dropped and reported are gone on both sides. -/
theorem release (follows : Follows ls noted m view) (consistent : Lineup.Consistent ls)
    {w : Window} {es : List GuideEntry}
    (mem : ∀ e, e ∈ es ↔ w.excludes e = true ∧ ∃ id start, view id start = some e) :
    Follows ls noted (m.follow (es.map (⟨.deleted, ·⟩)))
      (fun id start => (view id start).filter (fun e => !w.excludes e)) := by
  refine ⟨?_, ?_, ?_⟩
  · intro id start e found
    exact follows.keyed id start e (Option.filter_eq_some_iff.mp found).1
  · intro id uid start named
    have same := follows.same id uid start named
    rw [m.follow_deleted]
    generalize m (uid, start) = there, found : view id start = published at same ⊢
    cases same with
    | none => simp
    | @some x e same =>
        obtain ⟨start_eq, named'⟩ := follows.keyed id start e found
        have key : e.key = (uid, start) := by
          rw [GuideEntry.key, start_eq, (consistent named' named).mp rfl]
        by_cases out : w.excludes e = true
        · have gone : (uid, start) ∈ es.map GuideEntry.key :=
            List.mem_map.mpr ⟨e, (mem e).mpr ⟨out, id, start, found⟩, key⟩
          rw [if_pos gone, Option.filter_some, if_neg (by simp [out])]
          exact .none
        · have stays : (uid, start) ∉ es.map GuideEntry.key := by
            intro listed
            obtain ⟨e', mem', key'⟩ := List.mem_map.mp listed
            obtain ⟨out', id', start', found'⟩ := (mem e').mp mem'
            obtain ⟨start_eq', named''⟩ := follows.keyed id' start' e' found'
            obtain ⟨sameUid, sameStart⟩ := Prod.mk.inj (key'.trans key.symm)
            obtain rfl : id' = id := (consistent named'' named').mpr sameUid
            obtain rfl : start' = start := by rw [← start_eq', ← start_eq, sameStart]
            obtain rfl := Option.some.inj (found'.symm.trans found)
            exact out out'
          rw [if_neg stays, Option.filter_some, if_pos (by simp [out])]
          exact .some same
  · intro k there
    rw [m.follow_deleted] at there
    split at there
    · exact absurd rfl there
    · exact follows.known k there

/-- Noting a record changes nothing else. -/
theorem note (follows : Follows ls noted m view) (consistent : Lineup.Consistent ls) {id : String}
    {uid : Nat} (named : Lineup.Names ls id uid) (start : Int) (recordId : String) :
    Follows ls ((uid, start) :: noted) m (fun id' start' =>
      if id' = id ∧ start' = start then
        (view id' start').map (fun e => { e with recordId := some recordId })
      else view id' start') := by
  refine ⟨?_, ?_, follows.known⟩
  · intro id' start' e found
    split at found
    · obtain ⟨e', found', rfl⟩ := Option.map_eq_some_iff.mp found
      exact follows.keyed id' start' e' found'
    · exact follows.keyed id' start' e found
  · intro id' uid' start' named'
    have same := follows.same id' uid' start' named'
    generalize m (uid', start') = there, found : view id' start' = published at same ⊢
    cases same with
    | none => simp
    | @some x e same =>
        split
        next here =>
          obtain ⟨rfl, rfl⟩ := here
          obtain ⟨start_eq, named''⟩ := follows.keyed _ _ e found
          have key : e.key = (uid, start') := by
            rw [GuideEntry.key, start_eq, (consistent named'' named).mp rfl]
          exact .some (key ▸ same.note recordId)
        next => exact .some (same.mono (List.subset_cons_self _ _))

/-- A new lineup changes nothing as long as it agrees with those before. -/
theorem grow (follows : Follows ls noted m view) {ls' : List Lineup} (sub : ls ⊆ ls')
    (consistent : Lineup.Consistent ls') : Follows ls' noted m view := by
  refine ⟨?_, ?_, ?_⟩
  · intro id start e found
    obtain ⟨start_eq, named⟩ := follows.keyed id start e found
    exact ⟨start_eq, named.mono sub⟩
  · intro id uid start named'
    -- A broadcast on either side shows that the channel was named before.
    have before : view id start ≠ none ∨ m (uid, start) ≠ none → Lineup.Names ls id uid := by
      rintro (published | there)
      · obtain ⟨e, found⟩ := Option.ne_none_iff_exists'.mp published
        obtain ⟨-, named⟩ := follows.keyed id start e found
        rwa [(consistent (named.mono sub) named').mp rfl] at named
      · obtain ⟨id', named⟩ := follows.known _ there
        rwa [(consistent (named.mono sub) named').mpr rfl] at named
    by_cases published : view id start = none
    · by_cases there : m (uid, start) = none
      · rw [published, there]
        exact .none
      · exact follows.same id uid start (before (.inr there))
    · exact follows.same id uid start (before (.inl published))
  · intro k there
    obtain ⟨id, named⟩ := follows.known k there
    exact ⟨id, named.mono sub⟩

/-- What follows shows everything published and nothing else. -/
theorem shows {g : Guide} (follows : Follows ls noted m g.view)
    (consistent : Lineup.Consistent ls) : m.Shows noted g := by
  refine ⟨?_, ?_, ?_⟩
  · intro id start e found
    obtain ⟨rfl, named⟩ := follows.keyed id start e found
    have same := follows.same id e.channelUid e.startTime named
    rw [found] at same
    change Option.Rel _ (m e.key) _ at same
    generalize m e.key = there at same ⊢
    cases same with
    | some same => exact ⟨_, rfl, same⟩
  · intro k x there
    obtain ⟨id, named⟩ := follows.known k (by simp [there])
    have same := follows.same id k.1 k.2 named
    rw [there] at same
    generalize found : g.view id k.2 = published at same
    cases same with
    | @some _ e same =>
      obtain ⟨start_eq, named'⟩ := follows.keyed id k.2 e found
      refine ⟨id, e, found, ?_, same⟩
      rw [GuideEntry.key, start_eq, (consistent named' named).mp rfl]
  · intro id id' start start' e e' found found' key
    obtain ⟨rfl, named⟩ := follows.keyed id start e found
    obtain ⟨rfl, named'⟩ := follows.keyed id' start' e' found'
    obtain ⟨sameUid, sameStart⟩ := Prod.mk.inj key
    exact ⟨(consistent named named').mpr sameUid, sameStart⟩

end Follows

/-! ### Edits of the guide -/

namespace Guide

theorem view_put (g : Guide) (id : String) (c : ChannelGuide) :
    (g.put id c).view = Function.update g.view id c.entries.get? := by
  funext other start
  by_cases here : other = id
  · rw [here, Function.update_self, view, entry?, channel?_put_self, Option.bind_some]
  · rw [Function.update_of_ne here, view, entry?, channel?_put_of_ne g here, view, entry?]

theorem view_setRecord (g : Guide) (id : String) (start : Int) (recordId id' : String)
    (start' : Int) : (g.setRecord id start recordId).view id' start' =
      if id' = id ∧ start' = start then
        (g.view id' start').map (fun e => { e with recordId := some recordId })
      else g.view id' start' := by
  rw [setRecord]
  cases there : g.channel? id with
  | none =>
      dsimp only
      split
      next here => rw [here.1, view, entry?, there]; rfl
      next => rfl
  | some c =>
      dsimp only
      by_cases here : id' = id
      · subst here
        rw [view_put, Function.update_self, Table.get?_mapValues, view, entry?, there,
          Option.bind_some]
        by_cases now : start' = start <;> simp [now]
      · rw [view_put, Function.update_of_ne here, if_neg (fun h => here h.1)]

end Guide

namespace ChannelGuide

theorem mem_outside_iff {c : ChannelGuide} {w : Window} {e : GuideEntry} :
    e ∈ c.outside w ↔ w.excludes e = true ∧ ∃ start, c.entries.get? start = some e := by
  rw [outside, List.mem_filter, Table.mem_values_iff, and_comm]

theorem get?_release (c : ChannelGuide) (w : Window) (revision : Nat) (start : Int) :
    (c.release w revision).entries.get? start =
      (c.entries.get? start).filter (fun e => !w.excludes e) := by
  rw [release]
  split
  next inside =>
    cases found : c.entries.get? start with
    | none => rfl
    | some e =>
        have kept : w.excludes e ≠ true := fun out => by
          have listed := mem_outside_iff.mpr ⟨out, start, found⟩
          rw [inside] at listed
          cases listed
        rw [Option.filter_some, if_pos (by simp [kept])]
  next => exact Table.get?_filter _ _ _

end ChannelGuide

namespace Guide

/-- The broadcasts that a window excludes. -/
def outside (g : Guide) (w : Window) : List GuideEntry := g.channels.values.flatMap (·.outside w)

theorem mem_outside_iff {g : Guide} {w : Window} {e : GuideEntry} :
    e ∈ g.outside w ↔ w.excludes e = true ∧ ∃ id start, g.view id start = some e := by
  simp only [outside, List.mem_flatMap, Table.mem_values_iff, ChannelGuide.mem_outside_iff, view,
    entry?, channel?, Option.bind_eq_some_iff]
  constructor
  · rintro ⟨c, ⟨id, there⟩, out, start, found⟩
    exact ⟨out, id, start, c, there, found⟩
  · rintro ⟨out, id, start, c, there, found⟩
    exact ⟨c, ⟨id, there⟩, out, start, found⟩

theorem release_fst (g : Guide) (w : Window) :
    (g.release w).1 = (g.outside w).map (⟨.deleted, ·⟩) := by
  rw [release, outside, List.map_flatMap]

theorem view_release (g : Guide) (w : Window) (id : String) (start : Int) :
    (g.release w).2.view id start = (g.view id start).filter (fun e => !w.excludes e) := by
  simp only [release, view, entry?, channel?, Table.get?_mapValues]
  cases g.channels.get? id with
  | none => rfl
  | some c => exact c.get?_release w _ start

end Guide

namespace Follows

variable {ls : List Lineup} {noted : List (Nat × Int)} {m : Mirror}

/-- A broadcast is written among those of its channel, as a new one or in place of another. -/
theorem writeOne {view : String → Int → Option GuideEntry} (follows : Follows ls noted m view)
    (consistent : Lineup.Consistent ls) {id : String} {t : Table Int GuideEntry}
    (table : view id = t.get?) {e : GuideEntry} (named : Lineup.Names ls id e.channelUid)
    {kind : ChangeKind}
    (kind_eq : kind = if (t.get? e.startTime).isSome then .updated else .created) :
    m.Expects ⟨kind, e⟩ ∧ Follows ls noted (m.apply ⟨kind, e⟩)
      (Function.update view id (t.insert e.startTime e).get?) := by
  have kept : kind ≠ .deleted := by
    rw [kind_eq]
    split <;> simp
  constructor
  · have same := follows.same id e.channelUid e.startTime named
    rw [table] at same
    change Option.Rel _ (m e.key) _ at same
    simp only [Mirror.Expects, kind_eq]
    generalize m e.key = there, t.get? e.startTime = published at same
    cases same <;> simp
  · refine follows.write consistent kept named ?_ fun id' start other => ?_
    · rw [Function.update_self, t.get?_insert_self]
    · by_cases here : id' = id
      · have ne : start ≠ e.startTime := fun now => other ⟨here, now⟩
        rw [here, Function.update_self, t.get?_insert_of_ne ne, table]
      · rw [Function.update_of_ne here]

/-- Broadcasts of one channel are written one after the other. -/
theorem writeAll {view : String → Int → Option GuideEntry} (follows : Follows ls noted m view)
    (consistent : Lineup.Consistent ls) {id : String} {t : Table Int GuideEntry}
    (table : view id = t.get?) {es : List GuideEntry}
    (named : ∀ e ∈ es, Lineup.Names ls id e.channelUid) :
    m.ExpectsAll (ChannelGuide.write t es).1 ∧
      Follows ls noted (m.follow (ChannelGuide.write t es).1)
        (Function.update view id (ChannelGuide.write t es).2.get?) := by
  induction es generalizing m view t with
  | nil =>
      refine ⟨trivial, ?_⟩
      rw [ChannelGuide.write, Mirror.follow_nil, ← table, Function.update_eq_self]
      exact follows
  | cons e es ih =>
      obtain ⟨fits, written⟩ :=
        follows.writeOne consistent table (named e List.mem_cons_self) rfl
      obtain ⟨expected, rest⟩ := ih written (Function.update_self ..)
        fun e' mem => named e' (List.mem_cons_of_mem _ mem)
      rw [Function.update_idem] at rest
      exact ⟨⟨fits, expected⟩, rest⟩

/-- Broadcasts of one channel are merged. -/
theorem merge {g : Guide} (follows : Follows ls noted m g.view)
    (consistent : Lineup.Consistent ls) {id : String} {es : List GuideEntry}
    (named : ∀ e ∈ es, Lineup.Names ls id e.channelUid) :
    m.ExpectsAll (g.merge id es).1 ∧
      Follows ls noted (m.follow (g.merge id es).1) (g.merge id es).2.view := by
  rw [Guide.merge]
  split
  next => exact ⟨trivial, follows⟩
  next =>
    let c := (g.channel? id).getD { id }
    have table : g.view id = c.entries.get? := by
      funext start
      rw [Guide.view, Guide.entry?]
      simp only [c]
      cases g.channel? id <;> rfl
    obtain ⟨expected, written⟩ := follows.writeAll consistent table named
    refine ⟨expected, ?_⟩
    dsimp only
    rw [Guide.view_put]
    exact written

/-- Broadcasts of several channels are merged in turn. -/
theorem mergeAll {g : Guide} (follows : Follows ls noted m g.view)
    (consistent : Lineup.Consistent ls) {parts : List (String × List GuideEntry)}
    (named : ∀ part ∈ parts, ∀ e ∈ part.2, Lineup.Names ls part.1 e.channelUid) :
    m.ExpectsAll (g.mergeAll parts).1 ∧
      Follows ls noted (m.follow (g.mergeAll parts).1) (g.mergeAll parts).2.view := by
  induction parts generalizing m g with
  | nil => exact ⟨trivial, follows⟩
  | cons part parts ih =>
      obtain ⟨expected, merged⟩ := follows.merge consistent (named part List.mem_cons_self)
      obtain ⟨others, rest⟩ :=
        ih merged (fun part' mem => named part' (List.mem_cons_of_mem _ mem))
      refine ⟨Mirror.expectsAll_append.mpr ⟨expected, others⟩, ?_⟩
      rw [Guide.mergeAll]
      dsimp only
      rwa [Mirror.follow_append]

/-- No two broadcasts that are dropped have one key. -/
theorem nodup_outside {g : Guide} (follows : Follows ls noted m g.view)
    (consistent : Lineup.Consistent ls) (w : Window) :
    ((g.outside w).map GuideEntry.key).Nodup := by
  have entry : ∀ {id c e start}, (id, c) ∈ g.channels.entries → (start, e) ∈ c.entries.entries →
      g.view id start = some e := by
    intro id c e start there found
    rw [Guide.view, Guide.entry?, Guide.channel?, Table.mem_entries_iff.mp there]
    exact Table.mem_entries_iff.mp found
  rw [Guide.outside, List.map_flatMap, List.Nodup, List.pairwise_flatMap]
  refine ⟨?_, ?_⟩
  · intro c mem
    obtain ⟨⟨id, c⟩, there, rfl⟩ := List.mem_map.mp mem
    rw [ChannelGuide.outside, List.pairwise_map]
    refine List.Pairwise.filter _ ?_
    rw [Table.values, List.pairwise_map]
    refine c.entries.ascending.imp_of_mem ?_
    rintro ⟨start, e⟩ ⟨start', e'⟩ found found' below same
    obtain ⟨rfl, -⟩ := follows.keyed id start e (entry there found)
    obtain ⟨rfl, -⟩ := follows.keyed id start' e' (entry there found')
    have now : e.startTime = e'.startTime := (Prod.mk.inj same).2
    simp [now] at below
  · rw [Table.values, List.pairwise_map]
    refine g.channels.ascending.imp_of_mem ?_
    rintro ⟨id, c⟩ ⟨id', c'⟩ there there' below k mem k' mem' same
    obtain ⟨e, out, rfl⟩ := List.mem_map.mp mem
    obtain ⟨e', out', rfl⟩ := List.mem_map.mp mem'
    obtain ⟨-, start, found⟩ := ChannelGuide.mem_outside_iff.mp out
    obtain ⟨-, start', found'⟩ := ChannelGuide.mem_outside_iff.mp out'
    obtain ⟨-, named⟩ := follows.keyed id start e (entry there (Table.mem_entries_iff.mpr found))
    obtain ⟨-, named'⟩ :=
      follows.keyed id' start' e' (entry there' (Table.mem_entries_iff.mpr found'))
    obtain rfl : id = id' := (consistent named named').mpr (Prod.mk.inj same).1
    simp at below

/-- What a window excludes is dropped. -/
theorem releaseGuide {g : Guide} (follows : Follows ls noted m g.view)
    (consistent : Lineup.Consistent ls) (w : Window) :
    m.ExpectsAll (g.release w).1 ∧
      Follows ls noted (m.follow (g.release w).1) (g.release w).2.view := by
  rw [Guide.release_fst]
  refine ⟨Mirror.expectsAll_deleted ?_ (follows.nodup_outside consistent w), ?_⟩
  · intro e mem
    obtain ⟨-, id, start, found⟩ := Guide.mem_outside_iff.mp mem
    obtain ⟨rfl, named⟩ := follows.keyed id start e found
    have same := follows.same id e.channelUid e.startTime named
    rw [found] at same
    change Option.Rel _ (m e.key) _ at same
    generalize m e.key = there at same ⊢
    cases same
    simp
  · have released := follows.release consistent fun e => Guide.mem_outside_iff (g := g) (w := w)
    have same : (fun id start => (g.view id start).filter (fun e => !w.excludes e)) =
        (g.release w).2.view := by
      funext id start
      rw [Guide.view_release]
    rwa [same] at released

end Follows

end PvrBackend
