import Mathlib
import PvrBackend.Store

/-!
# What guides share

A guide and one that it was edited from have channels in common: those that no edit in between
touched. Which channels an edit touches, and what becomes of them, is said here channel by channel.
Broadcasts touch the channel that they are merged into, if there are any. A window touches the
channels that have broadcasts outside of it, and a note the channel that it is made in.

A touched channel gets a revision that no channel had before, and any other keeps the one it has. So
the revisions tell what a guide still shares with an earlier one.
-/

namespace PvrBackend

/-- What a channel has on, whatever edit it comes from. -/
def ChannelGuide.content (c : ChannelGuide) : ChannelGuide := { c with revision := 0 }

namespace Guide

/-- What a guide shows of a channel. -/
def content (g : Guide) (id : String) : Option ChannelGuide :=
  (g.channel? id).map ChannelGuide.content

/-- An edit of a guide. -/
inductive Edit where
  | merge (id : String) (entries : List GuideEntry)
  | release (w : Window)
  | note (id : String) (start : Int) (recordId : String)
deriving DecidableEq

namespace Edit

/-- The guide after an edit. -/
def apply (g : Guide) : Edit → Guide
  | .merge id es => (g.merge id es).2
  | .release w => (g.release w).2
  | .note id start recordId => g.setRecord id start recordId

/-- Whether an edit touches a channel of a guide. -/
def Touches (g : Guide) (id : String) : Edit → Prop
  | .merge id' es => id' = id ∧ es ≠ []
  | .release w => ∃ c, g.channel? id = some c ∧ c.outside w ≠ []
  | .note id' _ _ => id' = id ∧ g.channel? id ≠ none

/-! ### Edits, channel by channel -/

/-- Whether an edit has to look at a channel. -/
def Reaches (id : String) : Edit → Prop
  | .merge id' es => id' = id ∧ es ≠ []
  | .release _ => True
  | .note id' _ _ => id' = id

instance (id : String) (e : Edit) : Decidable (e.Reaches id) := by
  cases e <;> unfold Reaches <;> infer_instance

/-- The channel that an edit finds: broadcasts are merged into a missing channel as into one that
has nothing on. -/
def found (id : String) (c? : Option ChannelGuide) : Edit → Option ChannelGuide
  | .merge _ _ => some (c?.getD { id })
  | .release _ | .note _ _ _ => c?

/-- What an edit makes of a channel; nothing if there is nothing to change. -/
def revise (c : ChannelGuide) : Edit → Option ChannelGuide
  | .merge _ es => some { c with entries := (ChannelGuide.write c.entries es).2 }
  | .release w => if c.outside w = [] then none else some (c.release w c.revision)
  | .note _ start recordId =>
    some { c with entries := c.entries.mapValues fun key e =>
      if key = start then { e with recordId := some recordId } else e }

/-- What an edit makes of the channel under an id; nothing if it does not touch it. -/
def outcome (e : Edit) (id : String) (c? : Option ChannelGuide) : Option ChannelGuide :=
  if e.Reaches id then (e.found id c?).bind (revise · e) else none

theorem outcome_of_reaches {e : Edit} {id : String} (reaches : e.Reaches id)
    (c? : Option ChannelGuide) : e.outcome id c? = (e.found id c?).bind (revise · e) :=
  if_pos reaches

theorem outcome_of_not_reaches {e : Edit} {id : String} (passes : ¬ e.Reaches id)
    (c? : Option ChannelGuide) : e.outcome id c? = none :=
  if_neg passes

theorem revise_release_eq_none_iff {c : ChannelGuide} {w : Window} :
    revise c (.release w) = none ↔ c.outside w = [] := by
  simp [revise]

/-- An edit never gives a channel another name. -/
theorem revise_id {e : Edit} {c c' : ChannelGuide} (revised : e.revise c = some c') :
    c'.id = c.id := by
  cases e with
  | merge id es => rw [← Option.some.inj revised]
  | note id start recordId => rw [← Option.some.inj revised]
  | release w =>
      rw [revise] at revised
      split at revised
      · cases revised
      · rw [← Option.some.inj revised, ChannelGuide.release]
        split <;> rfl

/-- What an edit makes of a channel does not depend on the edit that the channel comes from. -/
theorem revise_content (c : ChannelGuide) (e : Edit) :
    e.revise c.content = (e.revise c).map ChannelGuide.content := by
  cases e with
  | merge id es => rfl
  | note id start recordId => rfl
  | release w =>
      have same : c.content.outside w = c.outside w := rfl
      rw [revise, revise, same]
      split
      next => rfl
      next outside =>
        rw [Option.map_some, ChannelGuide.release, if_neg (same ▸ outside), ChannelGuide.release,
          if_neg outside]
        rfl

theorem outcome_content (e : Edit) (id : String) (c? : Option ChannelGuide) :
    e.outcome id (c?.map ChannelGuide.content) = (e.outcome id c?).map ChannelGuide.content := by
  have found : e.found id (c?.map ChannelGuide.content) =
      (e.found id c?).map ChannelGuide.content := by
    cases e <;> cases c? <;> rfl
  by_cases reaches : e.Reaches id
  · rw [outcome_of_reaches reaches, outcome_of_reaches reaches, found]
    cases e.found id c? with
    | none => rfl
    | some c => exact revise_content c e
  · rw [outcome_of_not_reaches reaches, outcome_of_not_reaches reaches, Option.map_none]

/-- An edit has an outcome for the channels that it touches. -/
theorem outcome_ne_none_iff (e : Edit) (g : Guide) (id : String) :
    e.outcome id (g.channel? id) ≠ none ↔ e.Touches g id := by
  by_cases reaches : e.Reaches id
  · rw [outcome_of_reaches reaches]
    cases e with
    | merge id' es => exact iff_of_true nofun reaches
    | note id' start recordId =>
        obtain rfl : id' = id := reaches
        cases there : g.channel? id' <;> simp [found, revise, Touches, there]
    | release w =>
        cases there : g.channel? id with
        | none => simp [found, Touches, there]
        | some c => simp [found, Touches, there, revise_release_eq_none_iff]
  · rw [outcome_of_not_reaches reaches]
    refine iff_of_false (fun none => none rfl) fun touches => ?_
    cases e with
    | merge id' es => exact reaches touches
    | release w => exact reaches trivial
    | note id' start recordId => exact reaches touches.1

/-- An edit is made channel by channel, and all that it makes of channels is of one revision. -/
theorem channel?_apply (e : Edit) (g : Guide) (id : String) :
    (e.apply g).channel? id =
      ((e.outcome id (g.channel? id)).map ({ · with revision := g.nextRevision })).or
        (g.channel? id) := by
  cases e with
  | merge id' es =>
      rw [apply, Guide.merge]
      split
      next none =>
        have passes : ¬ Reaches id (.merge id' es) := fun reaches => reaches.2 none
        rw [outcome_of_not_reaches passes]
        rfl
      next some =>
        by_cases here : id = id'
        · subst here
          have reaches : Reaches id (.merge id es) := ⟨rfl, some⟩
          rw [outcome_of_reaches reaches]
          exact g.channel?_put_self id _
        · have passes : ¬ Reaches id (.merge id' es) := fun reaches => here reaches.1.symm
          rw [outcome_of_not_reaches passes]
          exact g.channel?_put_of_ne here _
  | release w =>
      have reaches : Reaches id (.release w) := trivial
      rw [outcome_of_reaches reaches, apply, Guide.release, channel?, Table.get?_mapValues]
      change (g.channel? id).map _ = _
      cases g.channel? id with
      | none => rfl
      | some c =>
          rw [Option.map_some, ChannelGuide.release, found, Option.bind_some, revise]
          split
          next => rfl
          next outside =>
            rw [ChannelGuide.release, if_neg outside]
            rfl
  | note id' start recordId =>
      rw [apply, setRecord]
      by_cases here : id = id'
      · subst here
        have reaches : Reaches id (.note id start recordId) := rfl
        rw [outcome_of_reaches reaches]
        split
        next missing => rw [missing]; rfl
        next c there =>
          rw [there]
          exact g.channel?_put_self id _
      · have passes : ¬ Reaches id (.note id' start recordId) := fun reaches => here reaches.symm
        rw [outcome_of_not_reaches passes, Option.map_none, Option.none_or]
        split
        next => rfl
        next c _ => exact g.channel?_put_of_ne here _

theorem content_apply (e : Edit) (g : Guide) (id : String) :
    (e.apply g).content id = (e.outcome id (g.content id)).or (g.content id) := by
  rw [content, content, channel?_apply, outcome_content]
  cases e.outcome id (g.channel? id) <;> rfl

theorem channel?_apply_of_not_touches {e : Edit} {g : Guide} {id : String}
    (untouched : ¬ e.Touches g id) : (e.apply g).channel? id = g.channel? id := by
  have none : e.outcome id (g.channel? id) = none :=
    not_ne_iff.mp (mt (outcome_ne_none_iff e g id).mp untouched)
  rw [channel?_apply, none]
  rfl

/-- A touched channel is of the revision of the edit. -/
theorem revision_of_touches {e : Edit} {g : Guide} {id : String} (touches : e.Touches g id) :
    ∃ c, (e.apply g).channel? id = some c ∧ c.revision = g.nextRevision := by
  obtain ⟨c, made⟩ := Option.ne_none_iff_exists'.mp ((outcome_ne_none_iff e g id).mpr touches)
  exact ⟨_, by rw [channel?_apply, made]; rfl, rfl⟩

end Edit

/-- The guide after a series of edits. -/
def edited (g : Guide) (es : List Edit) : Guide := es.foldl Edit.apply g

/-- Whether a series of edits touches a channel. -/
def Touched (id : String) : Guide → List Edit → Prop
  | _, [] => False
  | g, e :: es => e.Touches g id ∨ Touched id (e.apply g) es

theorem edited_concat (g : Guide) (es : List Edit) (e : Edit) :
    g.edited (es ++ [e]) = e.apply (g.edited es) :=
  List.foldl_concat ..

theorem edited_append (g : Guide) (es es' : List Edit) :
    g.edited (es ++ es') = (g.edited es).edited es' :=
  List.foldl_append

theorem touched_concat (id : String) (g : Guide) (es : List Edit) (e : Edit) :
    Touched id g (es ++ [e]) ↔ Touched id g es ∨ e.Touches (g.edited es) id := by
  induction es generalizing g with
  | nil => simp [Touched, edited]
  | cons e' es ih =>
      rw [List.cons_append, Touched, Touched, ih, or_assoc]
      rfl

theorem channel?_edited_of_not_touched {id : String} {g : Guide} {es : List Edit}
    (untouched : ¬ Touched id g es) : (g.edited es).channel? id = g.channel? id := by
  induction es generalizing g with
  | nil => rfl
  | cons e es ih =>
      obtain ⟨first, rest⟩ := not_or.mp untouched
      exact (ih rest).trans (Edit.channel?_apply_of_not_touches first)

/-! ### Revisions -/

/-- No channel has the revision of an edit that is still to come. -/
def Numbered (g : Guide) : Prop := ∀ id c, g.channel? id = some c → c.revision < g.nextRevision

/-- A channel is of a revision from a number on. -/
def Since (n : Nat) (g : Guide) (id : String) : Prop :=
  ∃ c, g.channel? id = some c ∧ n ≤ c.revision

namespace Edit

theorem nextRevision_le_apply (e : Edit) (g : Guide) :
    g.nextRevision ≤ (e.apply g).nextRevision := by
  cases e with
  | merge id es =>
      rw [apply, Guide.merge]
      split
      · exact Nat.le_refl _
      · exact Nat.le_succ _
  | release w => exact Nat.le_succ _
  | note id start recordId =>
      rw [apply, setRecord]
      split
      · exact Nat.le_refl _
      · exact Nat.le_succ _

/-- An edit that touches a channel uses its revision up. -/
theorem nextRevision_lt_apply {e : Edit} {g : Guide} {id : String} (touches : e.Touches g id) :
    g.nextRevision < (e.apply g).nextRevision := by
  cases e with
  | merge id' es =>
      rw [apply, Guide.merge, if_neg touches.2]
      exact Nat.lt_succ_self _
  | release w => exact Nat.lt_succ_self _
  | note id' start recordId =>
      obtain ⟨rfl, there⟩ := touches
      rw [apply, setRecord]
      split
      next missing => exact absurd missing there
      next => exact Nat.lt_succ_self _

end Edit

theorem numbered_empty : Numbered {} := nofun

theorem Numbered.apply {g : Guide} (numbered : g.Numbered) (e : Edit) : (e.apply g).Numbered := by
  intro id c there
  by_cases touches : e.Touches g id
  · obtain ⟨c', there', same⟩ := Edit.revision_of_touches touches
    obtain rfl := Option.some.inj (there.symm.trans there')
    rw [same]
    exact Edit.nextRevision_lt_apply touches
  · rw [Edit.channel?_apply_of_not_touches touches] at there
    exact Nat.lt_of_lt_of_le (numbered id c there) (e.nextRevision_le_apply g)

theorem Numbered.edited {g : Guide} (numbered : g.Numbered) (es : List Edit) :
    (g.edited es).Numbered := by
  induction es generalizing g with
  | nil => exact numbered
  | cons e es ih => exact ih (numbered.apply e)

theorem Since.apply {n : Nat} {g : Guide} {id : String} (since : Since n g id)
    (le : n ≤ g.nextRevision) (e : Edit) : Since n (e.apply g) id := by
  by_cases touches : e.Touches g id
  · obtain ⟨c, there, same⟩ := Edit.revision_of_touches touches
    exact ⟨c, there, same ▸ le⟩
  · rw [Since, Edit.channel?_apply_of_not_touches touches]
    exact since

theorem Since.edited {n : Nat} {g : Guide} {id : String} (since : Since n g id)
    (le : n ≤ g.nextRevision) (es : List Edit) : Since n (g.edited es) id := by
  induction es generalizing g with
  | nil => exact since
  | cons e es ih => exact ih (since.apply le e) (Nat.le_trans le (e.nextRevision_le_apply g))

/-- Once touched, a channel is newer than it was. -/
theorem since_of_touched {n : Nat} {g : Guide} {id : String} {es : List Edit}
    (touched : Touched id g es) (le : n ≤ g.nextRevision) : Since n (g.edited es) id := by
  induction es generalizing g with
  | nil => exact touched.elim
  | cons e es ih =>
      have le' := Nat.le_trans le (e.nextRevision_le_apply g)
      rcases touched with touches | touched
      · obtain ⟨c, there, same⟩ := Edit.revision_of_touches touches
        exact Since.edited ⟨c, there, same ▸ le⟩ le' es
      · exact ih touched le'

theorem mem_shared_iff {g held : Guide} {id : String} : id ∈ g.shared held ↔
    ∃ c d, held.channel? id = some c ∧ g.channel? id = some d ∧ d.revision = c.revision := by
  simp only [shared, List.mem_map, List.mem_filter, Prod.exists, Option.any_eq_true, beq_iff_eq,
    Table.mem_entries_iff]
  constructor
  · rintro ⟨_, c, ⟨there, d, there', same⟩, rfl⟩
    exact ⟨c, d, there, there', same⟩
  · rintro ⟨c, d, there, there', same⟩
    exact ⟨id, c, ⟨there, d, there', same⟩, rfl⟩

/-- A guide shares with one that it was edited from the channels that were not touched since. -/
theorem Numbered.mem_shared_iff {held : Guide} (numbered : held.Numbered) (es : List Edit)
    (id : String) :
    id ∈ (held.edited es).shared held ↔ held.channel? id ≠ none ∧ ¬ Touched id held es := by
  rw [Guide.mem_shared_iff]
  constructor
  · rintro ⟨c, d, there, there', same⟩
    refine ⟨Option.ne_none_iff_exists'.mpr ⟨c, there⟩, fun touched => ?_⟩
    obtain ⟨d', found, newer⟩ := since_of_touched touched (Nat.le_refl held.nextRevision)
    obtain rfl := Option.some.inj (there'.symm.trans found)
    have older := numbered id c there
    omega
  · rintro ⟨there, untouched⟩
    obtain ⟨c, there⟩ := Option.ne_none_iff_exists'.mp there
    exact ⟨c, c, there, (channel?_edited_of_not_touched untouched).trans there, rfl⟩

/-! ### The edits of the store -/

/-- Broadcasts of several channels are merged one channel after the other. -/
theorem mergeAll_eq_edited (g : Guide) (parts : List (String × List GuideEntry)) :
    (g.mergeAll parts).2 = g.edited (parts.map fun part => .merge part.1 part.2) := by
  induction parts generalizing g with
  | nil => rfl
  | cons part rest ih => exact ih (g.merge part.1 part.2).2

end Guide

/-- A series of edits of the guide, published at once. -/
def Store.revise (s : Store) (es : List Guide.Edit) : Store :=
  (s.updateGuide fun g => ((), g.edited es)).2

@[simp] theorem Store.revise_guide (s : Store) (es : List Guide.Edit) :
    (s.revise es).guide = s.guide.edited es := rfl

/-- All that the backend ever does to the guide is a series of edits. -/
theorem Store.updateGuide_eq_revise (s : Store) :
    (∀ parts, (s.updateGuide (·.mergeAll parts)).2 =
      s.revise (parts.map fun part => .merge part.1 part.2)) ∧
    (∀ w, (s.updateGuide (·.release w)).2 = s.revise [.release w]) ∧
    ∀ id start recordId, (s.updateGuide fun g => ((), g.setRecord id start recordId)).2 =
      s.revise [.note id start recordId] := by
  refine ⟨fun parts => ?_, fun w => rfl, fun id start recordId => rfl⟩
  show { s with guide := (s.guide.mergeAll parts).2 } = _
  rw [Guide.mergeAll_eq_edited]
  rfl

end PvrBackend
