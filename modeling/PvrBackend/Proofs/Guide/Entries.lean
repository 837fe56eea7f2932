import PvrBackend.Proofs.Guide.Overrides

/-!
# What holds of every broadcast

A property of broadcasts holds all over a guide if it holds of each under the start where it
stands. Dropping broadcasts keeps it. Writing some keeps it if they have it, and noting a record
keeps it if the one broadcast that is changed still has it.
-/

namespace PvrBackend.Guide

/-- Every broadcast has a property, under the start where it stands. -/
def Every (P : Int → GuideEntry → Prop) (g : Guide) : Prop :=
  ∀ id start e, g.entry? id start = some e → P start e

variable {P : Int → GuideEntry → Prop} {g : Guide}

theorem every_empty : Every P {} := nofun

theorem Every.merge (every : g.Every P) (id : String) {es : List GuideEntry}
    (written : ∀ e ∈ es, P e.startTime e) : (g.merge id es).2.Every P := by
  intro id' start e there
  have merged := (g.view_merge id es id' start).symm.trans there
  split at merged
  next =>
    cases last : lastAt? es start with
    | some new =>
        rw [last, Option.some_or] at merged
        obtain rfl := Option.some.inj merged
        obtain ⟨mem, rfl⟩ := mem_of_lastAt? last
        exact written new mem
    | none =>
        rw [last, Option.none_or] at merged
        exact every id' start e merged
  next => exact every id' start e merged

theorem Every.mergeAll (every : g.Every P) {parts : List (String × List GuideEntry)}
    (written : ∀ part ∈ parts, ∀ e ∈ part.2, P e.startTime e) : (g.mergeAll parts).2.Every P := by
  induction parts generalizing g with
  | nil => exact every
  | cons part parts ih =>
      have first := every.merge part.1 (written part List.mem_cons_self)
      apply ih first
      intro part' mem
      exact written part' (List.mem_cons_of_mem _ mem)

theorem Every.release (every : g.Every P) (w : Window) : (g.release w).2.Every P := by
  intro id start e there
  have released := (g.view_release w id start).symm.trans there
  exact every id start e (Option.filter_eq_some_iff.mp released).1

theorem Every.setRecord (every : g.Every P) {id : String} {start : Int} {recordId : String}
    (noted : ∀ e, g.entry? id start = some e → P start { e with recordId := some recordId }) :
    (g.setRecord id start recordId).Every P := by
  intro id' start' e there
  have edited := (g.view_setRecord id start recordId id' start').symm.trans there
  split at edited
  next here =>
    obtain ⟨rfl, rfl⟩ := here
    obtain ⟨old, known, rfl⟩ := Option.map_eq_some_iff.mp edited
    exact noted old known
  next => exact every id' start' e edited

/-- The broadcasts of an answer are read from its events. -/
theorem exists_entryOf {channels : List Channel} {root : Json}
    {part : String × List GuideEntry} (listed : part ∈ ofAnswer channels root) {e : GuideEntry}
    (mem : e ∈ part.2) : ∃ c event, entryOf c event = some e := by
  obtain ⟨⟨id, events⟩, -, read⟩ := List.mem_filterMap.mp listed
  obtain ⟨c, -, rfl⟩ := Option.map_eq_some_iff.mp read
  obtain ⟨event, -, taken⟩ := List.mem_filterMap.mp mem
  exact ⟨c, event, taken⟩

end PvrBackend.Guide
