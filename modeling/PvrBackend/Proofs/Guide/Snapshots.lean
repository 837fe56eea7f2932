import Mathlib
import PvrBackend.Proofs.Guide.Cells

/-!
# Held guides

Whoever holds a guide is not disturbed by the edits that follow, and holding it costs no more than
these edits need. Both are stated of guides in memory. There is a map in use, to which edits are
made, and there are copies of it, held from some moment on until they are dropped. A copy shows at
any later time what the guide was at the moment. A channel of it lies in the same cell as that of
the map in use until an edit touches the channel, and from then on in another one. The revisions of
the guide tell the same of the two.

The store works in this way. It makes a copy of what is published, has the edits made to it and
publishes the outcome, and what was published before stays as long as a reader has it. So a reader
holds the version that it took.
-/

namespace PvrBackend

/-- A map in use, and copies of it that are held. A copy that was dropped leaves its place empty. -/
structure Desk where
  heap : Heap := .empty
  map : Refs := .empty
  held : List (Option Refs) := []

namespace Desk

/-- What is done at a desk. -/
inductive Step where
  | edit (e : Guide.Edit)
  | hold
  | drop (n : Nat)
deriving DecidableEq

/-- The copy at a place. -/
def held? (d : Desk) (n : Nat) : Option Refs := d.held[n]?.join

/-- Edit the map in use. -/
def edit (d : Desk) (e : Guide.Edit) : Desk :=
  let draft := Draft.edit ⟨d.heap, d.map⟩ e
  { d with heap := draft.heap, map := draft.map }

/-- Make a copy to hold. -/
def hold (d : Desk) : Desk := { d with heap := d.heap.copy d.map, held := d.held ++ [some d.map] }

/-- Drop a copy. -/
def drop (d : Desk) (n : Nat) : Desk :=
  match d.held? n with
  | none => d
  | some t => { d with heap := d.heap.drop t, held := d.held.set n none }

def step (d : Desk) : Step → Desk
  | .edit e => d.edit e
  | .hold => d.hold
  | .drop n => d.drop n

/-- The desk after steps, of which the first finds an empty map. -/
def run (steps : List Step) : Desk := steps.foldl step {}

/-- The edits among steps. -/
def edits (steps : List Step) : List Guide.Edit :=
  steps.filterMap fun
    | .edit e => some e
    | _ => none

/-- The guide after steps. -/
def guide (steps : List Step) : Guide := Guide.edited {} (edits steps)

/-! ### Desks that show a guide -/

/-- The heap counts the references of the map in use and of all that is held. -/
def Counted (d : Desk) : Prop := d.heap.Counted (d.map :: d.held.reduceOption)

/-- The map in use shows a guide. -/
structure Shows (d : Desk) (g : Guide) : Prop where
  counted : d.Counted
  shown : ∀ id, d.heap.shows d.map id = g.content id

/-- A held copy, since which edits were made. It shows what the guide was. A channel of it lies
where that of the map in use lies, until an edit touches it. -/
structure Holds (d : Desk) (t : Refs) (held : Guide) (es : List Guide.Edit) : Prop where
  content : ∀ id, d.heap.shows t id = held.content id
  current : ∀ id, d.heap.shows d.map id = (held.edited es).content id
  same : ∀ id, t.get? id ≠ none → (d.map.get? id = t.get? id ↔ ¬ Guide.Touched id held es)

theorem mem_reduceOption_of_held? {d : Desk} {n : Nat} {t : Refs} (there : d.held? n = some t) :
    t ∈ d.held.reduceOption :=
  List.reduceOption_mem_iff.mpr (List.mem_of_getElem? (Option.join_eq_some_iff.mp there))

theorem perm_reduceOption_set {maps : List (Option Refs)} {n : Nat} {t : Refs}
    (there : maps[n]? = some (some t)) :
    maps.reduceOption.Perm (t :: (maps.set n none).reduceOption) := by
  induction maps generalizing n with
  | nil => cases there
  | cons o maps ih =>
      cases n with
      | zero =>
          rw [List.getElem?_cons_zero, Option.some.injEq] at there
          subst there
          exact .refl _
      | succ n =>
          have rest := ih (n := n) there
          cases o with
          | none => exact rest
          | some o => exact (rest.cons o).trans (.swap t o _)

section Steps

variable {d : Desk} {n : Nat} {t : Refs} {g held : Guide} {es : List Guide.Edit}

@[simp] theorem map_drop (d : Desk) (n : Nat) : (d.drop n).map = d.map := by
  rw [drop]
  split <;> rfl

@[simp] theorem shows_drop (d : Desk) (n : Nat) : (d.drop n).heap.shows = d.heap.shows := by
  rw [drop]
  split <;> rfl

@[simp] theorem length_held_drop (d : Desk) (n : Nat) :
    (d.drop n).held.length = d.held.length := by
  rw [drop]
  split
  · rfl
  · exact List.length_set

theorem held?_drop_of_ne {m : Nat} (other : m ≠ n) : (d.drop m).held? n = d.held? n := by
  rw [drop]
  split
  · rfl
  · rw [held?, List.getElem?_set_ne other, held?]

theorem Counted.edited (counted : d.Counted) (e : Guide.Edit) :
    Draft.Edited d.held.reduceOption (fun id => e.outcome id (d.heap.shows d.map id))
      ⟨d.heap, d.map⟩ ⟨(d.edit e).heap, (d.edit e).map⟩ :=
  Draft.edit_edited (d := ⟨d.heap, d.map⟩) counted e

theorem Counted.hold (counted : d.Counted) : d.hold.Counted := by
  refine (Heap.Counted.copy counted).perm (.cons d.map ?_)
  rw [Desk.hold, List.reduceOption_append]
  exact (List.perm_append_singleton ..).symm

theorem Counted.drop (counted : d.Counted) (n : Nat) : (d.drop n).Counted := by
  rw [Desk.drop]
  split
  next => exact counted
  next t there =>
    have apart := perm_reduceOption_set (Option.join_eq_some_iff.mp there)
    exact (counted.perm ((apart.cons _).trans (.swap _ _ _))).drop

theorem shows_empty : Shows {} {} := ⟨Heap.Counted.empty, fun _ => rfl⟩

theorem Shows.edit (showing : d.Shows g) (e : Guide.Edit) : (d.edit e).Shows (e.apply g) := by
  have edited := showing.counted.edited e
  refine ⟨edited.counted, fun id => ?_⟩
  rw [Guide.Edit.content_apply, ← showing.shown]
  exact edited.shown id

theorem Shows.edits (showing : d.Shows g) (es : List Guide.Edit) :
    (es.foldl Desk.edit d).Shows (g.edited es) := by
  induction es generalizing d g with
  | nil => exact showing
  | cons e es ih => exact ih (showing.edit e)

theorem Shows.hold (showing : d.Shows g) : d.hold.Shows g := ⟨showing.counted.hold, showing.shown⟩

theorem Shows.drop (showing : d.Shows g) (n : Nat) : (d.drop n).Shows g := by
  refine ⟨showing.counted.drop n, fun id => ?_⟩
  rw [map_drop, shows_drop]
  exact showing.shown id

/-! ### What is held -/

/-- The map in use itself, as long as nothing is done to it. -/
theorem Shows.holds (showing : d.Shows g) : d.Holds d.map g [] :=
  ⟨showing.shown, showing.shown, fun _ _ => iff_of_true rfl not_false⟩

/-- What is held is not disturbed by an edit, and parts with a channel that the edit touches. -/
theorem Holds.edit (holds : d.Holds t held es) (counted : d.Counted)
    (mem : t ∈ d.held.reduceOption) (e : Guide.Edit) :
    (d.edit e).Holds t held (es ++ [e]) := by
  have edited := counted.edited e
  constructor
  case content =>
    intro id
    rw [← holds.content, ← edited.others t mem]
  case current =>
    rw [Guide.edited_concat]
    exact (Shows.edit ⟨counted, holds.current⟩ e).shown
  case same =>
    intro id there
    rw [Guide.touched_concat]
    have touches := e.outcome_ne_none_iff (held.edited es) id
    have outcome : e.outcome id (d.heap.shows d.map id) = none ↔
        e.outcome id ((held.edited es).channel? id) = none := by
      rw [holds.current, Guide.content, Guide.Edit.outcome_content, Option.map_eq_none_iff]
    by_cases none : e.outcome id (d.heap.shows d.map id) = none
    · have stays : (d.edit e).map.get? id = d.map.get? id := edited.kept id none
      have untouched := mt touches.mpr (not_ne_iff.mpr (outcome.mp none))
      rw [stays, holds.same id there, or_iff_left untouched]
    · have parts := touches.mp (mt outcome.mpr none)
      obtain ⟨a, lies⟩ := Option.ne_none_iff_exists'.mp there
      refine iff_of_false ?_ (not_not_intro (.inr parts))
      rw [lies]
      exact edited.apart id none t mem a lies

theorem Holds.drop (holds : d.Holds t held es) (n : Nat) : (d.drop n).Holds t held es := by
  constructor
  case content => simpa using holds.content
  case current => simpa using holds.current
  case same => simpa using holds.same

/-- The revisions of the guide tell which cells are shared. -/
theorem Holds.mem_shared_iff (holds : d.Holds t held es) (numbered : held.Numbered) (id : String) :
    id ∈ (held.edited es).shared held ↔ t.get? id ≠ none ∧ d.map.get? id = t.get? id := by
  have there : held.channel? id ≠ none ↔ t.get? id ≠ none := by
    have shown := holds.content id
    rw [Heap.shows, Guide.content] at shown
    rw [← Option.map_eq_none_iff.ne, ← shown, Option.map_eq_none_iff.ne]
  rw [numbered.mem_shared_iff, there]
  exact and_congr_right fun some => (holds.same id some).symm

/-- A copy is still held at a place. -/
def Keeps (d : Desk) (n : Nat) (held : Guide) (es : List Guide.Edit) : Prop :=
  d.Counted ∧ ∃ t, d.held? n = some t ∧ d.Holds t held es

theorem Keeps.lt_length (keeps : d.Keeps n held es) : n < d.held.length := by
  obtain ⟨_, t, there, _⟩ := keeps
  exact (List.getElem?_eq_some_iff.mp (Option.join_eq_some_iff.mp there)).1

/-- Holding the guide anew. -/
theorem Shows.keeps_hold (showing : d.Shows g) : d.hold.Keeps d.held.length g [] := by
  refine ⟨showing.hold.counted, d.map, ?_, showing.hold.holds⟩
  rw [held?, Desk.hold, List.getElem?_concat_length]
  rfl

theorem Keeps.edit (keeps : d.Keeps n held es) (e : Guide.Edit) :
    (d.edit e).Keeps n held (es ++ [e]) := by
  obtain ⟨counted, t, there, holds⟩ := keeps
  exact ⟨(counted.edited e).counted, t, there,
    holds.edit counted (mem_reduceOption_of_held? there) e⟩

theorem Keeps.edits (keeps : d.Keeps n held es) (es' : List Guide.Edit) :
    (es'.foldl Desk.edit d).Keeps n held (es ++ es') := by
  induction es' generalizing d es with
  | nil => rwa [List.append_nil]
  | cons e es' ih =>
      rw [List.append_cons]
      exact ih (keeps.edit e)

theorem Keeps.hold (keeps : d.Keeps n held es) : d.hold.Keeps n held es := by
  have lt := keeps.lt_length
  obtain ⟨counted, t, there, holds⟩ := keeps
  refine ⟨counted.hold, t, ?_, holds.content, holds.current, holds.same⟩
  rw [held?, Desk.hold, List.getElem?_append_left lt]
  exact there

theorem Keeps.drop (keeps : d.Keeps n held es) {m : Nat} (other : m ≠ n) :
    (d.drop m).Keeps n held es := by
  obtain ⟨counted, t, there, holds⟩ := keeps
  exact ⟨counted.drop m, t, (held?_drop_of_ne other).trans there, holds.drop m⟩

end Steps

/-! ### Runs -/

theorem edits_append (steps steps' : List Step) :
    edits (steps ++ steps') = edits steps ++ edits steps' :=
  List.filterMap_append

theorem Shows.step {d : Desk} {g : Guide} (showing : d.Shows g) (s : Step) :
    (d.step s).Shows (g.edited (Desk.edits [s])) := by
  cases s with
  | edit e => exact showing.edit e
  | hold => exact showing.hold
  | drop n => exact showing.drop n

/-- After any steps, the map in use shows the guide. -/
theorem run_shows (steps : List Step) : (run steps).Shows (guide steps) := by
  induction steps using List.reverseRecOn with
  | nil => exact shows_empty
  | append_singleton steps s ih =>
      rw [run, List.foldl_concat, guide, edits_append, Guide.edited_append]
      exact ih.step s

theorem Keeps.steps {d : Desk} {n : Nat} {held : Guide} {es : List Guide.Edit}
    (keeps : d.Keeps n held es) {steps : List Step} (kept : Step.drop n ∉ steps) :
    (steps.foldl step d).Keeps n held (es ++ Desk.edits steps) := by
  induction steps generalizing d es with
  | nil => rwa [Desk.edits, List.filterMap_nil, List.append_nil]
  | cons s steps ih =>
      obtain ⟨this, rest⟩ := not_or.mp (mt List.mem_cons.mpr kept)
      cases s with
      | edit e =>
          have later := ih (keeps.edit e) rest
          rwa [List.append_assoc] at later
      | hold => exact ih keeps.hold rest
      | drop m => exact ih (keeps.drop fun same => this (congrArg Step.drop same.symm)) rest

/-- A copy that is held, and not dropped, is kept. -/
theorem keeps_run (before : List Step) {after : List Step}
    (kept : Step.drop (run before).held.length ∉ after) :
    (run (before ++ .hold :: after)).Keeps (run before).held.length (guide before)
      (edits after) := by
  rw [run, List.foldl_append]
  exact (run_shows before).keeps_hold.steps kept

end Desk

/-! ### Versions of the store -/

/-- The versions of the guide that were published, the last one in use and those before it held, and
the numbers of the versions that readers have. A reader who let go of one leaves an empty place. -/
structure Shelf where
  desk : Desk := {}
  readers : List (Option Nat) := []

namespace Shelf

inductive Step where
  | take
  | letGo (i : Nat)
  | update (es : List Guide.Edit)
deriving DecidableEq

/-- A version by its number. -/
def version? (s : Shelf) (k : Nat) : Option Refs :=
  if k = s.desk.held.length then some s.desk.map else s.desk.held? k

/-- The number of the version that a reader has. -/
def number? (s : Shelf) (i : Nat) : Option Nat := s.readers[i]?.join

/-- The version that a reader has. -/
def reader? (s : Shelf) (i : Nat) : Option Refs := (s.number? i).bind s.version?

/-- Take the version that is in use. -/
def take (s : Shelf) : Shelf := { s with readers := s.readers ++ [some s.desk.held.length] }

/-- Let go of a version, and drop it if nobody else has it. -/
def letGo (s : Shelf) (i : Nat) : Shelf :=
  match s.number? i with
  | none => s
  | some k =>
    let readers := s.readers.set i none
    ⟨if some k ∈ readers then s.desk else s.desk.drop k, readers⟩

/-- Make a copy, edit it and publish it. The version before it is dropped unless a reader has it. -/
def update (s : Shelf) (es : List Guide.Edit) : Shelf :=
  let desk := es.foldl Desk.edit s.desk.hold
  let k := s.desk.held.length
  { s with desk := if some k ∈ s.readers then desk else desk.drop k }

def step (s : Shelf) : Step → Shelf
  | .take => s.take
  | .letGo i => s.letGo i
  | .update es => s.update es

/-- The shelf after steps, of which the first finds an empty guide. -/
def run (steps : List Step) : Shelf := steps.foldl step {}

/-- The edits among steps. -/
def edits (steps : List Step) : List Guide.Edit :=
  steps.flatMap fun
    | .update es => es
    | _ => []

/-- What a step does to the store. -/
def publish (s : Store) : Step → Store
  | .update es => s.revise es
  | _ => s

theorem publish_guide (s : Store) (a : Step) :
    (publish s a).guide = s.guide.edited (edits [a]) := by
  cases a with
  | update es => rw [publish, Store.revise_guide, edits, List.flatMap_singleton]
  | take => rfl
  | letGo i => rfl

theorem store_guide (s : Store) (steps : List Step) :
    (steps.foldl publish s).guide = s.guide.edited (edits steps) := by
  induction steps generalizing s with
  | nil => rfl
  | cons a steps ih =>
      rw [List.foldl_cons, ih, publish_guide, ← Guide.edited_append, edits, edits, edits,
        ← List.flatMap_append]
      rfl

section Steps

variable {s : Shelf} {i : Nat} {g held : Guide} {es : List Guide.Edit}

/-- The version in use shows the guide of the store. -/
theorem shows_step (showing : s.desk.Shows g) (a : Step) :
    (s.step a).desk.Shows (g.edited (edits [a])) := by
  cases a with
  | take => exact showing
  | letGo i =>
      rw [step, letGo]
      split
      next => exact showing
      next k _ =>
        dsimp only
        split
        · exact showing
        · exact showing.drop k
  | update es =>
      have edited := showing.hold.edits es
      rw [edits, List.flatMap_singleton, step, update]
      dsimp only
      split
      · exact edited
      · exact edited.drop _

theorem run_shows (steps : List Step) : (run steps).desk.Shows (Guide.edited {} (edits steps)) := by
  induction steps using List.reverseRecOn with
  | nil => exact Desk.shows_empty
  | append_singleton steps a ih =>
      rw [run, List.foldl_concat, edits, List.flatMap_append, Guide.edited_append]
      exact shows_step ih a

/-- A reader has a version, since which edits were made. It is in use as long as there are none. -/
def Has (s : Shelf) (i : Nat) (held : Guide) (es : List Guide.Edit) : Prop :=
  ∃ k, s.number? i = some k ∧
    (k = s.desk.held.length ∧ es = [] ∧ s.desk.Shows held ∨ s.desk.Keeps k held es)

theorem lt_length_of_number? {k : Nat} (there : s.number? i = some k) : i < s.readers.length :=
  (List.getElem?_eq_some_iff.mp (Option.join_eq_some_iff.mp there)).1

theorem mem_of_number? {k : Nat} (there : s.number? i = some k) : some k ∈ s.readers :=
  List.mem_of_getElem? (Option.join_eq_some_iff.mp there)

theorem has_take (showing : s.desk.Shows g) : s.take.Has s.readers.length g [] := by
  refine ⟨s.desk.held.length, ?_, .inl ⟨rfl, rfl, showing⟩⟩
  rw [number?, take, List.getElem?_concat_length]
  rfl

theorem Has.take (has : s.Has i held es) : s.take.Has i held es := by
  obtain ⟨k, there, version⟩ := has
  refine ⟨k, ?_, version⟩
  rw [number?, Shelf.take, List.getElem?_append_left (lt_length_of_number? there)]
  exact there

theorem Has.letGo (has : s.Has i held es) {j : Nat} (other : j ≠ i) :
    (s.letGo j).Has i held es := by
  obtain ⟨k, there, version⟩ := has
  rw [Shelf.letGo]
  split
  next => exact ⟨k, there, version⟩
  next m _ =>
    have there' : (s.readers.set j none)[i]?.join = some k := by
      rw [List.getElem?_set_ne other]
      exact there
    refine ⟨k, there', ?_⟩
    dsimp only
    split
    next => exact version
    next nobody =>
      have ne : m ≠ k := by
        rintro rfl
        exact nobody (List.mem_of_getElem? (Option.join_eq_some_iff.mp there'))
      rcases version with ⟨rfl, none, showing⟩ | keeps
      · exact .inl ⟨(Desk.length_held_drop ..).symm, none, showing.drop m⟩
      · exact .inr (keeps.drop ne)

theorem Has.update (has : s.Has i held es) (es' : List Guide.Edit) :
    (s.update es').Has i held (es ++ es') := by
  obtain ⟨k, there, version⟩ := has
  refine ⟨k, there, .inr ?_⟩
  rw [Shelf.update]
  dsimp only
  rcases version with ⟨rfl, rfl, showing⟩ | keeps
  · rw [if_pos (mem_of_number? there)]
    exact showing.keeps_hold.edits es'
  · have edited := keeps.hold.edits es'
    split
    · exact edited
    · exact edited.drop keeps.lt_length.ne'

theorem Has.steps (has : s.Has i held es) {steps : List Step} (kept : Step.letGo i ∉ steps) :
    (steps.foldl step s).Has i held (es ++ Shelf.edits steps) := by
  induction steps generalizing s es with
  | nil => rwa [Shelf.edits, List.flatMap_nil, List.append_nil]
  | cons a steps ih =>
      obtain ⟨this, rest⟩ := not_or.mp (mt List.mem_cons.mpr kept)
      cases a with
      | take => exact ih has.take rest
      | letGo j => exact ih (has.letGo fun same => this (congrArg Step.letGo same.symm)) rest
      | update es' =>
          have later := ih (has.update es') rest
          rwa [List.append_assoc] at later

theorem Has.holds (has : s.Has i held es) :
    ∃ t, s.reader? i = some t ∧ s.desk.Holds t held es := by
  obtain ⟨k, there, version⟩ := has
  rw [reader?, there, Option.bind_some, version?]
  rcases version with ⟨rfl, rfl, showing⟩ | keeps
  · exact ⟨_, if_pos rfl, showing.holds⟩
  · rw [if_neg keeps.lt_length.ne]
    exact keeps.2

end Steps

/-- A version that is taken, and not let go of, is had. -/
theorem has_run (before : List Step) {after : List Step}
    (kept : Step.letGo (run before).readers.length ∉ after) :
    (run (before ++ .take :: after)).Has (run before).readers.length
      (Guide.edited {} (edits before)) (edits after) := by
  rw [run, List.foldl_append]
  exact (has_take (run_shows before)).steps kept

end Shelf

/-! ### Exact copies on write -/

/-- Whoever holds a guide keeps it as it was, and shares with the one in use the channels that no
edit has touched since, and only these, whatever else is held, dropped and edited in between. That
is so of a copy, and of a version of the store that a reader took. -/
theorem held_guides_exact :
    (∀ before after : List Desk.Step, .drop (Desk.run before).held.length ∉ after →
      let d := Desk.run (before ++ .hold :: after)
      let held := Desk.guide before
      let g := Desk.guide (before ++ .hold :: after)
      ∃ t, d.held? (Desk.run before).held.length = some t ∧ d.Holds t held (Desk.edits after) ∧
        (∀ id, d.heap.shows d.map id = g.content id) ∧
        ∀ id, id ∈ g.shared held ↔ t.get? id ≠ none ∧ d.map.get? id = t.get? id) ∧
    ∀ (futureDays pastDays now : Int) (before after : List Shelf.Step),
      .letGo (Shelf.run before).readers.length ∉ after →
      let s := Shelf.run (before ++ .take :: after)
      let start := Store.start futureDays pastDays now
      let held := (before.foldl Shelf.publish start).guide
      let g := ((before ++ .take :: after).foldl Shelf.publish start).guide
      ∃ t, s.reader? (Shelf.run before).readers.length = some t ∧
        s.desk.Holds t held (Shelf.edits after) ∧
        (∀ id, s.desk.heap.shows s.desk.map id = g.content id) ∧
        ∀ id, id ∈ g.shared held ↔ t.get? id ≠ none ∧ s.desk.map.get? id = t.get? id := by
  refine ⟨fun before after kept => ?_, fun futureDays pastDays now before after kept => ?_⟩
  · obtain ⟨_, t, there, holds⟩ := Desk.keeps_run before kept
    have later : Desk.guide (before ++ .hold :: after) =
        (Desk.guide before).edited (Desk.edits after) := by
      rw [Desk.guide, Desk.edits_append, Guide.edited_append]
      rfl
    dsimp only
    rw [later]
    exact ⟨t, there, holds, holds.current, holds.mem_shared_iff (Guide.numbered_empty.edited _)⟩
  · obtain ⟨t, there, holds⟩ := (Shelf.has_run before kept).holds
    have first : (Store.start futureDays pastDays now).guide = {} := rfl
    have later : Shelf.edits (before ++ .take :: after) =
        Shelf.edits before ++ Shelf.edits after := List.flatMap_append
    dsimp only
    rw [Shelf.store_guide, Shelf.store_guide, first, later, Guide.edited_append]
    exact ⟨t, there, holds, holds.current, holds.mem_shared_iff (Guide.numbered_empty.edited _)⟩

/-- A broadcast from a start time on. -/
def GuideEntry.airing (title : String) (start : Int) : GuideEntry :=
  { title, startTime := start, endTime := start + 100 }

/-- Two holders, one of them after the first edit of a channel. Then a window drops a broadcast of
the other channel. -/
theorem held_guides_exact_twice :
    let first : List Desk.Step :=
      [.edit (.merge "ct1" [.airing "News" 100]), .edit (.merge "ct2" [.airing "Film" 900])]
    let rest : List Desk.Step :=
      [.edit (.merge "ct1" [.airing "Sport" 200]), .hold, .edit (.release ⟨0, 500⟩)]
    let d := Desk.run (first ++ .hold :: rest)
    (∃ t, d.held? 0 = some t ∧ d.Holds t (Desk.guide first) (Desk.edits rest)) ∧
    (∃ t, (Shelf.run [.take, .update (Desk.edits first)]).reader? 0 = some t ∧
      (Shelf.run [.take, .update (Desk.edits first)]).desk.Holds t {} (Desk.edits first)) ∧
    d.held.map (·.map fun t => t.keys.filter fun id => d.map.get? id = t.get? id) =
      [some [], some ["ct1"]] := by
  refine ⟨?_, ?_, by decide +kernel⟩
  · obtain ⟨t, there, holds, _⟩ := held_guides_exact.1
      [.edit (.merge "ct1" [.airing "News" 100]), .edit (.merge "ct2" [.airing "Film" 900])]
      [.edit (.merge "ct1" [.airing "Sport" 200]), .hold, .edit (.release ⟨0, 500⟩)] (by decide)
    exact ⟨t, there, holds⟩
  · obtain ⟨t, there, holds, _⟩ := held_guides_exact.2 7 1 0 []
      [.update [.merge "ct1" [.airing "News" 100], .merge "ct2" [.airing "Film" 900]]] (by decide)
    exact ⟨t, there, holds⟩

end PvrBackend
