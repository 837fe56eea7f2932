import Mathlib
import PvrBackend.Proofs.Guide.Sharing

/-!
# Guides in memory

A guide that is copied to be held should not be copied in full. So in memory a guide is a map of
references: what a channel has on lies in a cell, and other maps may refer to the cell as well. A
cell counts its references. Who wants to change a channel looks at the count first. A cell that
nobody else refers to is changed in place; any other stays, and a changed copy of it is put into the
map instead.

An edit is seen in one map among all that are in use. It does to what that map shows what it does to
a guide, no other map shows anything else than before, and a channel that the edit changed lies in
no cell of another map any more.
-/

namespace PvrBackend

/-! ### Cells and references -/

/-- The channels of a guide in memory, with the cells that they lie in. -/
abbrev Refs := Table String Nat

/-- Cells under their addresses, and the number of references to each. -/
structure Heap where
  cells : Nat → ChannelGuide
  refs : Nat → Nat
  /-- No cell was made here or behind it. -/
  next : Nat

namespace Heap

/-- A heap without cells. -/
def empty : Heap := ⟨fun _ => { id := "" }, fun _ => 0, 0⟩

/-- What a map shows of a channel. -/
def shows (h : Heap) (t : Refs) (id : String) : Option ChannelGuide := (t.get? id).map h.cells

/-- Make a cell, which one reference is to. -/
def make (h : Heap) (c : ChannelGuide) : Heap where
  cells := Function.update h.cells h.next c
  refs := Function.update h.refs h.next 1
  next := h.next + 1

/-- Give up a reference to a cell. -/
def letGo (h : Heap) (a : Nat) : Heap :=
  { h with refs := Function.update h.refs a (h.refs a - 1) }

/-- Change a cell through one of its references, in place if it is the only one. Where the reference
points to from then on. -/
def change (h : Heap) (a : Nat) (c : ChannelGuide) : Heap × Nat :=
  if h.refs a = 1 then ({ h with cells := Function.update h.cells a c }, a)
  else ((h.letGo a).make c, h.next)

/-- Copy a map: one more reference to each of its cells. -/
def copy (h : Heap) (t : Refs) : Heap := { h with refs := fun a => h.refs a + t.values.count a }

/-- Drop a map. -/
def drop (h : Heap) (t : Refs) : Heap := { h with refs := fun a => h.refs a - t.values.count a }

end Heap

/-- A map that is edited, with the heap that its cells are in. -/
structure Draft where
  heap : Heap
  map : Refs

namespace Draft

/-- What it shows of a channel. -/
def shows (d : Draft) : String → Option ChannelGuide := d.heap.shows d.map

/-- Have the channel under an id, if need be one that has nothing on. -/
def enter (d : Draft) (id : String) : Draft :=
  match d.map.get? id with
  | some _ => d
  | none => ⟨d.heap.make { id }, d.map.insert id d.heap.next⟩

/-- Change the channel under an id, if it is there and there is anything to change. -/
def visit (revise : ChannelGuide → Option ChannelGuide) (d : Draft) (id : String) : Draft :=
  match d.map.get? id with
  | none => d
  | some a =>
    match revise (d.heap.cells a) with
    | none => d
    | some c => ⟨(d.heap.change a c).1, d.map.insert id (d.heap.change a c).2⟩

/-- Edit a guide in memory. -/
def edit (d : Draft) : Guide.Edit → Draft
  | .merge id es =>
    if es = [] then d else (d.enter id).visit (Guide.Edit.revise · (.merge id es)) id
  | .release w => d.map.keys.foldl (visit (Guide.Edit.revise · (.release w))) d
  | .note id start recordId => d.visit (Guide.Edit.revise · (.note id start recordId)) id

end Draft

/-! ### References that are counted -/

/-- Every reference of the maps in use is counted, and no cell is that of two channels. -/
structure Heap.Counted (h : Heap) (maps : List Refs) : Prop where
  refs : ∀ a, h.refs a = (maps.map fun t => t.values.count a).sum
  named : ∀ t ∈ maps, ∀ id a, t.get? id = some a → (h.cells a).id = id
  below : ∀ t ∈ maps, ∀ id a, t.get? id = some a → a < h.next

namespace Table

variable {κ α : Type} [Ord κ] [Std.LawfulEqOrd κ]

theorem nodup_keys (t : Table κ α) : t.keys.Nodup := by
  rw [keys, List.Nodup, List.pairwise_map]
  refine t.ascending.imp fun below same => ?_
  rw [same, Std.LawfulEqOrd.compare_eq_iff_eq.mpr rfl] at below
  cases below

variable [BEq κ] [LawfulBEq κ]

theorem look_eq_none_of_lt {key : κ} {entries : List (κ × α)}
    (above : ∀ e ∈ entries, compare key e.1 = .lt) : look key entries = none := by
  rw [Option.eq_none_iff_forall_ne_some]
  intro value found
  have below := above _ (mem_of_look found)
  rw [Std.LawfulEqOrd.compare_eq_iff_eq.mpr rfl] at below
  cases below

variable [Std.TransOrd κ] [DecidableEq α]

/-- A value that is written takes the place of the one under its key. -/
theorem count_put {entries : List (κ × α)} (ascending : Ascending entries) (key : κ)
    (value a : α) :
    ((put key value entries).map (·.2)).count a + (if look key entries = some a then 1 else 0) =
      (entries.map (·.2)).count a + if value = a then 1 else 0 := by
  induction entries with
  | nil => simp [look, List.count_cons]
  | cons head rest ih =>
      obtain ⟨k, b⟩ := head
      obtain ⟨below, ascending'⟩ := List.pairwise_cons.mp ascending
      rw [put]
      cases order : compare key k with
      | lt =>
          have missing : look key ((k, b) :: rest) = none := by
            apply look_eq_none_of_lt
            intro e mem
            rcases List.mem_cons.mp mem with rfl | mem
            · exact order
            · exact Std.TransCmp.lt_trans order (below e mem)
          simp [missing, List.count_cons]
      | eq =>
          obtain rfl := Std.LawfulEqCmp.eq_of_compare order
          simp only [look, beq_self_eq_true, if_true, List.map_cons, List.count_cons, beq_iff_eq,
            Option.some.injEq]
          omega
      | gt =>
          have other : (k == key) = false := by
            rw [beq_eq_false_iff_ne]
            rintro rfl
            rw [Std.LawfulEqOrd.compare_eq_iff_eq.mpr rfl] at order
            cases order
          have rest := ih ascending'
          simp only [look, other, List.map_cons, List.count_cons]
          simp only [Bool.false_eq_true, if_false]
          omega

theorem count_insert (t : Table κ α) (key : κ) (value a : α) :
    (t.insert key value).values.count a + (if t.get? key = some a then 1 else 0) =
      t.values.count a + if value = a then 1 else 0 :=
  count_put t.ascending key value a

end Table

theorem Refs.count_pos {t : Refs} {id : String} {a : Nat} (there : t.get? id = some a) :
    0 < t.values.count a :=
  List.count_pos_iff.mpr (Table.mem_values_iff.mpr ⟨id, there⟩)

namespace Heap.Counted

variable {h : Heap} {t t' : Refs} {os : List Refs}

theorem empty : Heap.empty.Counted [Table.empty] := by
  have missing : ∀ t ∈ [(Table.empty : Refs)], ∀ id a, t.get? id ≠ some a := by
    intro t mem id a there
    rw [List.mem_singleton.mp mem, Table.get?_empty] at there
    cases there
  exact ⟨fun _ => rfl, fun t mem id a there => absurd there (missing t mem id a),
    fun t mem id a there => absurd there (missing t mem id a)⟩

/-- The order of the maps does not matter. -/
theorem perm {maps maps' : List Refs} (counted : h.Counted maps) (same : maps.Perm maps') :
    h.Counted maps' := by
  refine ⟨fun a => ?_, fun t mem => ?_, fun t mem => ?_⟩
  · rw [counted.refs a, (same.map _).sum_eq]
  · exact counted.named t (same.mem_iff.mpr mem)
  · exact counted.below t (same.mem_iff.mpr mem)

theorem refs_cons (counted : h.Counted (t :: os)) (a : Nat) :
    h.refs a = t.values.count a + (os.map fun o => o.values.count a).sum := by
  rw [counted.refs a, List.map_cons, List.sum_cons]

/-- Copying a map and dropping one keep the count. -/
theorem copy (counted : h.Counted (t :: os)) : (h.copy t).Counted (t :: t :: os) := by
  refine ⟨fun a => ?_, fun t' mem => counted.named t' ?_, fun t' mem => counted.below t' ?_⟩
  · show h.refs a + t.values.count a = _
    rw [counted.refs_cons, List.map_cons, List.map_cons, List.sum_cons, List.sum_cons]
    omega
  all_goals simpa using mem

theorem drop (counted : h.Counted (t :: os)) : (h.drop t).Counted os := by
  refine ⟨fun a => ?_, fun t' mem => counted.named t' (List.mem_cons_of_mem _ mem),
    fun t' mem => counted.below t' (List.mem_cons_of_mem _ mem)⟩
  show h.refs a - t.values.count a = _
  rw [counted.refs_cons, Nat.add_sub_cancel_left]

/-- No cell that is still to be made is referred to. -/
theorem count_next (counted : h.Counted (t :: os)) :
    t.values.count h.next = 0 ∧ (os.map fun o => o.values.count h.next).sum = 0 := by
  have unused : ∀ o ∈ t :: os, o.values.count h.next = 0 := by
    intro o mem
    rw [List.count_eq_zero, Table.mem_values_iff]
    rintro ⟨id, there⟩
    exact Nat.lt_irrefl _ (counted.below o mem id _ there)
  refine ⟨unused t List.mem_cons_self, List.sum_eq_zero ?_⟩
  intro n mem
  obtain ⟨o, listed, rfl⟩ := List.mem_map.mp mem
  exact unused o (List.mem_cons_of_mem _ listed)

/-- A cell that another map refers to has a reference more than one's own. -/
theorem refs_ne_one (counted : h.Counted (t :: os)) {id id' : String} {a : Nat}
    (there : t.get? id = some a) {o : Refs} (mem : o ∈ os) (shared : o.get? id' = some a) :
    h.refs a ≠ 1 := by
  have own := Refs.count_pos there
  have other := Refs.count_pos shared
  have part : o.values.count a ≤ (os.map fun o => o.values.count a).sum :=
    List.le_sum_of_mem (List.mem_map_of_mem mem)
  rw [counted.refs_cons]
  omega

end Heap.Counted

/-! ### Changing one channel -/

/-- A channel of a map was changed, or added: it lies in this cell from then on, which no other map
refers to, and all other cells that are referred to are what they were. -/
structure Heap.Changed (h : Heap) (t : Refs) (os : List Refs) (id : String) (c : ChannelGuide)
    (h' : Heap) (b : Nat) : Prop where
  counted : h'.Counted (t.insert id b :: os)
  written : h'.cells b = c
  others : ∀ o ∈ os, ∀ id' a, o.get? id' = some a → h'.cells a = h.cells a
  rest : ∀ id', id' ≠ id → ∀ a, t.get? id' = some a → h'.cells a = h.cells a
  apart : ∀ o ∈ os, o.get? id ≠ some b

namespace Heap

variable {h h' : Heap} {t : Refs} {os : List Refs} {id : String} {a b : Nat} {c : ChannelGuide}

/-- The references are those to the cells that were there, and one to the cell of the channel. -/
theorem Counted.insert (counted : h.Counted (t :: os))
    (refs : ∀ x,
      h'.refs x = (t.insert id b).values.count x + (os.map fun o => o.values.count x).sum)
    (named : (h'.cells b).id = id) (below : b < h'.next) (grows : h.next ≤ h'.next)
    (others : ∀ o ∈ os, ∀ id' a, o.get? id' = some a → h'.cells a = h.cells a)
    (rest : ∀ id', id' ≠ id → ∀ a, t.get? id' = some a → h'.cells a = h.cells a) :
    h'.Counted (t.insert id b :: os) := by
  have known : ∀ o ∈ t.insert id b :: os, ∀ id' a, o.get? id' = some a →
      (h'.cells a).id = id' ∧ a < h'.next := by
    intro o mem id' a there
    rcases List.mem_cons.mp mem with rfl | mem
    · by_cases here : id' = id
      · rw [here, Table.get?_insert_self] at there
        obtain rfl := Option.some.inj there
        exact ⟨here ▸ named, below⟩
      · rw [t.get?_insert_of_ne here] at there
        rw [rest id' here a there]
        exact ⟨counted.named t List.mem_cons_self id' a there,
          Nat.lt_of_lt_of_le (counted.below t List.mem_cons_self id' a there) grows⟩
    · have mem' := List.mem_cons_of_mem t mem
      rw [others o mem id' a there]
      exact ⟨counted.named o mem' id' a there,
        Nat.lt_of_lt_of_le (counted.below o mem' id' a there) grows⟩
  exact ⟨refs, fun o mem id' a there => (known o mem id' a there).1,
    fun o mem id' a there => (known o mem id' a there).2⟩

/-- In a new cell a channel is apart from all other maps. -/
theorem Counted.fresh (counted : h.Counted (t :: os)) (named : c.id = id)
    (cells : h'.cells = Function.update h.cells h.next c) (next : h'.next = h.next + 1)
    (refs : ∀ x, h'.refs x =
      (t.insert id h.next).values.count x + (os.map fun o => o.values.count x).sum) :
    h.Changed t os id c h' h.next := by
  have written : h'.cells h.next = c := by rw [cells, Function.update_self]
  have older : ∀ o ∈ t :: os, ∀ id' a, o.get? id' = some a → h'.cells a = h.cells a := by
    intro o mem id' a there
    rw [cells, Function.update_of_ne (Nat.ne_of_lt (counted.below o mem id' a there))]
  have others := fun o mem => older o (List.mem_cons_of_mem t mem)
  have rest := fun id' (_ : id' ≠ id) => older t List.mem_cons_self id'
  refine ⟨?_, written, others, rest, fun o mem there => ?_⟩
  · exact counted.insert refs (written ▸ named) (by omega) (by omega) others rest
  · exact Nat.lt_irrefl _ (counted.below o (List.mem_cons_of_mem t mem) id _ there)

/-- A cell is made for a channel that a map does not have. -/
theorem Counted.make (counted : h.Counted (t :: os)) (missing : t.get? id = none)
    (named : c.id = id) : h.Changed t os id c (h.make c) h.next := by
  refine counted.fresh named rfl rfl fun x => ?_
  have inserted := t.count_insert id h.next x
  rw [missing, if_neg nofun] at inserted
  obtain ⟨own, other⟩ := counted.count_next
  rw [Heap.make]
  dsimp only
  by_cases here : x = h.next
  · subst here
    rw [Function.update_self]
    rw [if_pos rfl] at inserted
    omega
  · rw [Function.update_of_ne here, counted.refs_cons]
    rw [if_neg (Ne.symm here)] at inserted
    omega

/-- A copy takes the place of a cell, which loses a reference. -/
theorem Counted.replace (counted : h.Counted (t :: os)) (there : t.get? id = some a)
    (named : c.id = id) : h.Changed t os id c ((h.letGo a).make c) h.next := by
  refine counted.fresh named rfl rfl fun x => ?_
  have inserted := t.count_insert id h.next x
  rw [there] at inserted
  simp only [Option.some.injEq] at inserted
  obtain ⟨own, other⟩ := counted.count_next
  have older : a ≠ h.next := Nat.ne_of_lt (counted.below t List.mem_cons_self id a there)
  have held := Refs.count_pos there
  show Function.update (Function.update h.refs a (h.refs a - 1)) h.next 1 x = _
  by_cases here : x = h.next
  · subst here
    rw [Function.update_self]
    rw [if_neg older, if_pos rfl] at inserted
    omega
  · rw [Function.update_of_ne here]
    rw [if_neg (Ne.symm here)] at inserted
    by_cases old : x = a
    · subst old
      rw [Function.update_self, counted.refs_cons]
      rw [if_pos rfl] at inserted
      omega
    · rw [Function.update_of_ne old, counted.refs_cons]
      rw [if_neg (Ne.symm old)] at inserted
      omega

/-- A cell with a single reference is changed in place. -/
theorem Counted.overwrite (counted : h.Counted (t :: os)) (there : t.get? id = some a)
    (named : c.id = id) (single : h.refs a = 1) :
    h.Changed t os id c { h with cells := Function.update h.cells a c } a := by
  have written : Function.update h.cells a c a = c := Function.update_self ..
  have alone : ∀ o ∈ os, ∀ id', o.get? id' ≠ some a := fun o mem id' shared =>
    counted.refs_ne_one there mem shared single
  have others : ∀ o ∈ os, ∀ id' x, o.get? id' = some x →
      Function.update h.cells a c x = h.cells x := by
    intro o mem id' x found
    refine Function.update_of_ne ?_ ..
    rintro rfl
    exact alone o mem id' found
  have rest : ∀ id', id' ≠ id → ∀ x, t.get? id' = some x →
      Function.update h.cells a c x = h.cells x := by
    intro id' other x found
    refine Function.update_of_ne ?_ ..
    rintro rfl
    -- a cell knows the id that it is under
    have name := counted.named t List.mem_cons_self
    exact other ((name id' x found).symm.trans (name id x there))
  refine ⟨?_, written, others, rest, fun o mem => alone o mem id⟩
  refine counted.insert (fun x => ?_) ((congrArg ChannelGuide.id written).trans named)
    (counted.below t List.mem_cons_self id a there) (Nat.le_refl _) others rest
  have inserted := t.count_insert id a x
  rw [there] at inserted
  simp only [Option.some.injEq] at inserted
  rw [counted.refs_cons]
  omega

theorem Counted.change (counted : h.Counted (t :: os)) (there : t.get? id = some a)
    (named : c.id = id) : h.Changed t os id c (h.change a c).1 (h.change a c).2 := by
  rw [Heap.change]
  split
  next single => exact counted.overwrite there named single
  next => exact counted.replace there named

end Heap

/-! ### Edits in memory -/

/-- What an edit does to a map among others: a channel for which it has an outcome shows that, and
lies in no cell of another map; every other channel stays where it was. -/
structure Draft.Edited (os : List Refs) (out : String → Option ChannelGuide) (d d' : Draft) :
    Prop where
  counted : d'.heap.Counted (d'.map :: os)
  others : ∀ o ∈ os, d'.heap.shows o = d.heap.shows o
  shown : ∀ id, d'.shows id = (out id).or (d.shows id)
  kept : ∀ id, out id = none → d'.map.get? id = d.map.get? id
  apart : ∀ id, out id ≠ none → ∀ o ∈ os, ∀ a, o.get? id = some a → d'.map.get? id ≠ some a

/-- A map shows the same if its cells are the same. -/
theorem Heap.shows_congr {h h' : Heap} {t : Refs} {id : String}
    (same : ∀ a, t.get? id = some a → h'.cells a = h.cells a) : h'.shows t id = h.shows t id := by
  rw [shows, shows]
  cases there : t.get? id with
  | none => rfl
  | some a => rw [Option.map_some, Option.map_some, same a there]

theorem Heap.Changed.edited {d : Draft} {os : List Refs} {id : String} {c : ChannelGuide}
    {h' : Heap} {b : Nat} (changed : d.heap.Changed d.map os id c h' b) :
    d.Edited os (fun id' => if id' = id then some c else none) ⟨h', d.map.insert id b⟩ := by
  constructor
  case counted => exact changed.counted
  case others =>
    intro o mem
    funext id'
    exact Heap.shows_congr (changed.others o mem id')
  case shown =>
    intro id'
    by_cases here : id' = id
    · rw [if_pos here, Draft.shows, Heap.shows, here, Table.get?_insert_self, Option.map_some,
        changed.written, Option.some_or]
    · rw [if_neg here, Option.none_or, Draft.shows, Heap.shows, d.map.get?_insert_of_ne here]
      exact Heap.shows_congr (changed.rest id' here)
  case kept =>
    intro id' out
    refine d.map.get?_insert_of_ne ?_ b
    rintro rfl
    simp at out
  case apart =>
    intro id' out o mem a there same
    obtain rfl : id' = id := by
      by_contra other
      exact out (if_neg other)
    rw [Table.get?_insert_self] at same
    exact changed.apart o mem (there.trans same.symm)

namespace Draft

variable {os : List Refs} {out out' : String → Option ChannelGuide} {d d' d'' : Draft}

theorem Edited.refl (counted : d.heap.Counted (d.map :: os)) : d.Edited os (fun _ => none) d :=
  ⟨counted, fun _ _ => rfl, fun _ => rfl, fun _ _ => rfl, fun _ out => absurd rfl out⟩

theorem Edited.congr (edited : d.Edited os out d') (same : ∀ id, out id = out' id) :
    d.Edited os out' d' :=
  funext same ▸ edited

/-- Of two edits of a channel the later one shows. -/
theorem Edited.trans (first : d.Edited os out d') (second : d'.Edited os out' d'') :
    d.Edited os (fun id => (out' id).or (out id)) d'' := by
  constructor
  case counted => exact second.counted
  case others =>
    intro o mem
    rw [second.others o mem, first.others o mem]
  case shown =>
    intro id
    rw [second.shown, first.shown, Option.or_assoc]
  case kept =>
    intro id none
    obtain ⟨later, earlier⟩ := Option.or_eq_none_iff.mp none
    rw [second.kept id later, first.kept id earlier]
  case apart =>
    intro id some o mem a there
    by_cases later : out' id = none
    · rw [second.kept id later]
      rw [later, Option.none_or] at some
      exact first.apart id some o mem a there
    · exact second.apart id later o mem a there

theorem shows_eq_of_get? {id : String} {a : Nat} (there : d.map.get? id = some a) :
    d.shows id = some (d.heap.cells a) := by
  rw [shows, Heap.shows, there, Option.map_some]

theorem shows_eq_none {id : String} (missing : d.map.get? id = none) : d.shows id = none := by
  rw [shows, Heap.shows, missing, Option.map_none]

theorem enter_edited (counted : d.heap.Counted (d.map :: os)) (id : String) :
    d.Edited os (fun id' => if id' = id ∧ d.shows id = none then some { id } else none)
      (d.enter id) := by
  rw [enter]
  split
  next a there =>
    refine (Edited.refl counted).congr fun id' => (if_neg ?_).symm
    rw [shows_eq_of_get? there]
    exact fun both => nomatch both.2
  next missing =>
    refine (counted.make missing rfl).edited.congr fun id' => ?_
    rw [shows_eq_none missing]
    simp only [and_true]

theorem visit_edited (counted : d.heap.Counted (d.map :: os))
    {revise : ChannelGuide → Option ChannelGuide}
    (named : ∀ c c', revise c = some c' → c'.id = c.id) (id : String) :
    d.Edited os (fun id' => if id' = id then (d.shows id).bind revise else none)
      (d.visit revise id) := by
  rw [visit]
  split
  next missing =>
    refine (Edited.refl counted).congr fun id' => ?_
    rw [shows_eq_none missing, Option.bind_none, ite_self]
  next a there =>
    rw [shows_eq_of_get? there, Option.bind_some]
    split
    next untouched =>
      refine (Edited.refl counted).congr fun id' => ?_
      rw [untouched, ite_self]
    next c revised =>
      rw [revised]
      have name := counted.named _ List.mem_cons_self id a there
      exact (counted.change there ((named _ c revised).trans name)).edited

/-- Going through channels changes each of them by itself. -/
theorem sweep_edited {revise : ChannelGuide → Option ChannelGuide}
    (named : ∀ c c', revise c = some c' → c'.id = c.id) {ids : List String} (distinct : ids.Nodup)
    (counted : d.heap.Counted (d.map :: os)) :
    d.Edited os (fun id => if id ∈ ids then (d.shows id).bind revise else none)
      (ids.foldl (visit revise) d) := by
  induction ids generalizing d with
  | nil => exact (Edited.refl counted).congr fun id => (if_neg List.not_mem_nil).symm
  | cons id ids ih =>
      obtain ⟨once, distinct'⟩ := List.nodup_cons.mp distinct
      have first := visit_edited counted named id
      have rest := ih distinct' first.counted
      refine (first.trans rest).congr fun id' => ?_
      by_cases here : id' = id
      · subst here
        simp [once]
      · rw [first.shown id', if_neg here, Option.none_or, Option.or_none]
        simp [here]

/-- The channels that a map has. -/
theorem mem_keys_of_shows {id : String} (there : d.shows id ≠ none) : id ∈ d.map.keys := by
  cases found : d.map.get? id with
  | none => exact absurd (shows_eq_none found) there
  | some a => exact List.mem_map_of_mem (Table.mem_of_look found)

/-- An edit in memory is the edit channel by channel. -/
theorem edit_edited (counted : d.heap.Counted (d.map :: os)) (e : Guide.Edit) :
    d.Edited os (fun id => e.outcome id (d.shows id)) (d.edit e) := by
  have named := fun c c' => @Guide.Edit.revise_id e c c'
  cases e with
  | merge id es =>
      rw [edit]
      split
      next none =>
        refine (Edited.refl counted).congr fun id' => ?_
        have unreached : ¬ Guide.Edit.Reaches id' (.merge id es) := fun reaches => reaches.2 none
        rw [Guide.Edit.outcome_of_not_reaches unreached]
      next some =>
        have entered := enter_edited counted id
        refine (entered.trans (visit_edited entered.counted named id)).congr fun id' => ?_
        by_cases here : id' = id
        · subst here
          have reached : Guide.Edit.Reaches id' (.merge id' es) := ⟨rfl, some⟩
          rw [Guide.Edit.outcome_of_reaches reached, if_pos rfl, entered.shown]
          cases d.shows id' <;> simp [Guide.Edit.found, Guide.Edit.revise]
        · have unreached : ¬ Guide.Edit.Reaches id' (.merge id es) :=
            fun reaches => here reaches.1.symm
          rw [Guide.Edit.outcome_of_not_reaches unreached, if_neg here,
            if_neg fun both => here both.1, Option.or_none]
  | release w =>
      refine (sweep_edited named d.map.nodup_keys counted).congr fun id => ?_
      have reached : Guide.Edit.Reaches id (.release w) := trivial
      rw [Guide.Edit.outcome_of_reaches reached]
      by_cases there : d.shows id = none
      · simp [there, Guide.Edit.found]
      · rw [if_pos (mem_keys_of_shows there)]
        rfl
  | note id start recordId =>
      refine (visit_edited counted named id).congr fun id' => ?_
      by_cases here : id' = id
      · subst here
        have reached : Guide.Edit.Reaches id' (.note id' start recordId) := rfl
        rw [Guide.Edit.outcome_of_reaches reached, if_pos rfl]
        rfl
      · have unreached : ¬ Guide.Edit.Reaches id' (.note id start recordId) :=
          fun same => here same.symm
        rw [Guide.Edit.outcome_of_not_reaches unreached, if_neg here]

end Draft

end PvrBackend
