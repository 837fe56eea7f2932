import Mathlib.Data.List.Forall2
import Mathlib.Data.List.Nodup
import PvrBackend.Recording.Basic

/-!
# Streams that are taken over

A refresh compares what is published with a listing into which the published streams
were copied just before. Nothing of the streams is then left to differ, but for a
record that is published twice: the first of its streams is copied to both. So the
recordings differ if their records do, and otherwise only where such a pair has two
streams.
-/

namespace PvrBackend

/-- Lists that are compared in number and place by place agree exactly if they show the
same keys. -/
theorem differ_eq_false_iff_map_eq {α κ : Type} [BEq κ] [LawfulBEq κ] (key : α → κ)
    (old new : List α) :
    (old.length != new.length || (old.zip new).any fun p => key p.1 != key p.2) = false ↔
      old.map key = new.map key := by
  induction old generalizing new with
  | nil => cases new <;> simp
  | cons o old ih =>
      cases new with
      | nil => simp
      | cons n new =>
          rw [List.map_cons, List.map_cons, List.cons.injEq, ← ih new]
          simp only [List.length_cons, List.zip_cons_cons, List.any_cons, Bool.or_eq_false_iff,
            bne_eq_false_iff_eq, Nat.add_right_cancel_iff]
          exact and_left_comm

namespace Timer

/-- The numbers of timers. -/
def numbers (ts : List Timer) : List Nat := ts.map (·.clientIndex)

theorem differ_eq_false_iff {old new : List Timer} :
    differ old new = false ↔ numbers old = numbers new :=
  differ_eq_false_iff_map_eq (fun t : Timer => t.clientIndex) old new

end Timer

namespace Recording

/-- The records that recordings stand for. -/
def ids (rs : List Recording) : List String := rs.map (·.recordId)

/-- The first recording of a record. -/
def withId? (rs : List Recording) (id : String) : Option Recording :=
  rs.find? (fun r => r.recordId == id)

/-- What two lists of recordings are compared by. -/
def key (r : Recording) : String × String := (r.recordId, r.streamUrl)

theorem differ_eq_false_iff {old new : List Recording} :
    differ old new = false ↔ old.map key = new.map key := by
  have parts : ∀ o n : Recording,
      (key o != key n) = (o.recordId != n.recordId || o.streamUrl != n.streamUrl) :=
    fun o n => Bool.not_and _ _
  simp only [← differ_eq_false_iff_map_eq key old new, differ, parts]

theorem recordId_of_withId? {rs : List Recording} {id : String} {r : Recording}
    (found : withId? rs id = some r) : r.recordId = id := by
  simpa using List.find?_some found

theorem exists_withId? {rs : List Recording} {id : String} (mem : id ∈ ids rs) :
    ∃ r, withId? rs id = some r := by
  obtain ⟨r, there, rfl⟩ := List.mem_map.mp mem
  apply Option.isSome_iff_exists.mp
  rw [withId?, List.find?_isSome]
  exact ⟨r, there, beq_self_eq_true _⟩

/-- Without repetitions every recording is the first of its record. -/
theorem withId?_of_mem {rs : List Recording} (distinct : (ids rs).Nodup) {r : Recording}
    (mem : r ∈ rs) : withId? rs r.recordId = some r := by
  obtain ⟨first, found⟩ := exists_withId? (List.mem_map_of_mem mem : r.recordId ∈ ids rs)
  have same : first.recordId = r.recordId := recordId_of_withId? found
  rw [found, List.inj_on_of_nodup_map distinct (List.mem_of_find?_eq_some found) mem same]

/-! ### Taking streams over -/

/-- A recording with the stream that `previous` has for its record. -/
def inherit (previous : List Recording) (r : Recording) : Recording :=
  match withId? previous r.recordId with
  | some old => { r with streamUrl := old.streamUrl, streamType := old.streamType }
  | none => r

theorem inheritStreams_eq_map (previous rs : List Recording) :
    inheritStreams previous rs = rs.map (inherit previous) := rfl

@[simp] theorem inherit_recordId (previous : List Recording) (r : Recording) :
    (inherit previous r).recordId = r.recordId := by
  rw [inherit]
  split <;> rfl

theorem inherit_of_withId? {previous : List Recording} {r old : Recording}
    (found : withId? previous r.recordId = some old) :
    inherit previous r = { r with streamUrl := old.streamUrl, streamType := old.streamType } := by
  rw [inherit, found]

@[simp] theorem ids_inheritStreams (previous rs : List Recording) :
    ids (inheritStreams previous rs) = ids rs := by
  rw [inheritStreams_eq_map, ids, ids, List.map_map]
  exact List.map_congr_left fun r _ => inherit_recordId previous r

/-- No record stands twice with two streams. -/
def Uniform (rs : List Recording) : Prop :=
  ∀ r ∈ rs, ∀ first ∈ withId? rs r.recordId, first.streamUrl = r.streamUrl

instance (rs : List Recording) : Decidable (Uniform rs) :=
  inferInstanceAs (Decidable (∀ r ∈ rs, ∀ first ∈ withId? rs r.recordId,
    first.streamUrl = r.streamUrl))

theorem uniform_of_nodup {rs : List Recording} (distinct : (ids rs).Nodup) : Uniform rs := by
  intro r mem first found
  rw [withId?_of_mem distinct mem] at found
  rw [Option.some.inj found]

/-- What the streams of a record's first recording are compared by. -/
def firstKey (rs : List Recording) (id : String) : String × String :=
  (id, ((withId? rs id).map (·.streamUrl)).getD "")

/-- A list of the same records shows the stream of the first recording of each. -/
theorem map_key_inheritStreams {previous rs : List Recording} (same : ids previous = ids rs) :
    (inheritStreams previous rs).map key =
      previous.map (fun r => firstKey previous r.recordId) := by
  have taken : ∀ r ∈ rs, key (inherit previous r) = firstKey previous r.recordId := by
    intro r mem
    have listed : r.recordId ∈ ids previous := same ▸ List.mem_map_of_mem mem
    obtain ⟨old, found⟩ := exists_withId? listed
    rw [inherit_of_withId? found, firstKey, found]
    rfl
  calc (inheritStreams previous rs).map key
      = rs.map (fun r => firstKey previous r.recordId) := by
        rw [inheritStreams_eq_map, List.map_map]
        exact List.map_congr_left taken
    _ = (ids rs).map (firstKey previous) := by rw [ids, List.map_map]; rfl
    _ = previous.map (fun r => firstKey previous r.recordId) := by
        rw [← same, ids, List.map_map]; rfl

theorem uniform_iff {rs : List Recording} :
    Uniform rs ↔ ∀ r ∈ rs, key r = firstKey rs r.recordId := by
  refine forall₂_congr fun r mem => ?_
  obtain ⟨first, found⟩ := exists_withId? (List.mem_map_of_mem mem : r.recordId ∈ ids rs)
  rw [firstKey, found, key]
  simp [eq_comm]

/-- After the streams were taken over, two lists agree exactly if they are of the same
records and no record of the old one has two streams. -/
theorem differ_inheritStreams_eq_false_iff {previous rs : List Recording} :
    differ previous (inheritStreams previous rs) = false ↔
      ids previous = ids rs ∧ Uniform previous := by
  rw [differ_eq_false_iff]
  constructor
  · intro agree
    have same : ids previous = ids rs := by
      have := congrArg (List.map Prod.fst) agree
      rwa [List.map_map, List.map_map, ← ids_inheritStreams previous rs] at *
    rw [map_key_inheritStreams same] at agree
    exact ⟨same, uniform_iff.mpr (List.map_inj_left.mp agree)⟩
  · rintro ⟨same, uniform⟩
    rw [map_key_inheritStreams same]
    exact List.map_congr_left (uniform_iff.mp uniform)

/-- Without repetitions only the records count. -/
theorem differ_inheritStreams_of_nodup {previous rs : List Recording}
    (distinct : (ids previous).Nodup) :
    differ previous (inheritStreams previous rs) = true ↔ ids previous ≠ ids rs := by
  rw [← Bool.not_eq_false, differ_inheritStreams_eq_false_iff]
  simp [uniform_of_nodup distinct]

/-! ### What taking over leaves and what it does again -/

/-- What becomes of a recording when the streams of `previous` are taken over. -/
structure Inherits (previous : List Recording) (r r' : Recording) : Prop where
  /-- Nothing but the stream changes, -/
  kept : r' = { r with streamUrl := r'.streamUrl, streamType := r'.streamType }
  /-- it is that of the first recording of the record, -/
  taken : ∀ first ∈ withId? previous r.recordId,
    r'.streamUrl = first.streamUrl ∧ r'.streamType = first.streamType
  /-- and without one it stays. -/
  left : r.recordId ∉ ids previous → r' = r

theorem withId?_of_not_mem {rs : List Recording} {id : String} (other : id ∉ ids rs) :
    withId? rs id = none := by
  apply List.find?_eq_none.mpr
  intro r there same
  exact other (beq_iff_eq.mp same ▸ List.mem_map_of_mem there)

theorem inherit_inherits (previous : List Recording) (r : Recording) :
    Inherits previous r (inherit previous r) := by
  constructor
  case kept =>
    rw [inherit]
    split <;> rfl
  case taken =>
    intro first found
    rw [inherit_of_withId? found]
    exact ⟨rfl, rfl⟩
  case left =>
    intro other
    rw [inherit, withId?_of_not_mem other]

/-- The first recording of a record is the same one the second time. -/
theorem inherit_inherit (previous : List Recording) (r : Recording) :
    inherit previous (inherit previous r) = inherit previous r := by
  cases found : withId? previous r.recordId with
  | none =>
      have same : inherit previous r = r := by rw [inherit, found]
      rw [same, same]
  | some old =>
      have found' : withId? previous (inherit previous r).recordId = some old := by
        rw [inherit_recordId, found]
      rw [inherit_of_withId? found', inherit_of_withId? found]

/-- After the streams were taken over, two lists agree exactly if they are of the same records
in the same order and each recording of the old one has the stream of the first of its record.
Taking over changes the streams of records that the old list has, and nothing else; done again
it changes nothing. -/
theorem detection_after_inheriting (old new : List Recording) :
    (differ old (inheritStreams old new) = false ↔
      ids old = ids new ∧
        ∀ r ∈ old, ∀ first ∈ withId? old r.recordId, first.streamUrl = r.streamUrl) ∧
    List.Forall₂ (Inherits old) new (inheritStreams old new) ∧
    inheritStreams old (inheritStreams old new) = inheritStreams old new := by
  refine ⟨differ_inheritStreams_eq_false_iff, ?each, ?again⟩
  case each =>
    rw [inheritStreams_eq_map, List.forall₂_map_right_iff, List.forall₂_same]
    intro r _
    exact inherit_inherits old r
  case again =>
    rw [inheritStreams_eq_map, inheritStreams_eq_map, List.map_map]
    exact List.map_congr_left fun r _ => inherit_inherit old r

/-- A record that is published twice with two streams differs from its own listing. -/
example :
    let old : List Recording :=
      [{ recordId := "7", streamUrl := "a" }, { recordId := "7", streamUrl := "b" }]
    differ old (inheritStreams old [{ recordId := "7" }, { recordId := "7" }]) = true := by
  decide

end Recording

end PvrBackend
