import Mathlib.Order.Bounds.Defs
import PvrBackend.Calendar.Zone

/-!
# Wall times and instants

Looking a wall time up gives the least instant at which clocks show it, and
nothing exactly when clocks never show it. The search goes through the stretches
between changes in turn, so it is right as long as the changes are in order of
time.

Two instants with no change between them have the same offset; that is all a
later proof has to know about the walk along the changes.
-/

namespace PvrBackend.Calendar.Zone

/-- The changes are in order of time. -/
def Ordered (z : Zone) : Prop := z.changes.Pairwise (fun a b => a.start < b.start)

/-! ### Offsets -/

theorem offsetFrom_cons_of_lt {current : Offset} {c : Change} {cs : List Change} {t : Int}
    (h : t < c.start) : offsetFrom current (c :: cs) t = current := by
  rw [offsetFrom, if_pos h]

theorem offsetFrom_cons_of_le {current : Offset} {c : Change} {cs : List Change} {t : Int}
    (h : c.start ≤ t) : offsetFrom current (c :: cs) t = offsetFrom c.offset cs t := by
  rw [offsetFrom, if_neg (Int.not_lt.mpr h)]

/-- Instants on the same side of every change have the same offset. -/
theorem offsetFrom_congr {current : Offset} {cs : List Change} {s t : Int}
    (h : ∀ c ∈ cs, s < c.start ↔ t < c.start) :
    offsetFrom current cs s = offsetFrom current cs t := by
  induction cs generalizing current with
  | nil => rfl
  | cons c cs ih =>
      rw [offsetFrom, offsetFrom, ih (fun d hd => h d (List.mem_cons_of_mem c hd))]
      simp only [h c List.mem_cons_self]

/-- Changes that are over only leave their last offset behind. -/
theorem offsetFrom_append {current : Offset} {past cs : List Change} {t : Int}
    (h : ∀ c ∈ past, c.start ≤ t) :
    offsetFrom current (past ++ cs) t = offsetFrom (offsetFrom current past t) cs t := by
  induction past generalizing current with
  | nil => rfl
  | cons c past ih =>
      have behind := h c List.mem_cons_self
      rw [List.cons_append, offsetFrom_cons_of_le behind, offsetFrom_cons_of_le behind,
        ih (fun d hd => h d (List.mem_cons_of_mem c hd))]

theorem offsetFrom_of_forall {P : Offset → Prop} {current : Offset} {cs : List Change}
    (first : P current) (h : ∀ c ∈ cs, P c.offset) (t : Int) : P (offsetFrom current cs t) := by
  induction cs generalizing current with
  | nil => exact first
  | cons c cs ih =>
      rw [offsetFrom]
      split
      · exact first
      · exact ih (h c List.mem_cons_self) (fun d hd => h d (List.mem_cons_of_mem c hd))

/-! ### The first instant of a wall time -/

/-- What the search finds shows the wall time. The search leaves a stretch only
for the next one, so what it finds there lies behind the change between them. -/
theorem wall_of_earliestFrom {start : Option Int} {current : Offset} {cs : List Change} {w r : Int}
    (ordered : cs.Pairwise (fun a b => a.start < b.start))
    (from_start : ∀ c ∈ cs, start.all (· ≤ c.start) = true)
    (found : earliestFrom start current cs w = some r) :
    start.all (· ≤ r) = true ∧ r + (offsetFrom current cs r).seconds = w := by
  induction cs generalizing start current with
  | nil =>
      rw [earliestFrom] at found
      split at found
      next inside =>
        obtain rfl := Option.some.inj found
        exact ⟨inside, Int.sub_add_cancel w current.seconds⟩
      next => contradiction
  | cons c cs ih =>
      rw [earliestFrom] at found
      split at found
      next inside =>
        obtain rfl := Option.some.inj found
        simp only [Bool.and_eq_true, decide_eq_true_eq] at inside
        exact ⟨inside.1, by rw [offsetFrom_cons_of_lt inside.2, Int.sub_add_cancel]⟩
      next =>
        obtain ⟨later, ordered⟩ := List.pairwise_cons.mp ordered
        obtain ⟨behind, shows⟩ := ih ordered
          (fun d hd => by simpa using Int.le_of_lt (later d hd)) found
        have behind : c.start ≤ r := by simpa using behind
        refine ⟨?_, by rw [offsetFrom_cons_of_le behind, shows]⟩
        have reached := from_start c List.mem_cons_self
        cases start with
        | none => rfl
        | some s =>
            simp only [Option.all_some, decide_eq_true_eq] at reached ⊢
            exact Int.le_trans reached behind

/-- Every instant that shows the wall time is found, or an earlier one is. -/
theorem earliestFrom_le (start : Option Int) {current : Offset} {cs : List Change} {w t : Int}
    (from_start : start.all (· ≤ t) = true)
    (shows : t + (offsetFrom current cs t).seconds = w) :
    ∃ r, earliestFrom start current cs w = some r ∧ r ≤ t := by
  induction cs generalizing start current with
  | nil =>
      rw [offsetFrom] at shows
      obtain rfl : w - current.seconds = t := by omega
      exact ⟨_, by rw [earliestFrom, if_pos from_start], Int.le_refl _⟩
  | cons c cs ih =>
      rw [earliestFrom]
      by_cases before : t < c.start
      · rw [offsetFrom_cons_of_lt before] at shows
        obtain rfl : w - current.seconds = t := by omega
        exact ⟨_, by simp [from_start, before], Int.le_refl _⟩
      · have behind : c.start ≤ t := Int.not_lt.mp before
        rw [offsetFrom_cons_of_le behind] at shows
        split
        next inside =>
          simp only [Bool.and_eq_true, decide_eq_true_eq] at inside
          exact ⟨_, rfl, Int.le_of_lt (Int.lt_of_lt_of_le inside.2 behind)⟩
        next => exact ih _ (by simpa using behind) shows

/-- The search finds the least instant at which clocks show a wall time. -/
theorem earliest?_eq_some_iff {z : Zone} (ordered : z.Ordered) {w t : Int} :
    z.earliest? w = some t ↔ IsLeast {s | z.wall s = w} t := by
  constructor
  · intro found
    refine ⟨(wall_of_earliestFrom ordered (fun _ _ => rfl) found).2, ?_⟩
    intro s shows
    obtain ⟨r, found', earlier⟩ := earliestFrom_le none rfl shows
    obtain rfl := Option.some.inj (found.symm.trans found')
    exact earlier
  · rintro ⟨shows, least⟩
    obtain ⟨r, found, earlier⟩ := earliestFrom_le none rfl shows
    have later := least (wall_of_earliestFrom ordered (fun _ _ => rfl) found).2
    rw [earliest?, found, Int.le_antisymm earlier later]

theorem exists_earliest? {z : Zone} {w t : Int} (shows : z.wall t = w) :
    ∃ r, z.earliest? w = some r ∧ r ≤ t :=
  earliestFrom_le none rfl shows

end PvrBackend.Calendar.Zone
