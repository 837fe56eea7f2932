/-!
# Tables: finite maps listed in ascending key order

A table is its list of entries together with the proof that the keys strictly
ascend, so a table never holds a key twice and two tables with the same entries
are equal. Writing to a key replaces the entry of that key and leaves every
other entry where it was.

The list operations come first, because objects of the data format keep a bare
list of members; `Table` bundles such a list with its order.
-/

namespace PvrBackend

universe u v

variable {κ : Type u} {α : Type v}

namespace Table

/-- Write `value` under `key` into a list of entries with ascending keys. -/
def put [Ord κ] (key : κ) (value : α) : List (κ × α) → List (κ × α)
  | [] => [(key, value)]
  | (k, a) :: rest =>
    match compare key k with
    | .lt => (key, value) :: (k, a) :: rest
    | .eq => (key, value) :: rest
    | .gt => (k, a) :: put key value rest

/-- The value of the first entry under `key`. -/
def look [BEq κ] (key : κ) : List (κ × α) → Option α
  | [] => none
  | (k, a) :: rest => if k == key then some a else look key rest

/-- Keys strictly ascend along the list. -/
def Ascending [Ord κ] (entries : List (κ × α)) : Prop :=
  entries.Pairwise (fun a b => compare a.1 b.1 = .lt)

@[simp] theorem put_nil [Ord κ] (key : κ) (value : α) : put key value [] = [(key, value)] := rfl

/-- Only the written entry is new. -/
theorem mem_put [Ord κ] {key : κ} {value : α} {entries : List (κ × α)} {e : κ × α}
    (h : e ∈ put key value entries) : e = (key, value) ∨ e ∈ entries := by
  induction entries with
  | nil => simpa using h
  | cons head rest ih =>
    obtain ⟨k, a⟩ := head
    rw [put] at h
    cases hc : compare key k <;> simp only [hc, List.mem_cons] at h ⊢
    · exact h
    · exact h.imp id Or.inr
    · rcases h with h | h
      · exact Or.inr (Or.inl h)
      · exact (ih h).imp id Or.inr

/-- Writing keeps the keys ascending. -/
theorem Ascending.put [Ord κ] [Std.TransOrd κ] [Std.LawfulEqOrd κ] {entries : List (κ × α)}
    (h : Ascending entries) (key : κ) (value : α) : Ascending (put key value entries) := by
  induction entries with
  | nil => simp [Ascending]
  | cons head rest ih =>
    obtain ⟨k, a⟩ := head
    obtain ⟨below, ascending⟩ := List.pairwise_cons.mp h
    rw [Table.put]
    cases hc : compare key k with
    | lt =>
      refine List.pairwise_cons.mpr ⟨?_, h⟩
      intro e he
      rcases List.mem_cons.mp he with rfl | he
      · exact hc
      · exact Std.TransCmp.lt_trans hc (below e he)
    | eq =>
      have hk : key = k := Std.LawfulEqCmp.eq_of_compare hc
      subst hk
      exact List.pairwise_cons.mpr ⟨below, ascending⟩
    | gt =>
      refine List.pairwise_cons.mpr ⟨?_, ih ascending⟩
      intro e he
      rcases mem_put he with rfl | he
      · exact Std.OrientedCmp.gt_iff_lt.mp hc
      · exact below e he

/-- What was written is read back. -/
@[simp] theorem look_put_self [Ord κ] [Std.LawfulEqOrd κ] [BEq κ] [LawfulBEq κ] (key : κ)
    (value : α) (entries : List (κ × α)) : look key (put key value entries) = some value := by
  induction entries with
  | nil => simp [look]
  | cons head rest ih =>
    obtain ⟨k, a⟩ := head
    rw [put]
    cases hc : compare key k with
    | lt => simp [look]
    | eq => simp [look]
    | gt =>
      have hk : ¬ k = key := by
        rintro rfl
        simp [Std.LawfulEqCmp.compare_eq_iff_eq.mpr rfl] at hc
      simp [look, hk, ih]

/-- A key above all others goes to the end. -/
theorem put_of_forall_lt [Ord κ] [Std.TransOrd κ] {key : κ} (value : α) {entries : List (κ × α)}
    (below : ∀ e ∈ entries, compare e.1 key = .lt) :
    put key value entries = entries ++ [(key, value)] := by
  induction entries with
  | nil => rfl
  | cons head rest ih =>
    obtain ⟨k, a⟩ := head
    have above : compare key k = .gt := Std.OrientedCmp.gt_iff_lt.mpr (below _ List.mem_cons_self)
    rw [put, above, List.cons_append]
    dsimp only
    rw [ih fun e mem => below e (List.mem_cons_of_mem _ mem)]

theorem Ascending.foldl_put [Ord κ] [Std.TransOrd κ] [Std.LawfulEqOrd κ]
    {before : List (κ × α)} (h : Ascending before) (entries : List (κ × α)) :
    Ascending (entries.foldl (fun table e => Table.put e.1 e.2 table) before) := by
  induction entries generalizing before with
  | nil => exact h
  | cons head rest ih => exact ih (h.put head.1 head.2)

theorem mem_foldl_put [Ord κ] {before entries : List (κ × α)} {e : κ × α}
    (h : e ∈ entries.foldl (fun table e => put e.1 e.2 table) before) :
    e ∈ before ∨ e ∈ entries := by
  induction entries generalizing before with
  | nil => exact .inl h
  | cons head rest ih =>
    rcases ih h with mem | mem
    · rcases mem_put mem with rfl | mem
      · exact .inr List.mem_cons_self
      · exact .inl mem
    · exact .inr (List.mem_cons_of_mem _ mem)

/-- Ascending entries are written one after the other. -/
theorem foldl_put_of_ascending [Ord κ] [Std.TransOrd κ] {before entries : List (κ × α)}
    (h : Ascending (before ++ entries)) :
    entries.foldl (fun table e => put e.1 e.2 table) before = before ++ entries := by
  induction entries generalizing before with
  | nil => rw [List.foldl_nil, List.append_nil]
  | cons head rest ih =>
    have below : ∀ e ∈ before, compare e.1 head.1 = .lt := fun e mem =>
      (List.pairwise_append.mp h).2.2 e mem head List.mem_cons_self
    rw [List.append_cons] at h ⊢
    rw [List.foldl_cons, put_of_forall_lt head.2 below, ih h]

theorem Ascending.foldl_put_nil [Ord κ] [Std.TransOrd κ] {entries : List (κ × α)}
    (h : Ascending entries) :
    entries.foldl (fun table e => Table.put e.1 e.2 table) [] = entries :=
  foldl_put_of_ascending (show Ascending ([] ++ entries) from h)

/-- The value under a key is that of the first entry with this key. -/
theorem mem_of_look [BEq κ] [LawfulBEq κ] {key : κ} {value : α} {entries : List (κ × α)}
    (h : look key entries = some value) : (key, value) ∈ entries := by
  induction entries with
  | nil => simp [look] at h
  | cons head rest ih =>
    obtain ⟨k, a⟩ := head
    rw [look] at h
    split at h
    next same =>
      obtain rfl := eq_of_beq same
      obtain rfl := Option.some.inj h
      exact List.mem_cons_self
    next => exact List.mem_cons_of_mem _ (ih h)

theorem look_eq_head?_filter [BEq κ] (key : κ) (entries : List (κ × α)) :
    look key entries = (entries.filter fun e => e.1 == key).head?.map (·.2) := by
  induction entries with
  | nil => rfl
  | cons head rest ih =>
    obtain ⟨k, a⟩ := head
    rw [look, List.filter_cons]
    split
    · rfl
    · exact ih

/-- In ascending entries no key stands twice, so every entry is found. -/
theorem Ascending.look_of_mem [Ord κ] [Std.LawfulEqOrd κ] [BEq κ] [LawfulBEq κ] {key : κ}
    {value : α} {entries : List (κ × α)} (h : Ascending entries) (mem : (key, value) ∈ entries) :
    look key entries = some value := by
  induction entries with
  | nil => cases mem
  | cons head rest ih =>
    obtain ⟨k, a⟩ := head
    obtain ⟨below, ascending⟩ := List.pairwise_cons.mp h
    rw [look]
    rcases List.mem_cons.mp mem with same | mem
    · obtain ⟨rfl, rfl⟩ := Prod.mk.inj same
      simp
    · have ne : ¬ k = key := by
        rintro rfl
        simpa using below _ mem
      simp [ne, ih ascending mem]

/-- In ascending entries a key stands once if at all. -/
theorem Ascending.filter_key [Ord κ] [Std.LawfulEqOrd κ] [BEq κ] [LawfulBEq κ]
    {entries : List (κ × α)} (ascending : Ascending entries) (key : κ) :
    entries.filter (fun e => e.1 == key) = ((look key entries).map (key, ·)).toList := by
  induction entries with
  | nil => rfl
  | cons head rest ih =>
    obtain ⟨k, a⟩ := head
    obtain ⟨below, ascending⟩ := List.pairwise_cons.mp ascending
    rw [List.filter_cons, look]
    by_cases here : k = key
    · subst here
      have alone : rest.filter (fun e => e.1 == k) = [] := by
        rw [List.filter_eq_nil_iff]
        intro e mem same
        have later := below e mem
        rw [eq_of_beq same] at later
        simp at later
      simp [alone]
    · simp [here, ih ascending]

/-- Writing to one key does not show under another. -/
theorem look_put_of_ne [Ord κ] [Std.LawfulEqOrd κ] [BEq κ] [LawfulBEq κ] {key other : κ}
    (h : other ≠ key) (value : α) (entries : List (κ × α)) :
    look other (put key value entries) = look other entries := by
  have h' : ¬ key = other := fun e => h e.symm
  induction entries with
  | nil => simp [look, h']
  | cons head rest ih =>
    obtain ⟨k, a⟩ := head
    rw [put]
    cases hc : compare key k with
    | lt => simp [look, h']
    | eq =>
      have hk : key = k := Std.LawfulEqCmp.eq_of_compare hc
      subst hk
      simp [look, h']
    | gt => simp [look, ih]

end Table

/-- A finite map: its entries in ascending key order, each key once. -/
structure Table (κ : Type u) (α : Type v) [Ord κ] where
  /-- Keys with their values, keys strictly ascending. -/
  entries : List (κ × α)
  /-- The order of the keys. -/
  ascending : Table.Ascending entries

namespace Table

variable [Ord κ]

def empty : Table κ α := ⟨[], List.Pairwise.nil⟩

instance : Inhabited (Table κ α) := ⟨empty⟩

@[simp] theorem entries_empty : (empty : Table κ α).entries = [] := rfl

/-- Tables with the same entries are equal. -/
@[ext] theorem ext {s t : Table κ α} (h : s.entries = t.entries) : s = t := by
  cases s; cases t; cases h; rfl

instance [DecidableEq κ] [DecidableEq α] : DecidableEq (Table κ α) := fun s t =>
  decidable_of_iff (s.entries = t.entries) ⟨ext, fun h => h ▸ rfl⟩

def keys (t : Table κ α) : List κ := t.entries.map (·.1)

def values (t : Table κ α) : List α := t.entries.map (·.2)

def get? [BEq κ] (t : Table κ α) (key : κ) : Option α := look key t.entries

/-- Write `value` under `key`, in place of what was there. -/
def insert [Std.TransOrd κ] [Std.LawfulEqOrd κ] (t : Table κ α) (key : κ) (value : α) :
    Table κ α :=
  ⟨put key value t.entries, t.ascending.put key value⟩

@[simp] theorem entries_insert [Std.TransOrd κ] [Std.LawfulEqOrd κ] (t : Table κ α) (key : κ)
    (value : α) : (t.insert key value).entries = put key value t.entries := rfl

@[simp] theorem get?_empty [BEq κ] (key : κ) : (empty : Table κ α).get? key = none := rfl

@[simp] theorem get?_insert_self [Std.TransOrd κ] [Std.LawfulEqOrd κ] [BEq κ] [LawfulBEq κ]
    (t : Table κ α) (key : κ) (value : α) : (t.insert key value).get? key = some value :=
  look_put_self key value t.entries

theorem get?_insert_of_ne [Std.TransOrd κ] [Std.LawfulEqOrd κ] [BEq κ] [LawfulBEq κ]
    (t : Table κ α) {key other : κ} (h : other ≠ key) (value : α) :
    (t.insert key value).get? other = t.get? other :=
  look_put_of_ne h value t.entries

/-- The entries are the keys with their values. -/
theorem mem_entries_iff [Std.LawfulEqOrd κ] [BEq κ] [LawfulBEq κ] {t : Table κ α} {key : κ}
    {value : α} : (key, value) ∈ t.entries ↔ t.get? key = some value :=
  ⟨t.ascending.look_of_mem, mem_of_look⟩

theorem mem_values_iff [Std.LawfulEqOrd κ] [BEq κ] [LawfulBEq κ] {t : Table κ α} {value : α} :
    value ∈ t.values ↔ ∃ key, t.get? key = some value := by
  simp only [values, List.mem_map, Prod.exists, exists_eq_right, mem_entries_iff]

/-- Keep the entries that satisfy `keep`. -/
def filter (keep : κ → α → Bool) (t : Table κ α) : Table κ α :=
  ⟨t.entries.filter (fun e => keep e.1 e.2), t.ascending.filter _⟩

@[simp] theorem entries_filter (keep : κ → α → Bool) (t : Table κ α) :
    (t.filter keep).entries = t.entries.filter (fun e => keep e.1 e.2) := rfl

theorem get?_filter [Std.LawfulEqOrd κ] [BEq κ] [LawfulBEq κ] (keep : κ → α → Bool) (t : Table κ α)
    (key : κ) : (t.filter keep).get? key = (t.get? key).filter (keep key) := by
  ext value
  rw [Option.filter_eq_some_iff, ← mem_entries_iff, ← mem_entries_iff, entries_filter,
    List.mem_filter]

/-- Change every value in place. -/
def mapValues {β : Type v} (f : κ → α → β) (t : Table κ α) : Table κ β :=
  ⟨t.entries.map (fun e => (e.1, f e.1 e.2)), by
    simpa only [Ascending, List.pairwise_map] using t.ascending⟩

@[simp] theorem entries_mapValues {β : Type v} (f : κ → α → β) (t : Table κ α) :
    (t.mapValues f).entries = t.entries.map (fun e => (e.1, f e.1 e.2)) := rfl

theorem get?_mapValues [Std.LawfulEqOrd κ] [BEq κ] [LawfulBEq κ] {β : Type v} (f : κ → α → β)
    (t : Table κ α) (key : κ) : (t.mapValues f).get? key = (t.get? key).map (f key) := by
  ext value
  simp only [Option.map_eq_some_iff, ← mem_entries_iff, entries_mapValues, List.mem_map,
    Prod.exists, Prod.mk.injEq]
  constructor
  · rintro ⟨_, a, mem, rfl, rfl⟩
    exact ⟨a, mem, rfl⟩
  · rintro ⟨a, mem, rfl⟩
    exact ⟨key, a, mem, rfl, rfl⟩

end Table

end PvrBackend
