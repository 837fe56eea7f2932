import PvrBackend.Proofs.Json.Lines
import PvrBackend.Proofs.Text.Forms
import PvrBackend.Settings.Reader

/-!
# Saved settings are loaded again

Settings are written with every field on a line of its own, and reading such a line sets that field
to the value it was written from, whatever the settings are so far. All fields together therefore
bring any settings to those that were written. Nothing is asked of the settings: texts are escaped,
counts of 64 bits are read to the last digit, and every choice is known by its name. What is loaded
from a file, however damaged, are settings like any others, so saving them makes it a file that is
loaded and saved without any further change.
-/

namespace PvrBackend

namespace Json

/-- What a document that has a value looks like. -/
inductive Document.Shows : Document → Json → Prop where
  | null : Shows .null .null
  | bool (b : Bool) : Shows (.bool b) (.bool b)
  | number {l : Literal} {n : Number} (read : l.number? = some n) : Shows (.number l) (.number n)
  | string (s : String) : Shows (.string (some s)) (.string s)
  | array (documents : List Document) (items : List Json) :
      Shows (.array documents) (.array items)
  | object (documents : List (Option String × Document)) (members : List (String × Json)) :
      Shows (.object documents) (.object members)

theorem Document.shows_of_value? {depth : Nat} {document : Document} {j : Json}
    (value : document.value? depth = some j) : document.Shows j := by
  cases document with
  | null =>
      obtain rfl := Option.some.inj value
      exact .null
  | bool b =>
      obtain rfl := Option.some.inj value
      exact .bool b
  | number l =>
      obtain ⟨n, read, rfl⟩ := Option.map_eq_some_iff.mp value
      exact .number read
  | string s =>
      obtain ⟨s, rfl, rfl⟩ := Option.map_eq_some_iff.mp value
      exact .string s
  | array documents =>
      cases depth with
      | zero => cases value
      | succ depth =>
          obtain ⟨items, -, rfl⟩ := Option.map_eq_some_iff.mp value
          exact .array documents items
  | object documents =>
      cases depth with
      | zero => cases value
      | succ depth =>
          obtain ⟨members, -, rfl⟩ := Option.map_eq_some_iff.mp value
          exact .object documents _

/-- Members have values one by one. -/
theorem Document.members?_cons_eq_some {depth : Nat} {d : Option String × Document}
    {documents : List (Option String × Document)} {members : List (String × Json)}
    (values : Document.members? depth (d :: documents) = some members) :
    ∃ key j others, d = (some key, d.2) ∧ d.2.value? depth = some j ∧
      Document.members? depth documents = some others ∧ members = (key, j) :: others := by
  obtain ⟨key, document⟩ := d
  rw [Document.members?] at values
  obtain ⟨key, rfl, rest⟩ := Option.bind_eq_some_iff.mp values
  obtain ⟨j, value, rest⟩ := Option.bind_eq_some_iff.mp rest
  obtain ⟨others, rest, result⟩ := Option.bind_eq_some_iff.mp rest
  exact ⟨key, j, others, rfl, value, rest, (Option.some.inj result).symm⟩

end Json

theorem Provider.find?_name (p : Provider) :
    Provider.all.find? (fun q => q.name == p.name) = some p := by
  cases p <;> decide

theorem Quality.find?_name (q : Quality) :
    Quality.all.find? (fun r => r.name == q.name) = some q := by
  cases q <;> decide

namespace Settings

open Json (Document)

/-! ### Fields one by one -/

/-- The field of `s` is written without loss, and reading what is written changes settings by
`put`. -/
structure Field.Saves (f : Field) (s : Settings) (put : Settings → Settings) : Prop where
  readable (depth : Nat) : (f.write s).Readable depth
  whole : (f.write s).Whole
  read (t : Settings) {depth : Nat} {document : Document}
    (value : document.value? depth = some (f.write s)) : f.read t document = some (put t)

theorem saves_text (name : String) (get : Settings → String)
    (set : Settings → String → Settings) (s : Settings) :
    (Field.text name get set).Saves s fun t => set t (get s) where
  readable _ := .string _
  whole := .string _
  read _ _ _ value := by
    cases Document.shows_of_value? value
    rfl

theorem saves_flag (name : String) (get : Settings → Bool) (set : Settings → Bool → Settings)
    (s : Settings) : (Field.flag name get set).Saves s fun t => set t (get s) where
  readable _ := .bool _
  whole := .bool _
  read _ _ _ value := by
    cases Document.shows_of_value? value
    rfl

theorem readable_count {count : Nat} (fits : count < UInt64.size) (depth : Nat) :
    (Json.int count).Readable depth := by
  have size : UInt64.size = 0x10000000000000000 := rfl
  refine .number ⟨?_, ?_⟩ <;> omega

/-- A count within its bound is read to the last digit. -/
theorem count?_of_value? {bound count depth : Nat} (fits : count ≤ bound) {document : Document}
    (value : document.value? depth = some (.int count)) : count? bound document = some count := by
  cases Document.shows_of_value? value with
  | number read =>
      rw [count?, read]
      exact if_pos fits

theorem saves_count64 (name : String) (get : Settings → UInt64)
    (set : Settings → UInt64 → Settings) (s : Settings) :
    (Field.count64 name get set).Saves s fun t => set t (get s) where
  readable := readable_count (get s).toNat_lt_size
  whole := .int _
  read t _ document value := by
    have fits : (get s).toNat ≤ UInt64.size - 1 := Nat.le_pred_of_lt (get s).toNat_lt_size
    show (count? _ document).map _ = _
    rw [count?_of_value? fits value, Option.map_some, UInt64.ofNat_toNat]

theorem saves_count32 (name : String) (get : Settings → UInt32)
    (set : Settings → UInt32 → Settings) (s : Settings) :
    (Field.count32 name get set).Saves s fun t => set t (get s) where
  readable := readable_count ((get s).toNat_lt_size.trans (by decide))
  whole := .int _
  read t _ document value := by
    have fits : (get s).toNat ≤ UInt32.size - 1 := Nat.le_pred_of_lt (get s).toNat_lt_size
    show (count? _ document).map _ = _
    rw [count?_of_value? fits value, Option.map_some, UInt32.ofNat_toNat]

/-- A choice is saved when its label leads back to it. -/
theorem saves_choice {α : Type} (name : String) (all : List α) (label : α → String)
    (get : Settings → α) (set : Settings → α → Settings) {s : Settings}
    (known : all.find? (fun a => label a == label (get s)) = some (get s)) :
    (Field.choice name all label get set).Saves s fun t => set t (get s) where
  readable _ := .string _
  whole := .string _
  read t _ document value := by
    cases Document.shows_of_value? value
    show (all.find? _).map _ = _
    rw [known, Option.map_some]

/-! ### All fields together -/

/-- The fields of `s`, read one after the other, bring any settings to `s`. -/
theorem exists_saves (s : Settings) :
    ∃ puts, List.Forall₂ (fun f put => Field.Saves f s put) fields puts ∧
      ∀ t, puts.foldl (fun t put => put t) t = s := by
  -- Every field is put once, so nothing of `t` is left: the last part is an equation of records.
  refine ⟨_, .cons (saves_choice _ _ _ _ _ (Provider.find?_name s.provider)) <|
    .cons (saves_text _ _ _ s) <| .cons (saves_text _ _ _ s) <| .cons (saves_text _ _ _ s) <|
    .cons (saves_text _ _ _ s) <|
    .cons (saves_choice _ _ _ _ _ (Quality.find?_name s.quality)) <|
    .cons (saves_count64 _ _ _ s) <| .cons (saves_count64 _ _ _ s) <|
    .cons (saves_count64 _ _ _ s) <| .cons (saves_count64 _ _ _ s) <|
    .cons (saves_count64 _ _ _ s) <| .cons (saves_count64 _ _ _ s) <|
    .cons (saves_flag _ _ _ s) <| .cons (saves_flag _ _ _ s) <| .cons (saves_flag _ _ _ s) <|
    .cons (saves_flag _ _ _ s) <| .cons (saves_count32 _ _ _ s) <|
    .cons (saves_count32 _ _ _ s) <| .cons (saves_text _ _ _ s) .nil, fun t => rfl⟩

theorem exists_saves_of_mem {s : Settings} {pending : List Field}
    {puts : List (Settings → Settings)}
    (saves : List.Forall₂ (fun f put => Field.Saves f s put) pending puts) {f : Field}
    (known : f ∈ pending) : ∃ put, f.Saves s put := by
  induction saves with
  | nil => cases known
  | cons first _ ih =>
      rcases List.mem_cons.mp known with rfl | known
      · exact ⟨_, first⟩
      · exact ih known

theorem nodup_fields : (fields.map Field.name).Nodup := by
  decide

/-- Of fields with different names, the first is found by its name, and the others stay. -/
theorem readMembers_cons_of_saves {f : Field} {pending : List Field}
    (distinct : ((f :: pending).map Field.name).Nodup) {s t : Settings} {put : Settings → Settings}
    (saves : f.Saves s put) {depth : Nat} {document : Document}
    (value : document.value? depth = some (f.write s))
    (documents : List (Option String × Document)) :
    readMembers (f :: pending) t ((some f.name, document) :: documents) =
      readMembers pending (put t) documents := by
  have fresh : f.name ∉ pending.map Field.name := (List.nodup_cons.mp distinct).1
  have left : (f :: pending).filter (fun g => g.name != f.name) = pending := by
    rw [List.filter_cons_of_neg (by simp), List.filter_eq_self]
    intro g member
    have other : g.name ≠ f.name := fun same => fresh (same ▸ List.mem_map_of_mem member)
    simpa using other
  rw [readMembers, Option.bind_eq_bind, Option.bind_some, List.find?_cons_of_pos (by simp)]
  dsimp only
  rw [saves.read t value, Option.bind_eq_bind, Option.bind_some, left]

/-- Members that are the written pending fields put the values of all of them. -/
theorem readMembers_of_saves {s : Settings} {pending : List Field}
    {puts : List (Settings → Settings)}
    (saves : List.Forall₂ (fun f put => Field.Saves f s put) pending puts)
    (distinct : (pending.map Field.name).Nodup) (t : Settings) {depth : Nat}
    {documents : List (Option String × Document)}
    (values : Document.members? depth documents = some (pending.map fun f => (f.name, f.write s))) :
    readMembers pending t documents = some (puts.foldl (fun t put => put t) t) := by
  -- The lines come in the order of the fields, so the next line is that of the first pending field.
  induction saves generalizing t documents with
  | nil =>
      cases documents with
      | nil => rfl
      | cons d documents =>
          obtain ⟨key, j, others, -, -, -, same⟩ := Document.members?_cons_eq_some values
          cases same
  | cons saves _ ih =>
      cases documents with
      | nil => cases values
      | cons d documents =>
          obtain ⟨key, j, others, first, value, rest, same⟩ := Document.members?_cons_eq_some values
          cases same
          rw [first, readMembers_cons_of_saves distinct saves value, List.foldl_cons]
          exact ih (List.nodup_cons.mp distinct).2 _ rest

/-! ### The whole text -/

theorem kept_of_mem_members {s : Settings} {m : String × Json} (member : m ∈ s.members) :
    m.2.Readable 0 ∧ m.2.Whole := by
  obtain ⟨f, known, rfl⟩ := List.mem_map.mp member
  obtain ⟨puts, saves, -⟩ := exists_saves s
  obtain ⟨put, saves⟩ := exists_saves_of_mem saves known
  exact ⟨saves.readable 0, saves.whole⟩

/-- Settings are read back from their text. -/
theorem read_render (s : Settings) : read s.render = some s := by
  have filled : s.members ≠ [] := List.cons_ne_nil _ _
  obtain ⟨documents, text, members', values, same⟩ :=
    Json.read_renderLines filled fun _ member => (kept_of_mem_members member).1
  obtain rfl : members' = s.members :=
    Json.eq_of_blurMembers_eq (fun _ member => (kept_of_mem_members member).2.eq_of_blur_eq) same
  obtain ⟨puts, saves, back⟩ := exists_saves s
  rw [read, render, text, Option.bind_some, ofDocument?,
    readMembers_of_saves saves nodup_fields {} values, back]

/-- The settings file after settings were saved. -/
def saved (s : Settings) : Option ByteArray := some s.render.toUTF8

/-- Saving any settings makes them the ones that are loaded. Whatever a file holds, the settings
that are loaded from it are loaded again once they are saved, and saving them once more writes the
same bytes. -/
theorem settings_survive :
    (∀ s : Settings, load s.saved = s) ∧
    ∀ file : Option ByteArray,
      load (load file).saved = load file ∧
      (load (load file).saved).saved = (load file).saved := by
  have loaded (s : Settings) : load s.saved = s := by
    rw [saved, load, Option.bind_some, Text.fromUTF8?_toUTF8, Option.bind_some, read_render,
      Option.getD_some]
  exact ⟨loaded, fun file => ⟨loaded _, congrArg saved (loaded _)⟩⟩

end Settings

end PvrBackend
