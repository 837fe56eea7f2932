import PvrBackend.Proofs.Json.Values
import PvrBackend.Proofs.Session.Pairings

/-!
# Pairing records are read back

What the service sent with a pairing is stored with it, whatever it is, and must not keep
the record from being read again. The five fields come back as they were, the other members
up to the last digits of floating-point numbers in them.
-/

namespace PvrBackend

open Json (depthLimit blurMembers)

namespace PairingRecord

/-- The members beside the fields are such as can be read. -/
def Readable (r : PairingRecord) : Prop :=
  ∀ m ∈ r.extra.entries, m.1 ∉ fieldNames ∧ m.2.Readable (depthLimit - 1)

/-- A record with all floating-point numbers in it made the same. -/
def blur (r : PairingRecord) : PairingRecord :=
  { r with extra := r.extra.mapValues fun _ j => j.blur }

theorem entries_foldl_insert (members : List (String × Json)) (table : Table String Json) :
    (members.foldl (fun table m => table.insert m.1 m.2) table).entries =
      members.foldl (fun entries m => Table.put m.1 m.2 entries) table.entries := by
  induction members generalizing table with
  | nil => rfl
  | cons m ms ih => exact ih _

/-! ### Records that were read -/

theorem readable_of_ofMembers? {members : List (String × Json)} {r : PairingRecord}
    (readable : ∀ m ∈ members, m.2.Readable (depthLimit - 1))
    (record : ofMembers? members = some r) : r.Readable := by
  simp only [ofMembers?, Option.bind_eq_bind, Option.bind_eq_some_iff] at record
  obtain ⟨_, -, _, -, _, -, _, -, _, -, _, -, _, -, _, -, _, -, result⟩ := record
  obtain rfl := Option.some.inj result
  intro m member
  dsimp only at member
  rw [entries_foldl_insert] at member
  rcases Table.mem_foldl_put member with none | other
  · cases none
  · obtain ⟨inside, unnamed⟩ := List.mem_filter.mp other
    exact ⟨by simpa using unnamed, readable m inside⟩

theorem readable_of_read {text : String} {r : PairingRecord} (record : read text = some r) :
    r.Readable := by
  obtain ⟨members, read, record⟩ := Option.bind_eq_some_iff.mp record
  exact readable_of_ofMembers? (Json.readable_of_readMembers read) record

theorem readable_of_ofJson? {j : Json} {r : PairingRecord} (readable : j.Readable depthLimit)
    (record : ofJson? j = some r) : r.Readable := by
  obtain ⟨members, object, record⟩ := Option.bind_eq_some_iff.mp record
  cases j with
  | object ms =>
      obtain rfl := Option.some.inj object
      exact readable_of_ofMembers? readable.members record
  | _ => cases object

theorem readable_default : ({} : PairingRecord).Readable := fun _ member => nomatch member

/-! ### Records that are read again -/

/-- The fields come back as they were, in front of the other members. -/
theorem eq_fields_of_blurMembers_eq {r : PairingRecord} {members' : List (String × Json)}
    (same : blurMembers members' = blurMembers r.members) :
    ∃ others, members' = [("status", .int r.status.toInt), ("deviceId", .string r.deviceId),
        ("password", .string r.password), ("userName", .string r.userName),
        ("serial", .string r.serial)] ++ others ∧
      blurMembers others = blurMembers r.extra.entries := by
  rw [Json.blurMembers_eq_map, Json.blurMembers_eq_map, members, List.map_append] at same
  obtain ⟨fields, others, rfl, fields_eq, others_eq⟩ := List.map_eq_append_iff.mp same
  refine ⟨others, ?_, by rw [Json.blurMembers_eq_map, others_eq, Json.blurMembers_eq_map]⟩
  have text : ∀ {m : String × Json} {key s : String},
      (m.1, m.2.blur) = (key, Json.blur (.string s)) → m = (key, .string s) := fun eq =>
    Prod.ext (Prod.mk.inj eq).1 (Json.eq_string_of_blur_eq (Prod.mk.inj eq).2)
  obtain ⟨status, fields, rfl, first, fields_eq⟩ := List.map_eq_cons_iff.mp fields_eq
  obtain ⟨deviceId, fields, rfl, second, fields_eq⟩ := List.map_eq_cons_iff.mp fields_eq
  obtain ⟨password, fields, rfl, third, fields_eq⟩ := List.map_eq_cons_iff.mp fields_eq
  obtain ⟨userName, fields, rfl, fourth, fields_eq⟩ := List.map_eq_cons_iff.mp fields_eq
  obtain ⟨serial, fields, rfl, fifth, fields_eq⟩ := List.map_eq_cons_iff.mp fields_eq
  obtain rfl := List.map_eq_nil_iff.mp fields_eq
  have whole : status = ("status", .int r.status.toInt) :=
    Prod.ext (Prod.mk.inj first).1 (Json.eq_int_of_blur_eq (Prod.mk.inj first).2)
  rw [whole, text second, text third, text fourth, text fifth]

/-- Fields in front of other members are found, and the other members are the rest. -/
theorem ofMembers?_append {r : PairingRecord} {others : List (String × Json)}
    (unnamed : ∀ m ∈ others, m.1 ∉ fieldNames) (ascending : Table.Ascending others) :
    ofMembers? ([("status", .int r.status.toInt), ("deviceId", .string r.deviceId),
        ("password", .string r.password), ("userName", .string r.userName),
        ("serial", .string r.serial)] ++ others) =
      some { r with extra := ⟨others, ascending⟩ } := by
  have none : ∀ name ∈ fieldNames, others.filter (fun m => m.1 == name) = [] := by
    intro name field
    refine List.filter_eq_nil_iff.mpr fun m member same => unnamed m member ?_
    rwa [eq_of_beq same]
  have all : others.filter (fun m => !fieldNames.contains m.1) = others :=
    List.filter_eq_self.mpr fun m member => by simpa using unnamed m member
  have status : status? (some (.int r.status.toInt)) = some r.status := by
    have low := r.status.le_toInt
    have high := r.status.toInt_lt
    have fits : Decimal.fitsInt64 r.status.toInt = true := by
      simp only [Decimal.fitsInt64, Bool.and_eq_true, decide_eq_true_eq]
      omega
    rw [Json.int, status?, if_pos fits, Int64.ofInt_toInt]
  have table : others.foldl (fun table m => table.insert m.1 m.2) Table.empty =
      (⟨others, ascending⟩ : Table String Json) := by
    refine Table.ext ?_
    rw [entries_foldl_insert, Table.entries_empty, ascending.foldl_put_nil]
  simp only [ofMembers?, single, List.filter_append, none _ (by decide : "status" ∈ fieldNames),
    none _ (by decide : "deviceId" ∈ fieldNames), none _ (by decide : "password" ∈ fieldNames),
    none _ (by decide : "userName" ∈ fieldNames), none _ (by decide : "serial" ∈ fieldNames), all]
  simp [status, deviceId?, text?, fieldNames, table]

/-- A record is read back from its text. -/
theorem read_render {r : PairingRecord} (readable : r.Readable) :
    ∃ r', read r.render = some r' ∧ r'.blur = r.blur := by
  have written : ∀ m ∈ r.members, m.2.Readable (depthLimit - 1) := by
    intro m member
    rcases List.mem_append.mp member with field | other
    · simp only [List.mem_cons, List.not_mem_nil, or_false] at field
      rcases field with rfl | rfl | rfl | rfl | rfl
      · exact .number ⟨r.status.le_toInt, r.status.toInt_lt.trans (by decide)⟩
      all_goals exact .string _
    · exact (readable m other).2
  obtain ⟨members', read, same⟩ := Json.readMembers_renderMembers written
  obtain ⟨others, rfl, others_same⟩ := eq_fields_of_blurMembers_eq same
  have keys := Json.keys_eq_of_blurMembers_eq others_same
  have unnamed : ∀ m ∈ others, m.1 ∉ fieldNames := by
    intro m member
    have key : m.1 ∈ r.extra.entries.map (·.1) := keys ▸ List.mem_map_of_mem member
    obtain ⟨n, inside, same_key⟩ := List.mem_map.mp key
    exact same_key ▸ (readable n inside).1
  have ascending := Json.ascending_of_blurMembers_eq others_same r.extra.ascending
  refine ⟨{ r with extra := ⟨others, ascending⟩ }, ?_, ?_⟩
  · rw [PairingRecord.read, render, read, Option.bind_some, ofMembers?_append unnamed ascending]
  · rw [Json.blurMembers_eq_map, Json.blurMembers_eq_map] at others_same
    simp only [blur, mk.injEq, true_and]
    exact Table.ext others_same

end PairingRecord

/-! ### Records that the service grants -/

/-- An answer of success was read from a text, and its status is one. -/
theorem Reply.of_value_eq_ok {reply : Reply} {root : Json} (answer : reply.value = .ok root) :
    root.Readable depthLimit ∧ root.intAt "status" = 1 := by
  rw [Reply.value] at answer
  cases text : reply.text with
  | error e =>
      rw [text] at answer
      cases answer
  | ok body =>
      rw [text] at answer
      change checkAnswer body = .ok root at answer
      rw [checkAnswer] at answer
      split at answer
      next => cases answer
      next root' read =>
        dsimp only at answer
        split at answer
        next success =>
          obtain rfl := Except.ok.inj answer
          exact ⟨Json.readable_of_read read, success⟩
        next => cases answer

theorem Reply.readable_of_paired? {reply : Reply} {r : PairingRecord}
    (paired : reply.paired? = some r) : r.Readable := by
  rw [Reply.paired?] at paired
  split at paired
  next root answer =>
    exact PairingRecord.readable_of_ofJson? (of_value_eq_ok answer).1
      (Option.filter_eq_some_iff.mp paired).1
  next => cases paired

/-- A field that stands once is the member under its name. -/
theorem PairingRecord.look_of_single {name : String} {members : List (String × Json)}
    {found : Option Json} (single_eq : single name members = some found) :
    Table.look name members = found := by
  rw [Table.look_eq_head?_filter]
  rw [single] at single_eq
  split at single_eq
  next none => rw [none]; exact Option.some.inj single_eq
  next m one => rw [one]; exact Option.some.inj single_eq
  next => cases single_eq

/-- Of all values that count as one, only the number is read strictly. -/
theorem PairingRecord.eq_one_of_status? {found : Option Json} {status : Int64}
    (strict : status? found = some status) (success : (found.map Json.asInt).getD 0 = 1) :
    found = some (.int 1) := by
  match found, strict with
  | none, _ => cases success
  | some (.number (.int n)), strict =>
      rw [status?] at strict
      split at strict
      next fits =>
        have one : Decimal.clampInt64 n = 1 := success
        simp only [Decimal.fitsInt64, Bool.and_eq_true, decide_eq_true_eq] at fits
        rw [Decimal.clampInt64] at one
        obtain rfl : n = 1 := by omega
        rfl
      next => cases strict

/-- A status that is read strictly is the one that is read leniently. -/
theorem PairingRecord.status_of_status? {found : Option Json} {status : Int64}
    (strict : status? found = some status) (success : (found.map Json.asInt).getD 0 = 1) :
    status = 1 := by
  obtain rfl := eq_one_of_status? strict success
  exact (Option.some.inj strict).symm

/-- A pairing that is granted has the status of success. -/
theorem Reply.isSuccess_of_paired? {reply : Reply} {r : PairingRecord}
    (paired : reply.paired? = some r) : r.isSuccess = true := by
  rw [Reply.paired?] at paired
  split at paired
  next root answer =>
    have success := (of_value_eq_ok answer).2
    obtain ⟨record, -⟩ := Option.filter_eq_some_iff.mp paired
    obtain ⟨members, object, record⟩ := Option.bind_eq_some_iff.mp record
    simp only [PairingRecord.ofMembers?, Option.bind_eq_bind, Option.bind_eq_some_iff] at record
    obtain ⟨found, single, status, strict, _, -, _, -, _, -, _, -, _, -, _, -, _, -, result⟩ :=
      record
    obtain rfl := Option.some.inj result
    have under : root.get? "status" = found := by
      cases root with
      | object ms =>
          obtain rfl := Option.some.inj object
          exact PairingRecord.look_of_single single
      | _ => cases object
    rw [Json.intAt, under] at success
    rw [PairingRecord.isSuccess, PairingRecord.status_of_status? strict success]
    rfl
  next => cases paired

/-! ### Records in the store -/

theorem PairStore.readable_of_record? {s : PairStore} {r : PairingRecord}
    (record : s.record? = some r) : r.Readable := by
  obtain ⟨text, -, read⟩ := Option.bind_eq_some_iff.mp record
  exact PairingRecord.readable_of_read read

/-- What is stored is found again. -/
theorem PairStore.record?_write {s : PairStore} (writable : s.writable = true) {r : PairingRecord}
    (readable : r.Readable) :
    ∃ r', (s.write r.render).record? = some r' ∧ r'.blur = r.blur := by
  obtain ⟨r', read, same⟩ := PairingRecord.read_render readable
  refine ⟨r', ?_, same⟩
  rw [write_of_writable writable, record?, Option.bind_some, read]

theorem PairingRecord.credentials_of_blur_eq {r r' : PairingRecord} (same : r'.blur = r.blur) :
    r'.credentials = r.credentials := by
  injection same with _ deviceId password
  rw [credentials, credentials, deviceId, password]

theorem PairingRecord.isFor_of_blur_eq {r r' : PairingRecord} (same : r'.blur = r.blur)
    (userName serial : String) : r'.isFor userName serial = r.isFor userName serial := by
  injection same with status _ _ userName serial
  rw [isFor, isFor, isSuccess, isSuccess, status, userName, serial]

namespace Client

/-- What becomes of the stored pairing when a login is rejected: it has no owner any more.
One that cannot be read counts as empty. -/
def disowned (c : Client) : PairingRecord :=
  { c.pairStore.record?.getD {} with userName := "" }

theorem readable_disowned (c : Client) : c.disowned.Readable := by
  cases record : c.pairStore.record? with
  | none =>
      rw [disowned, record]
      exact PairingRecord.readable_default
  | some stored =>
      have readable : stored.Readable := PairStore.readable_of_record? record
      rw [disowned, record]
      exact readable

theorem record?_reject {c : Client} (writable : c.pairStore.writable = true) :
    ∃ r, c.reject.pairStore.record? = some r ∧ r.blur = c.disowned.blur :=
  PairStore.record?_write writable c.readable_disowned

theorem record?_withPairing {c : Client} {r : PairingRecord}
    (writable : c.pairStore.writable = true) (readable : r.Readable) :
    ∃ stored, (c.withPairing r).pairStore.record? = some stored ∧
      stored.blur = (c.own r).blur :=
  PairStore.record?_write writable (r := c.own r) readable

end Client

end PvrBackend
