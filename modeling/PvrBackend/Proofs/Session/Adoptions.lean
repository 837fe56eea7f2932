import PvrBackend.Proofs.Session.Outcomes
import PvrBackend.Proofs.Session.Recovery

/-!
# Devices that are granted and lost

The answer to a pairing is read twice. Whether it is one of success is decided leniently: its status
may be a text, a fraction or a truth value. The record that is kept is read strictly: its status has
to be the number, and a user name and a serial, if there are any, have to be texts, although both
are replaced by those of the client. An answer between the two grants a device that the client does
not take. It reports a malformed answer and sends nothing further, and the device stays paired with
nobody to use it.
-/

namespace PvrBackend

/-! ### Answers that grant a device -/

/-- An answer offers a device, by a text or a number other than zero, and a text as its password. -/
structure Json.Offers (root : Json) (offered : Credentials) : Prop where
  device : (∃ n : Int, n ≠ 0 ∧ root.get? "deviceId" = some (.int n) ∧
      offered.deviceId = Decimal.intText n) ∨
    root.get? "deviceId" = some (.string offered.deviceId)
  password : root.get? "password" = some (.string offered.password)
  valid : offered.valid = true

/-- The fields of an answer are of the types that a record asks for. -/
structure Json.Typed (root : Json) : Prop where
  status : root.get? "status" = some (.int 1)
  userName : ∀ j, root.get? "userName" = some j → ∃ s, j = .string s
  serial : ∀ j, root.get? "serial" = some j → ∃ s, j = .string s

namespace PairingRecord

theorem single_of_ascending {members : List (String × Json)}
    (ascending : Table.Ascending members) (name : String) :
    single name members = some (Table.look name members) := by
  rw [single, Table.Ascending.filter_key ascending]
  cases Table.look name members <;> rfl

theorem exists_text?_iff {found : Option Json} :
    (∃ s, text? found = some s) ↔ ∀ j, found = some j → ∃ s, j = .string s := by
  cases found with
  | none => simp [text?]
  | some j => cases j <;> simp [text?]

theorem deviceId?_of_offers {root : Json} {offered : Credentials} (offers : root.Offers offered) :
    deviceId? (root.get? "deviceId") = offered.deviceId := by
  rcases offers.device with ⟨n, other, found, named⟩ | found
  · rw [found, named, Json.int, deviceId?]
    · rfl
    · rintro ⟨⟩
      exact other rfl
  · rw [found, deviceId?]

/-- An object is read field by field. -/
theorem ofJson?_object {members : List (String × Json)} (ascending : Table.Ascending members) :
    ∃ extra, ofJson? (.object members) =
      (status? (Table.look "status" members)).bind fun status =>
      (text? (Table.look "password" members)).bind fun password =>
      (text? (Table.look "userName" members)).bind fun userName =>
      (text? (Table.look "serial" members)).bind fun serial =>
      some
        ⟨status, deviceId? (Table.look "deviceId" members), password, userName, serial, extra⟩ := by
  let others := members.filter fun m => !fieldNames.contains m.1
  refine ⟨others.foldl (fun table m => table.insert m.1 m.2) .empty, ?_⟩
  rw [ofJson?, Json.members?, Option.bind_some, ofMembers?]
  simp only [single_of_ascending ascending, Option.bind_eq_bind, Option.bind_some]
  rfl

end PairingRecord

open PairingRecord

/-- An answer is read as a record if its fields are of their types, and the device of the record is
the one that was offered. -/
theorem Json.Offers.record_iff {depth : Nat} {root : Json} (readable : root.Readable depth)
    (success : root.intAt "status" = 1) {offered : Credentials} (offers : root.Offers offered) :
    (root.Typed → ∃ r, ofJson? root = some r ∧ r.credentials = offered) ∧
      (¬ root.Typed → ofJson? root = none) := by
  have device := deviceId?_of_offers offers
  have password := offers.password
  cases readable with
  | @object _ members ascending _ =>
      obtain ⟨extra, read⟩ := ofJson?_object ascending
      change deviceId? (Table.look "deviceId" members) = _ at device
      change Table.look "password" members = _ at password
      rw [read, device, password]
      refine ⟨fun typed => ?_, fun untyped => ?_⟩
      · obtain ⟨userName, named⟩ := exists_text?_iff.mpr typed.userName
        obtain ⟨serial, numbered⟩ := exists_text?_iff.mpr typed.serial
        have status : Table.look "status" members = some (.int 1) := typed.status
        change text? (Table.look "userName" members) = _ at named
        change text? (Table.look "serial" members) = _ at numbered
        rw [status, named, numbered]
        exact ⟨_, rfl, rfl⟩
      · rw [Option.eq_none_iff_forall_ne_some]
        intro r record
        simp only [Option.bind_eq_some_iff] at record
        obtain ⟨status, strict, _, -, userName, named, serial, numbered, -⟩ := record
        exact untyped ⟨eq_one_of_status? strict success, exists_text?_iff.mp ⟨userName, named⟩,
          exists_text?_iff.mp ⟨serial, numbered⟩⟩
  | _ => cases password

namespace Client

/-! ### Taking the device -/

theorem Cleared.pair_eq {c c' : Client} (cleared : Cleared c c') : c.pair = c'.pairAnew := by
  rw [pair]
  cases cleared with
  | unread unread => rw [unread]
  | @nameless stored record foreign nameless =>
      have other : stored.isFor c.account.userName c.account.serial = false := foreign
      rw [record]
      dsimp only
      rw [if_neg (Bool.eq_false_iff.mp other), deletePairing, if_pos nameless]
  | @removed stored record foreign named gone =>
      have other : stored.isFor c.account.userName c.account.serial = false := foreign
      rw [record]
      dsimp only
      rw [if_neg (Bool.eq_false_iff.mp other), deletePairing_of_named named, gone]

/-- A login goes on with the device that it was granted: it asks for a session with it. -/
structure Adopts (c granted : Client) (offered : Credentials) : Prop where
  credentials : c.atLogin.credentials = offered
  asks : ∃ reply, c.login.2.exchanges = granted.exchanges ++
    [⟨{ granted with credentials := offered }.opening, reply⟩]

/-- A login that has no device to use, and is rid of any stored pairing, is granted one. It takes
the device exactly if the fields of the answer are of their types. Otherwise it fails, nothing is
sent after the answer, and nothing is kept of the device. -/
theorem login_adopts_iff {c c' : Client} (deviceless : c.credentials.valid = false)
    (cleared : Cleared c.locked c') {root : Json}
    (accepted : (c'.send c'.creation).1.value = .ok root) {offered : Credentials}
    (offers : root.Offers offered) :
    (Adopts c (c'.send c'.creation).2 offered ↔ root.Typed) ∧
    (¬ root.Typed → c.login = (.error .malformed, (c'.send c'.creation).2)) := by
  obtain ⟨readable, success⟩ := Reply.of_value_eq_ok accepted
  obtain ⟨typed_read, untyped_unread⟩ := offers.record_iff readable success
  have ensured : c.locked.ensureCredentials = c'.pairAnew := by
    rw [← cleared.pair_eq, ensureCredentials]
    exact if_neg (Bool.eq_false_iff.mp deviceless)
  have lost (untyped : ¬ root.Typed) : c.login = (.error .malformed, (c'.send c'.creation).2) := by
    have called : c'.call .createPairing c'.createPairingParams =
        (.ok root, (c'.send c'.creation).2) := Prod.ext accepted rfl
    rw [login_eq, ensured, pairAnew, createPairing, called]
    dsimp only
    rw [untyped_unread untyped]
  refine ⟨⟨fun adopts => ?_, fun typed => ?_⟩, lost⟩
  · by_contra untyped
    obtain ⟨reply, asked⟩ := adopts.asks
    rw [lost untyped] at asked
    simp at asked
  · obtain ⟨r, read, credentials⟩ := typed_read typed
    have paired : (c'.send c'.creation).1.paired? = some r := by
      rw [Reply.paired?, accepted]
      dsimp only
      rw [read, Option.filter_some, ← valid_credentials, credentials, if_pos offers.valid]
    have granted := pairAnew_of_paired paired
    have ready : c.atLogin = (c'.send c'.creation).2.withPairing r := by
      rw [atLogin, ensured, granted]
    have opened : c.login = ((c'.send c'.creation).2.withPairing r).openSession := by
      rw [login_eq, ensured, granted]
    have sent := ((c'.send c'.creation).2.withPairing r).openSession_exchanges
    rw [← opened] at sent
    refine ⟨ready ▸ credentials, ?_⟩
    rw [← credentials]
    exact ⟨_, sent⟩

/-- An answer that grants a device, with a status. -/
def grant (status : Json) : Json :=
  .object [("deviceId", .int 42), ("password", .string "secret"), ("status", status)]

/-- A service that answers a pairing with a status, and lets any device in. -/
def granting (status : Json) : Server :=
  ⟨(Table.empty.insert "create-pairing" [.body (grant status).render]).insert
    "device-login" [.body "\x7b\"status\":1,\"PHPSESSID\":\"first\"\x7d"]⟩

/-- A client of that service, without a pairing. -/
def newcomer (status : Json) : Client := fresh janOnBox (granting status) {}

theorem newcomer_cleared (status : Json) : Cleared (newcomer status).locked (newcomer status) :=
  .unread rfl

theorem newcomer_offered (status : Json) : (grant status).Offers ⟨"42", "secret"⟩ where
  device := .inl ⟨42, by decide, rfl, by decide +kernel⟩
  password := rfl
  valid := by decide

theorem readable_grant {status : Json} (readable : status.Readable (Json.depthLimit - 1)) :
    (grant status).Readable Json.depthLimit := by
  refine .object ?_ ?_
  · simp only [Table.Ascending, List.pairwise_cons, List.forall_mem_cons]
    decide
  · simp only [List.forall_mem_cons]
    exact ⟨.number ⟨by decide, by decide⟩, .string _, readable, nofun⟩

theorem whole_grant {status : Json} (whole : status.Whole) : (grant status).Whole := by
  refine .object ?_
  simp only [List.forall_mem_cons]
  exact ⟨.int 42, .string _, whole, nofun⟩

/-- The service grants the device if the status reads as one. -/
theorem newcomer_accepted {status : Json} (whole : status.Whole)
    (readable : status.Readable (Json.depthLimit - 1))
    (success : (grant status).intAt "status" = 1) :
    ((newcomer status).send (newcomer status).creation).1.value = .ok (grant status) := by
  have read := (whole_grant whole).read_render (readable_grant readable)
  have nonempty : (grant status).render ≠ "" := by
    intro empty
    rw [empty] at read
    cases read
  have sent : ((newcomer status).send (newcomer status).creation).1 =
      .body (grant status).render := rfl
  rw [sent, Reply.value, Reply.text, if_neg nonempty]
  simp only [Except.bind, checkAnswer, read, success, if_true]

/-- A status that is a number is taken, with the device that is a number too. -/
theorem login_adopts_number : Adopts (newcomer (.int 1))
    ((newcomer (.int 1)).send (newcomer (.int 1)).creation).2 ⟨"42", "secret"⟩ := by
  have accepted := newcomer_accepted (.int 1) (.number ⟨by decide, by decide⟩) rfl
  have typed : (grant (.int 1)).Typed := ⟨rfl, nofun, nofun⟩
  exact (login_adopts_iff (by decide) (newcomer_cleared _) accepted
    (newcomer_offered _)).1.mpr typed

/-- It is not true that every device that is granted is taken: a status that is a text counts as
success, and nothing is sent after the answer. -/
theorem not_always_adopted : ¬ ∀ (c c' : Client) (root : Json) (offered : Credentials),
    c.credentials.valid = false → Cleared c.locked c' →
    (c'.send c'.creation).1.value = .ok root → root.Offers offered →
    Adopts c (c'.send c'.creation).2 offered := by
  intro always
  have accepted := newcomer_accepted (.string "1") (.string "1") (by decide)
  have adopts := always _ _ _ ⟨"42", "secret"⟩ (by decide) (newcomer_cleared _) accepted
    (newcomer_offered _)
  have sent : (newcomer (.string "1")).login.2.exchanges.length = 1 := by decide +kernel
  obtain ⟨reply, asked⟩ := adopts.asks
  rw [asked] at sent
  cases sent

end Client

end PvrBackend
