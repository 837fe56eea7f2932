import Mathlib
import PvrBackend.Proofs.Session.Pairings

/-!
# Recovering from what is stored

Whatever a stored pairing has become, a service that cooperates should let the client
in again: what cannot be read, or belongs to someone else, is cleared away, and the
device is paired anew.

One kind of record escapes this. Whether a stored pairing is used is decided by its
status, user and serial, whether it is of any use by its device and password. A record
of the client itself without a device is neither used nor cleared away, and the client
stays out as long as the record is there. There is no other such kind.
-/

namespace PvrBackend

/-- A service that removes any device, pairs a device with nothing but its number and
password, and lets it in. -/
structure Server.Welcomes (s : Server) (deviceId password : String) : Prop where
  removes : (s.answer .deletePairing).1.removes = true
  pairs : ∃ body, (s.answer .createPairing).1 = .body body ∧ Json.read body =
    some (.ofMembers [("status", .int 1), ("deviceId", .string deviceId),
      ("password", .string password)])
  named : deviceId ≠ "" ∧ password ≠ ""
  opens : ∃ root, (s.answer .deviceLogin).1.value = .ok root ∧ root.textAt tokenKey ≠ ""

theorem Server.Welcomes.paired? {s : Server} {deviceId password : String}
    (welcomes : s.Welcomes deviceId password) :
    (s.answer .createPairing).1.paired? = some { status := 1, deviceId, password } := by
  obtain ⟨body, reply, read⟩ := welcomes.pairs
  obtain ⟨device, secret⟩ := welcomes.named
  have first : compare "deviceId" "status" = .lt := by decide
  have second : compare "password" "status" = .lt := by decide
  have third : compare "password" "deviceId" = .gt := by decide
  have root : Json.ofMembers [("status", .int 1), ("deviceId", .string deviceId),
      ("password", .string password)] = .object [("deviceId", .string deviceId),
        ("password", .string password), ("status", .int 1)] := by
    simp [Json.ofMembers, Table.put, first, second, third]
  have record : PairingRecord.ofJson? (.object [("deviceId", .string deviceId),
      ("password", .string password), ("status", .int 1)]) =
      some { status := 1, deviceId, password } := rfl
  have nonempty : body ≠ "" := by
    rintro rfl
    have nothing : Json.read "" = none := by decide +kernel
    rw [nothing] at read
    cases read
  have value : (s.answer .createPairing).1.value = .ok (.object [("deviceId", .string deviceId),
      ("password", .string password), ("status", .int 1)]) := by
    rw [reply, Reply.value, Reply.text, if_neg nonempty]
    simp only [Except.bind, checkAnswer, read, root]
    rfl
  rw [Reply.paired?, value]
  dsimp only
  rw [record, Option.filter_some, if_pos]
  simp [PairingRecord.hasDevice, device, secret]

namespace Client

/-- A client that has done nothing yet. -/
def fresh (account : Account) (server : Server) (pairStore : PairStore) : Client :=
  { account, server, pairStore }

theorem login_fresh (account : Account) (server : Server) (pairStore : PairStore) :
    (fresh account server pairStore).login =
      match (fresh account server pairStore).pair with
      | (.error e, c) => (.error e, c)
      | (.ok (), c) => c.openSession := rfl

theorem Cleared.answer_fst {c c' : Client} (cleared : Cleared c c') {e : Endpoint}
    (other : e.name ≠ Endpoint.deletePairing.name) :
    (c'.server.answer e).1 = (c.server.answer e).1 := by
  cases cleared with
  | removed => exact c.server.answer_answer_of_ne other
  | _ => rfl

/-- A login with credentials succeeds if the service lets the device in. -/
theorem openSession_of_opens {c : Client} {root : Json}
    (answer : (c.server.answer .deviceLogin).1.value = .ok root)
    (token : root.textAt tokenKey ≠ "") :
    c.openSession.1 = .ok () ∧ c.openSession.2.loggedIn = true := by
  have sent : (c.send c.opening).1.value = .ok root := answer
  have opening := c.openSession_opening
  generalize c.openSession = result at opening ⊢
  cases opening with
  | @opened root' answer' token' =>
      refine ⟨rfl, ?_⟩
      simpa [loggedIn] using token'
  | unanswered answer' =>
      rw [sent] at answer'
      cases answer'
  | rejected answer' =>
      rw [sent, Except.bind, tokenOf_of_ne token] at answer'
      cases answer'

/-- A client that cannot use its stored pairing and does not clear it away stays as it is. -/
theorem login_of_unusable {account : Account} {server : Server} {pairStore : PairStore}
    {stored : PairingRecord} (record : pairStore.record? = some stored)
    (own : stored.isFor account.userName account.serial = true)
    (device : stored.hasDevice = false) :
    (fresh account server pairStore).login =
      (.error (.pairing .noCredentials), fresh account server pairStore) := by
  have paired : (fresh account server pairStore).pair =
      (.error (.pairing .noCredentials), fresh account server pairStore) := by
    have read : (fresh account server pairStore).pairStore.record? = some stored := record
    have mine : stored.isFor (fresh account server pairStore).account.userName
      (fresh account server pairStore).account.serial = true := own
    rw [pair, read]
    dsimp only
    rw [if_pos mine, adopt_of_not_hasDevice device]
  rw [login_fresh, paired]

/-- With a service that cooperates a client that starts is let in, whatever is stored,
exactly when a stored pairing of its own names a device. If that names none the client
sends nothing and stays as it is, and so it does on every further attempt. -/
theorem login_recovers_iff {account : Account} {server : Server} {pairStore : PairStore}
    {deviceId password : String} (welcomes : server.Welcomes deviceId password) :
    ((fresh account server pairStore).login.1 = .ok () ∧
        (fresh account server pairStore).login.2.loggedIn = true ↔
      ∀ stored, pairStore.record? = some stored →
        stored.isFor account.userName account.serial = true → stored.hasDevice = true) ∧
    ∀ stored, pairStore.record? = some stored →
      stored.isFor account.userName account.serial = true → stored.hasDevice = false →
      (fresh account server pairStore).login =
        (.error (.pairing .noCredentials), fresh account server pairStore) := by
  refine ⟨⟨?_, ?_⟩, fun stored record own device => login_of_unusable record own device⟩
  · intro succeeds stored record own
    cases device : stored.hasDevice with
    | true => rfl
    | false =>
        rw [login_of_unusable record own device] at succeeds
        cases succeeds.1
  · intro usable
    obtain ⟨root, answer, token⟩ := welcomes.opens
    have paired := (fresh account server pairStore).pair_pairing
    rw [login_fresh]
    generalize (fresh account server pairStore).pair = attempt at paired ⊢
    cases paired with
    | reused => exact openSession_of_opens answer token
    | @unusable stored record own device =>
        rw [usable stored record own] at device
        cases device
    | kept _ _ _ kept =>
        have gone : (server.answer .deletePairing).1.removes = false := kept
        rw [welcomes.removes] at gone
        cases gone
    | @refused c' e cleared unpaired =>
        have granted : (c'.server.answer .createPairing).1.paired? = none := unpaired
        rw [cleared.answer_fst (by decide)] at granted
        cases welcomes.paired?.symm.trans granted
    | @renewed c' r cleared =>
        have next : ((c'.server.answer .createPairing).2.answer .deviceLogin).1 =
            (server.answer .deviceLogin).1 :=
          (c'.server.answer_answer_of_ne (by decide)).trans (cleared.answer_fst (by decide))
        have opens : (((c'.send c'.creation).2.withPairing r).server.answer .deviceLogin).1.value =
            .ok root := (congrArg Reply.value next).trans answer
        exact openSession_of_opens opens token

/-- A service that removes any device, pairs it anew and lets it in. -/
def forgiving : Server :=
  ⟨((Table.empty.insert "delete-pairing" [.body "\x7b\"status\":1\x7d"]).insert "create-pairing"
      [.body "\x7b\"status\":1,\"deviceId\":\"42\",\"password\":\"secret\"\x7d"]).insert
    "device-login" [.body "\x7b\"status\":1,\"PHPSESSID\":\"first\"\x7d"]⟩

theorem forgiving_welcomes : forgiving.Welcomes "42" "secret" where
  removes := by decide +kernel
  pairs := by
    refine ⟨"\x7b\"status\":1,\"deviceId\":\"42\",\"password\":\"secret\"\x7d",
      by decide +kernel, ?_⟩
    cbv
  named := by decide
  opens := by
    have reply : (forgiving.answer .deviceLogin).1 =
        .body "\x7b\"status\":1,\"PHPSESSID\":\"first\"\x7d" := by decide +kernel
    refine ⟨.ofMembers [("status", .int 1), ("PHPSESSID", .string "first")], ?_, by decide +kernel⟩
    rw [reply]
    cbv

/-- The account of a user on a device. -/
def janOnBox : Account := ⟨default, "jan", "secret", "box", "a9b2"⟩

/-- What another user left behind. -/
def foreignStore : PairStore :=
  { content := some
      "\x7b\"status\":1,\"deviceId\":7,\"password\":\"old\",\"userName\":\"eva\"\x7d" }

/-- A pairing of the user and the device that does not say as what to log in. -/
def namelessStore : PairStore :=
  { content := some "\x7b\"status\":1,\"userName\":\"jan\",\"serial\":\"a9b2\"\x7d" }

/-- What another user left behind is cleared away. -/
theorem login_recovers_from_foreign :
    (fresh janOnBox forgiving foreignStore).login.1 = .ok () ∧
    (fresh janOnBox forgiving foreignStore).login.2.loggedIn = true := by
  refine (login_recovers_iff forgiving_welcomes).1.mpr fun stored record own => ?_
  have foreign : foreignStore.record?.all (!·.isFor janOnBox.userName janOnBox.serial) = true := by
    decide +kernel
  rw [record, Option.all_some, own] at foreign
  cases foreign

/-- A pairing of the client's own that names no device keeps the client out, although
the service would let it in. -/
theorem own_nameless_locks_out :
    forgiving.Welcomes "42" "secret" ∧
    (fresh janOnBox forgiving namelessStore).login.1 = .error (.pairing .noCredentials) ∧
    (fresh janOnBox forgiving namelessStore).login.2.loggedIn = false := by
  have nameless : (namelessStore.record?.any fun r =>
      r.isFor janOnBox.userName janOnBox.serial && !r.hasDevice) = true := by decide +kernel
  obtain ⟨stored, record, unusable⟩ := (Option.any_eq_true _ _).mp nameless
  obtain ⟨own, device⟩ := Bool.and_eq_true_iff.mp unusable
  rw [login_of_unusable record own (by simpa using device)]
  exact ⟨forgiving_welcomes, rfl, rfl⟩

end Client

end PvrBackend
