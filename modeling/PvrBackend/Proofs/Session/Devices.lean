import PvrBackend.Proofs.Session.Operations
import PvrBackend.Proofs.Session.Records
import PvrBackend.Proofs.Session.Recovery

/-!
# Paired devices are not forgotten

A device that was paired takes a place in the account until it is removed, so a client must
not lose it. Which device is owed to the account can be read off from what was sent and what
came back, over the runs of all clients that used one store: the last one that was granted,
unless a reply settled since that it is gone.

`Keeps` holds at all times: what is owed is in the store, and nothing new was paired while
something was owed. The store is rewritten when a login is rejected and survives restarts,
so what the service sent along with a pairing has to be read back every time.
-/

namespace PvrBackend

/-! ### Devices in a history of exchanges -/

/-- The pairing that an exchange grants. -/
def Exchange.granted? (x : Exchange) : Option PairingRecord :=
  if x.request.endpoint = .createPairing then x.reply.paired? else none

/-- Whether an exchange settles that a device is gone: it was named for removal, and the
service removed it or does not know it. -/
def Exchange.removes (x : Exchange) (deviceId : String) : Bool :=
  x.request.endpoint = .deletePairing && x.request.params.contains ("deviceId", deviceId) &&
    x.reply.removes

/-- What is owed after one more exchange. -/
def Exchange.settle (owed : Option Credentials) (x : Exchange) : Option Credentials :=
  match x.granted? with
  | some r => some r.credentials
  | none => owed.filter fun device => !x.removes device.deviceId

/-- The device that is owed to the account after a history. -/
def owed (xs : List Exchange) : Option Credentials := xs.foldl Exchange.settle none

theorem owed_concat (xs : List Exchange) (x : Exchange) :
    owed (xs ++ [x]) = x.settle (owed xs) := by
  rw [owed, List.foldl_append]
  rfl

namespace Exchange

variable {x : Exchange}

theorem granted?_of_ne (other : x.request.endpoint ≠ .createPairing) : x.granted? = none :=
  if_neg other

theorem granted?_of_eq (create : x.request.endpoint = .createPairing) :
    x.granted? = x.reply.paired? :=
  if_pos create

theorem hasDevice_of_granted? {r : PairingRecord} (granted : x.granted? = some r) :
    r.hasDevice = true := by
  rw [granted?] at granted
  split at granted
  · exact Reply.hasDevice_of_paired? granted
  · cases granted

theorem settle_of_granted? {r : PairingRecord} (granted : x.granted? = some r)
    (owed : Option Credentials) : x.settle owed = some r.credentials := by
  rw [settle, granted]

theorem settle_of_not_granted (ungranted : x.granted? = none) (owed : Option Credentials) :
    x.settle owed = owed.filter fun device => !x.removes device.deviceId := by
  rw [settle, ungranted]

end Exchange

/-- Without a new pairing nothing else comes to be owed. -/
theorem owed_of_owed_concat {xs : List Exchange} {x : Exchange} {device : Credentials}
    (ungranted : x.granted? = none) (owes : owed (xs ++ [x]) = some device) :
    owed xs = some device := by
  rw [owed_concat, Exchange.settle_of_not_granted ungranted] at owes
  exact (Option.filter_eq_some_iff.mp owes).1

/-- What is owed after some history names a device. -/
theorem valid_of_owed {xs : List Exchange} {device : Credentials} (owes : owed xs = some device) :
    device.valid = true := by
  induction xs using List.reverseRecOn generalizing device with
  | nil => cases owes
  | append_singleton xs x ih =>
      cases granted : x.granted? with
      | some r =>
          rw [owed_concat, Exchange.settle_of_granted? granted] at owes
          obtain rfl := Option.some.inj owes
          exact Exchange.hasDevice_of_granted? granted
      | none => exact ih (owed_of_owed_concat granted owes)

/-- No device was paired while another one was owed. -/
def SparingHistory (xs : List Exchange) : Prop :=
  ∀ before x after, xs = before ++ x :: after →
    x.request.endpoint = .createPairing → owed before = none

theorem sparingHistory_nil : SparingHistory [] := each_nil

theorem SparingHistory.concat {xs : List Exchange} {x : Exchange} (sparing : SparingHistory xs)
    (free : x.request.endpoint = .createPairing → owed xs = none) :
    SparingHistory (xs ++ [x]) :=
  each_concat sparing free

/-- A device that is granted stays owed while no reply settles that it is gone, and in that
time no other device is paired. -/
theorem SparingHistory.owed_of_granted {before after rest : List Exchange} {x : Exchange}
    {r : PairingRecord} (sparing : SparingHistory (before ++ x :: (after ++ rest)))
    (granted : x.granted? = some r) (kept : ∀ y ∈ after, y.removes r.deviceId = false) :
    owed (before ++ x :: after) = some r.credentials ∧
      ∀ y ∈ after, y.request.endpoint ≠ .createPairing := by
  induction after using List.reverseRecOn generalizing rest with
  | nil => exact ⟨by rw [owed_concat, Exchange.settle_of_granted? granted], by simp⟩
  | append_singleton after y ih =>
      have earlier : SparingHistory (before ++ x :: (after ++ y :: rest)) := by
        simpa using sparing
      obtain ⟨owes, unpaired⟩ := ih earlier fun z member => kept z (by simp [member])
      have other : y.request.endpoint ≠ .createPairing := fun create => by
        have none := sparing (before ++ x :: after) y rest (by simp) create
        rw [owes] at none
        cases none
      refine ⟨?_, fun z member => ?_⟩
      · rw [← List.cons_append, ← List.append_assoc, owed_concat,
          Exchange.settle_of_not_granted (Exchange.granted?_of_ne other), owes,
          Option.filter_some, if_pos]
        simpa [PairingRecord.credentials] using kept y (by simp)
      · rcases List.mem_append.mp member with inside | last
        · exact unpaired z inside
        · exact List.mem_singleton.mp last ▸ other

/-! ### What a store keeps -/

/-- Writing to a store works, what is owed is in it, and no device was paired while another
one was owed. -/
structure Keeps (xs : List Exchange) (s : PairStore) : Prop where
  writable : s.writable = true
  stored : ∀ device, owed xs = some device → ∃ r, s.record? = some r ∧ r.credentials = device
  sparing : SparingHistory xs

namespace Keeps

variable {xs : List Exchange} {x : Exchange} {s s' : PairStore}

/-- Whatever else is sent than a request to pair, what is owed can only become less. -/
theorem concat_of_ne (keeps : Keeps xs s) (other : x.request.endpoint ≠ .createPairing) :
    Keeps (xs ++ [x]) s where
  writable := keeps.writable
  stored device owes :=
    keeps.stored device (owed_of_owed_concat (Exchange.granted?_of_ne other) owes)
  sparing := keeps.sparing.concat fun create => absurd create other

theorem concat_of_unpaired (keeps : Keeps xs s) (free : owed xs = none)
    (ungranted : x.granted? = none) : Keeps (xs ++ [x]) s where
  writable := keeps.writable
  stored device owes := keeps.stored device (owed_of_owed_concat ungranted owes)
  sparing := keeps.sparing.concat fun _ => free

/-- A pairing that is granted has to be stored. -/
theorem concat_of_paired (keeps : Keeps xs s) (free : owed xs = none) {r r' : PairingRecord}
    (granted : x.granted? = some r) (writable : s'.writable = true)
    (record : s'.record? = some r') (same : r'.credentials = r.credentials) :
    Keeps (xs ++ [x]) s' where
  writable := writable
  stored device owes := by
    rw [owed_concat, Exchange.settle_of_granted? granted] at owes
    exact ⟨r', record, same.trans (Option.some.inj owes)⟩
  sparing := keeps.sparing.concat fun _ => free

/-- A stored pairing may be rewritten if its device stays. -/
theorem rewritten (keeps : Keeps xs s) {r r' : PairingRecord} (writable : s'.writable = true)
    (record : s'.record? = some r') (same : r'.credentials = r.credentials)
    (device : ∀ stored, s.record? = some stored → stored.credentials = r.credentials) :
    Keeps xs s' where
  writable := writable
  stored owing owes := by
    obtain ⟨stored, old, credentials⟩ := keeps.stored owing owes
    exact ⟨r', record, same.trans ((device stored old).symm.trans credentials)⟩
  sparing := keeps.sparing

theorem owed_of_record?_eq_none (keeps : Keeps xs s) (unread : s.record? = none) :
    owed xs = none := by
  cases owes : owed xs with
  | none => rfl
  | some device =>
      obtain ⟨r, record, -⟩ := keeps.stored device owes
      rw [unread] at record
      cases record

theorem owed_of_deviceId_eq (keeps : Keeps xs s) {r : PairingRecord} (record : s.record? = some r)
    (nameless : r.deviceId = "") : owed xs = none := by
  cases owes : owed xs with
  | none => rfl
  | some device =>
      obtain ⟨r', record', rfl⟩ := keeps.stored device owes
      obtain rfl := Option.some.inj (record.symm.trans record')
      exact absurd nameless (PairingRecord.deviceId_ne (valid_of_owed owes))

/-- Once the stored device is removed nothing is owed. -/
theorem owed_of_removes (keeps : Keeps xs s) {r : PairingRecord} (record : s.record? = some r)
    (removes : x.removes r.deviceId = true) : owed (xs ++ [x]) = none := by
  have delete : x.request.endpoint = .deletePairing := by
    rw [Exchange.removes, Bool.and_assoc, Bool.and_eq_true, decide_eq_true_eq] at removes
    exact removes.1
  rw [owed_concat, Exchange.settle_of_not_granted
    (Exchange.granted?_of_ne (by rw [delete]; decide))]
  cases owes : owed xs with
  | none => rfl
  | some device =>
      obtain ⟨r', record', rfl⟩ := keeps.stored device owes
      obtain rfl := Option.some.inj (record.symm.trans record')
      rw [Option.filter_some, if_neg (by simpa [PairingRecord.credentials] using removes)]

end Keeps

/-! ### What clients keep -/

namespace Client

variable {past : List Exchange} {c c' : Client}

/-- A request to remove a stored pairing names its device. -/
theorem removes_removal {stored : PairingRecord}
    (gone : (c.send (c.removal stored)).1.removes = true) :
    Exchange.removes ⟨c.removal stored, (c.send (c.removal stored)).1⟩ stored.deviceId = true := by
  have named : (c.deletePairingParams stored).contains ("deviceId", stored.deviceId) = true := by
    simp [deletePairingParams]
  rw [Exchange.removes, gone, Bool.and_true, Bool.and_eq_true]
  exact ⟨rfl, named⟩

/-- The store of a client keeps what the client and those before it were granted. -/
def Remembers (c : Client) (past : List Exchange) : Prop :=
  Keeps (past ++ c.exchanges) c.pairStore

namespace Remembers

theorem send (keeps : c.Remembers past) {request : Request}
    (other : request.endpoint ≠ .createPairing) : (c.send request).2.Remembers past := by
  rw [Remembers, send_exchanges, ← List.append_assoc]
  exact keeps.concat_of_ne other

/-- The stored pairing is cleared away only if nothing is owed after that. -/
theorem cleared (keeps : c.Remembers past) (cleared : Cleared c c') :
    c'.Remembers past ∧ owed (past ++ c'.exchanges) = none := by
  cases cleared with
  | unread unread => exact ⟨keeps, keeps.owed_of_record?_eq_none unread⟩
  | nameless record _ nameless => exact ⟨keeps, keeps.owed_of_deviceId_eq record nameless⟩
  | removed record _ _ gone =>
      refine ⟨keeps.send nofun, ?_⟩
      rw [send_exchanges, ← List.append_assoc]
      exact keeps.owed_of_removes record (removes_removal gone)

theorem pairing {attempt : Except ApiError Unit × Client} (keeps : c.Remembers past)
    (pairing : Pairing c attempt) : attempt.2.Remembers past := by
  cases pairing with
  | reused => exact keeps
  | unusable => exact keeps
  | kept => exact keeps.send nofun
  | @refused c' e cleared unpaired =>
      obtain ⟨keeps', free⟩ := keeps.cleared cleared
      rw [Remembers, send_exchanges, ← List.append_assoc]
      exact keeps'.concat_of_unpaired free ((Exchange.granted?_of_eq rfl).trans unpaired)
  | @renewed c' r cleared paired =>
      obtain ⟨keeps', free⟩ := keeps.cleared cleared
      obtain ⟨r', record, same⟩ := record?_withPairing (c := (c'.send c'.creation).2)
        keeps'.writable (Reply.readable_of_paired? paired)
      have credentials : r'.credentials = ((c'.send c'.creation).2.own r).credentials :=
        PairingRecord.credentials_of_blur_eq same
      have granted : Exchange.granted? ⟨c'.creation, (c'.send c'.creation).1⟩ = some r :=
        (Exchange.granted?_of_eq rfl).trans paired
      have grown : past ++ ((c'.send c'.creation).2.withPairing r).exchanges =
          past ++ c'.exchanges ++ [⟨c'.creation, (c'.send c'.creation).1⟩] :=
        (List.append_assoc ..).symm
      rw [Remembers, grown]
      exact keeps'.concat_of_paired free granted
        ((c'.pairStore.write_writable _).trans keeps'.writable) record credentials

theorem ensureCredentials (keeps : c.Remembers past) :
    c.ensureCredentials.2.Remembers past := by
  rw [Client.ensureCredentials]
  split
  next => exact keeps
  next => exact keeps.pairing c.pair_pairing

/-- A rejected login takes the owner of the stored pairing, not its device. -/
theorem reject (keeps : c.Remembers past) : c.reject.Remembers past := by
  obtain ⟨r', record, same⟩ := record?_reject keeps.writable
  refine keeps.rewritten ((c.pairStore.write_writable _).trans keeps.writable) record
    (PairingRecord.credentials_of_blur_eq same) fun stored old => ?_
  rw [disowned, old]
  rfl

theorem openSession (keeps : c.Remembers past) : c.openSession.2.Remembers past := by
  have sent : (c.send c.opening).2.Remembers past := keeps.send nofun
  have opening := c.openSession_opening
  generalize c.openSession = result at opening ⊢
  cases opening with
  | opened => exact sent
  | unanswered => exact sent
  | rejected => exact sent.reject

theorem login (keeps : c.Remembers past) : c.login.2.Remembers past := by
  have start : { c with pinUnlocked := false }.Remembers past := keeps
  have ensured := start.ensureCredentials
  rw [Client.login]
  split
  next e c' result => rwa [result] at ensured
  next c' result =>
    rw [result] at ensured
    exact ensured.openSession

theorem callInSession (keeps : c.Remembers past) {e : Endpoint} (inside : e.inSession = true)
    (params : Params) : (c.callInSession e params).2.Remembers past := by
  rw [Client.callInSession]
  split
  next =>
    refine keeps.send ?_
    rintro rfl
    contradiction
  next => exact keeps

theorem pinUnlock (keeps : c.Remembers past) (pin : String) :
    (c.pinUnlock pin).2.Remembers past := by
  have called := keeps.callInSession (e := .pinUnlock) rfl [("pin", pin)]
  rw [Client.pinUnlock]
  split
  next e c' result => rwa [result] at called
  next root c' result =>
    rw [result] at called
    exact called

theorem perform (keeps : c.Remembers past) (op : Operation) : (c.perform op).2.Remembers past := by
  have performed := c.perform_performed op
  generalize (c.perform op).2 = c' at performed ⊢
  cases performed with
  | login => exact keeps.login
  | pinUnlock pin => exact keeps.pinUnlock pin
  | call inside params => exact keeps.callInSession inside params

end Remembers

/-! ### Successions of clients -/

/-- Clients that use one store one after another, whatever was in it at first: the one at
hand, and what was sent before it started. The next client may act for another account.
A login counts as two steps, so that the service may change its mind amid it, and the next
client may start there. -/
inductive Succession : List Exchange → Client → Prop where
  | start (account : Account) (server : Server) (pairStore : PairStore)
      (writable : pairStore.writable = true) : Succession [] (fresh account server pairStore)
  | restart {past : List Exchange} {c : Client} (run : Succession past c) (account : Account)
      (server : Server) : Succession (past ++ c.exchanges) (fresh account server c.pairStore)
  | meanwhile {past : List Exchange} {c : Client} (run : Succession past c) (server : Server) :
      Succession past { c with server }
  | perform {past : List Exchange} {c : Client} (run : Succession past c) (op : Operation) :
      Succession past (c.perform op).2
  | pairing {past : List Exchange} {c : Client} (run : Succession past c) :
      Succession past { c with pinUnlocked := false }.ensureCredentials.2
  | opening {past : List Exchange} {c : Client} (run : Succession past c) :
      Succession past c.openSession.2

theorem Succession.remembers (run : Succession past c) : c.Remembers past := by
  induction run with
  | start account server pairStore writable =>
      exact ⟨writable, (fun _ owes => nomatch owes), sparingHistory_nil⟩
  | @restart past c _ account server keeps =>
      rw [Remembers, show (fresh account server c.pairStore).exchanges = [] from rfl,
        List.append_nil]
      exact keeps
  | meanwhile _ server keeps => exact keeps
  | perform _ op keeps => exact keeps.perform op
  | @pairing past c _ keeps =>
      have start : { c with pinUnlocked := false }.Remembers past := keeps
      exact start.ensureCredentials
  | opening _ keeps => exact keeps.openSession

/-- Once a device was granted, and as long as no reply settles that it is gone, it is in the
store, however often clients log in or start anew, and no device is paired. -/
theorem device_kept_until_removed (run : Succession past c) {before after rest : List Exchange}
    {x : Exchange} {r : PairingRecord}
    (split : past ++ c.exchanges = before ++ x :: (after ++ rest))
    (granted : x.granted? = some r) (kept : ∀ y ∈ after, y.removes r.deviceId = false) :
    (∀ y ∈ after, y.request.endpoint ≠ .createPairing) ∧
    (rest = [] → ∃ stored, c.pairStore.record? = some stored ∧
      stored.deviceId = r.deviceId ∧ stored.password = r.password) := by
  have keeps : Keeps (past ++ c.exchanges) c.pairStore := run.remembers
  rw [split] at keeps
  obtain ⟨owes, unpaired⟩ := keeps.sparing.owed_of_granted granted kept
  refine ⟨unpaired, fun last => ?_⟩
  rw [last, List.append_nil] at keeps
  obtain ⟨stored, record, same⟩ := keeps.stored _ owes
  injection same with deviceId password
  exact ⟨stored, record, deviceId, password⟩

/-- A service that pairs any device but does not let it in. -/
def refusing : Server :=
  ⟨(Table.empty.insert "create-pairing"
      [.body "\x7b\"status\":1,\"deviceId\":42,\"password\":\"secret\"\x7d"]).insert
    "device-login" [.body "\x7b\"status\":0,\"error\":\"bad\"\x7d"]⟩

/-- What is left of a client whose first login was refused. -/
def refused : Client := ((fresh janOnBox refusing {}).perform .login).2

/-- What is left of the client after that, which acts for someone else and could not remove the
device. -/
def hindered : Client := ((fresh default welcoming refused.pairStore).perform .login).2

/-- A device whose login was refused is still known to the next client, which asks to remove it
and pairs no other one when there is no answer. -/
theorem device_kept_after_refusal : ∃ past c, Succession past c ∧
    (past ++ c.exchanges).map (·.request.endpoint) =
      [.createPairing, .deviceLogin, .deletePairing] ∧
    ∃ stored, c.pairStore.record? = some stored ∧ stored.deviceId = "42" ∧
      stored.password = "secret" := by
  have first : Succession [] refused := (Succession.start janOnBox refusing {} rfl).perform .login
  have run : Succession ([] ++ refused.exchanges) hindered :=
    (first.restart default welcoming).perform .login
  rw [List.nil_append] at run
  obtain ⟨grants, kept, sent⟩ :
      ((refused.exchanges ++ hindered.exchanges).head?.bind Exchange.granted?).any
        (fun r => r.deviceId == "42" && r.password == "secret") = true ∧
      (∀ y ∈ (refused.exchanges ++ hindered.exchanges).tail, y.removes "42" = false) ∧
      (refused.exchanges ++ hindered.exchanges).map (·.request.endpoint) =
        [.createPairing, .deviceLogin, .deletePairing] := by
    decide +kernel
  obtain ⟨r, grant, device⟩ := (Option.any_eq_true _ _).mp grants
  obtain ⟨x, head, granted⟩ := Option.bind_eq_some_iff.mp grant
  obtain ⟨deviceId, password⟩ := Bool.and_eq_true_iff.mp device
  rw [beq_iff_eq] at deviceId password
  rw [← deviceId, ← password]
  rw [← deviceId] at kept
  have split : refused.exchanges ++ hindered.exchanges =
      [] ++ x :: ((refused.exchanges ++ hindered.exchanges).tail ++ []) := by
    rw [List.append_nil, List.nil_append, List.cons_head?_tail head]
  exact ⟨_, _, run, sent, (device_kept_until_removed run split granted kept).2 rfl⟩

end Client

end PvrBackend
