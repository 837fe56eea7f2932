import PvrBackend.Session.Login

/-!
# How pairing and logging in end

A client that needs credentials takes them from the stored pairing, or clears the
stored pairing away and pairs anew, and each of these steps can go wrong. `Pairing`
and `Opening` list every way in which obtaining credentials and opening a session
end, each with what it needed and what it leaves. Proofs about runs of a client go
through these cases and never look at the functions again.
-/

namespace PvrBackend

/-- Whether a reply to removing a device settles that it is gone: the service removed
it, or says that it does not know it. -/
def Reply.removes (r : Reply) : Bool :=
  match r.value with
  | .ok _ => true
  | .error e => e.serverReason.any Client.alreadyGone.contains

/-- The pairing that a reply grants, if it names a device. -/
def Reply.paired? (r : Reply) : Option PairingRecord :=
  match r.value with
  | .ok root => (PairingRecord.ofJson? root).filter PairingRecord.hasDevice
  | .error _ => none

/-- What the device of a pairing logs in with. -/
def PairingRecord.credentials (r : PairingRecord) : Credentials := ⟨r.deviceId, r.password⟩

@[simp] theorem PairingRecord.valid_credentials (r : PairingRecord) :
    r.credentials.valid = r.hasDevice := rfl

theorem PairingRecord.deviceId_ne {r : PairingRecord} (device : r.hasDevice = true) :
    r.deviceId ≠ "" := by
  simp only [hasDevice, Bool.and_eq_true, bne_iff_ne] at device
  exact device.1

theorem Reply.hasDevice_of_paired? {r : Reply} {record : PairingRecord}
    (paired : r.paired? = some record) : record.hasDevice = true := by
  rw [paired?] at paired
  split at paired
  · exact (Option.filter_eq_some_iff.mp paired).2
  · cases paired

namespace Server

/-- The first of the replies still to come is given. -/
theorem answer_fst (s : Server) (e : Endpoint) : (s.answer e).1 =
    ((s.replies.get? e.name).bind List.head?).getD (.unreachable "no route") := by
  rw [answer]
  split <;> simp [*]

/-- The replies of one function are not used up by another. -/
theorem answer_answer_of_ne (s : Server) {e e' : Endpoint} (h : e'.name ≠ e.name) :
    ((s.answer e).2.answer e').1 = (s.answer e').1 := by
  have same : (s.answer e).2.replies.get? e'.name = s.replies.get? e'.name := by
    rw [answer]
    split
    · rfl
    · rfl
    · rfl
    · exact s.replies.get?_insert_of_ne h _
  rw [answer_fst, answer_fst, same]

end Server

namespace Client

/-- The request to remove the device of a stored pairing. -/
def removal (c : Client) (stored : PairingRecord) : Request :=
  c.request .deletePairing (c.deletePairingParams stored) none

/-- The request to pair the device anew. -/
def creation (c : Client) : Request := c.request .createPairing c.createPairingParams none

/-- The request to log in. -/
def opening (c : Client) : Request := c.request .deviceLogin c.loginParams none

/-- A pairing under the name of the client's account and device. -/
def own (c : Client) (r : PairingRecord) : PairingRecord :=
  { r with userName := c.account.userName, serial := c.account.serial }

/-- Whether a stored pairing is one of the client's user and device. -/
def owns (c : Client) (r : PairingRecord) : Bool := r.isFor c.account.userName c.account.serial

/-! ### Obtaining credentials -/

theorem deletePairing_of_named {c : Client} {stored : PairingRecord}
    (named : stored.deviceId ≠ "") :
    c.deletePairing stored =
      ((c.send (c.removal stored)).1.removes, (c.send (c.removal stored)).2) := by
  have called : c.call .deletePairing (c.deletePairingParams stored) =
      ((c.send (c.removal stored)).1.value, (c.send (c.removal stored)).2) := rfl
  rw [deletePairing, if_neg named, called, Reply.removes]
  cases (c.send (c.removal stored)).1.value <;> rfl

theorem adopt_of_hasDevice {c : Client} {r : PairingRecord} (device : r.hasDevice = true) :
    c.adopt r = (.ok (), { c with credentials := r.credentials }) :=
  if_pos device

theorem adopt_of_not_hasDevice {c : Client} {r : PairingRecord} (device : r.hasDevice = false) :
    c.adopt r = (.error (.pairing .noCredentials), c) :=
  if_neg (by simp [Credentials.valid, ← PairingRecord.valid_credentials] at device ⊢; exact device)

/-- The client once a pairing was granted: it has the credentials, and the pairing is
stored under its own name. -/
def withPairing (c : Client) (r : PairingRecord) : Client :=
  { c with credentials := r.credentials }.storePairing (c.own r)

theorem pairAnew_of_paired {c : Client} {r : PairingRecord}
    (paired : (c.send c.creation).1.paired? = some r) :
    c.pairAnew = (.ok (), (c.send c.creation).2.withPairing r) := by
  have called : c.call .createPairing c.createPairingParams =
      ((c.send c.creation).1.value, (c.send c.creation).2) := rfl
  have device := Reply.hasDevice_of_paired? paired
  rw [Reply.paired?] at paired
  rw [pairAnew, createPairing, called]
  generalize (c.send c.creation).1.value = answer at paired
  cases answer with
  | error e => cases paired
  | ok root =>
      have read : PairingRecord.ofJson? root = some r := (Option.filter_eq_some_iff.mp paired).1
      dsimp only
      rw [read]
      dsimp only
      rw [adopt_of_hasDevice device]
      rfl

theorem pairAnew_of_unpaired {c : Client} (unpaired : (c.send c.creation).1.paired? = none) :
    ∃ e, c.pairAnew = (.error e, (c.send c.creation).2) := by
  have called : c.call .createPairing c.createPairingParams =
      ((c.send c.creation).1.value, (c.send c.creation).2) := rfl
  rw [Reply.paired?] at unpaired
  rw [pairAnew, createPairing, called]
  generalize (c.send c.creation).1.value = answer at unpaired
  cases answer with
  | error e => exact ⟨e, rfl⟩
  | ok root =>
      dsimp only at unpaired ⊢
      cases read : PairingRecord.ofJson? root with
      | none => exact ⟨_, rfl⟩
      | some r =>
          rw [read, Option.filter_some] at unpaired
          have nameless : r.hasDevice = false := by simpa using unpaired
          refine ⟨.pairing .noCredentials, ?_⟩
          dsimp only
          rw [adopt_of_not_hasDevice nameless]

/-- The ways to be rid of a stored pairing that is not to be used. -/
inductive Cleared (c : Client) : Client → Prop where
  | unread (unread : c.pairStore.record? = none) : Cleared c c
  | nameless {stored : PairingRecord} (record : c.pairStore.record? = some stored)
      (foreign : c.owns stored = false) (nameless : stored.deviceId = "") : Cleared c c
  | removed {stored : PairingRecord} (record : c.pairStore.record? = some stored)
      (foreign : c.owns stored = false) (named : stored.deviceId ≠ "")
      (gone : (c.send (c.removal stored)).1.removes = true) :
      Cleared c (c.send (c.removal stored)).2

/-- The ways in which an attempt to obtain credentials ends. -/
inductive Pairing (c : Client) : Except ApiError Unit × Client → Prop where
  | reused {stored : PairingRecord} (record : c.pairStore.record? = some stored)
      (own : c.owns stored = true) (device : stored.hasDevice = true) :
      Pairing c (.ok (), { c with credentials := stored.credentials })
  | unusable {stored : PairingRecord} (record : c.pairStore.record? = some stored)
      (own : c.owns stored = true) (device : stored.hasDevice = false) :
      Pairing c (.error (.pairing .noCredentials), c)
  | kept {stored : PairingRecord} (record : c.pairStore.record? = some stored)
      (foreign : c.owns stored = false) (named : stored.deviceId ≠ "")
      (kept : (c.send (c.removal stored)).1.removes = false) :
      Pairing c (.error (.pairing .previousKept), (c.send (c.removal stored)).2)
  | refused {c' : Client} {e : ApiError} (cleared : Cleared c c')
      (unpaired : (c'.send c'.creation).1.paired? = none) :
      Pairing c (.error e, (c'.send c'.creation).2)
  | renewed {c' : Client} {r : PairingRecord} (cleared : Cleared c c')
      (paired : (c'.send c'.creation).1.paired? = some r) :
      Pairing c (.ok (), (c'.send c'.creation).2.withPairing r)

/-- Once the stored pairing is cleared away, only pairing anew is left. -/
theorem Cleared.pairing {c c' : Client} (cleared : Cleared c c') : Pairing c c'.pairAnew := by
  cases paired : (c'.send c'.creation).1.paired? with
  | none =>
      obtain ⟨e, result⟩ := pairAnew_of_unpaired paired
      rw [result]
      exact .refused cleared paired
  | some r =>
      rw [pairAnew_of_paired paired]
      exact .renewed cleared paired

theorem pair_pairing (c : Client) : Pairing c c.pair := by
  rw [pair]
  split
  next unread => exact (Cleared.unread unread).pairing
  next stored record =>
    split
    next own =>
      cases device : stored.hasDevice with
      | true =>
          rw [adopt_of_hasDevice device]
          exact .reused record own device
      | false =>
          rw [adopt_of_not_hasDevice device]
          exact .unusable record own device
    next other =>
      have foreign : c.owns stored = false := Bool.eq_false_iff.mpr other
      by_cases named : stored.deviceId = ""
      · rw [deletePairing, if_pos named]
        exact (Cleared.nameless record foreign named).pairing
      · rw [deletePairing_of_named named]
        cases gone : (c.send (c.removal stored)).1.removes with
        | true => exact (Cleared.removed record foreign named gone).pairing
        | false => exact .kept record foreign named gone

/-! ### Opening a session -/

/-- The ways in which a login with credentials ends. -/
inductive Opening (c : Client) : Except ApiError Unit × Client → Prop where
  | opened {root : Json} (answer : (c.send c.opening).1.value = .ok root)
      (token : root.textAt tokenKey ≠ "") :
      Opening c (.ok (), { (c.send c.opening).2 with token := root.textAt tokenKey })
  | unanswered {e : ApiError} (answer : (c.send c.opening).1.value = .error e)
      (transport : e.isTransport = true) : Opening c (.error e, (c.send c.opening).2)
  | rejected {e : ApiError} (answer : (c.send c.opening).1.value.bind tokenOf = .error e)
      (decided : e.isTransport = false) : Opening c (.error e, (c.send c.opening).2.reject)

theorem tokenOf_of_ne {root : Json} (token : root.textAt tokenKey ≠ "") :
    tokenOf root = .ok (root.textAt tokenKey) :=
  if_neg token

theorem tokenOf_of_eq {root : Json} (none : root.textAt tokenKey = "") :
    tokenOf root = .error .noToken :=
  if_pos none

theorem openSession_opening (c : Client) : Opening c c.openSession := by
  have called : c.call .deviceLogin c.loginParams =
      ((c.send c.opening).1.value, (c.send c.opening).2) := rfl
  rw [openSession, called]
  dsimp only
  cases answer : (c.send c.opening).1.value with
  | error e =>
      cases decided : e.isTransport with
      | true => simpa [Except.bind, decided] using Opening.unanswered answer decided
      | false =>
          have failed : (c.send c.opening).1.value.bind tokenOf = .error e := by rw [answer]; rfl
          simpa [Except.bind, decided] using Opening.rejected failed decided
  | ok root =>
      by_cases token : root.textAt tokenKey = ""
      · have failed : (c.send c.opening).1.value.bind tokenOf = .error .noToken := by
          rw [answer]
          exact tokenOf_of_eq token
        simpa [Except.bind, tokenOf_of_eq token, ApiError.isTransport] using
          Opening.rejected failed rfl
      · simpa [Except.bind, tokenOf_of_ne token] using Opening.opened answer token

end Client

end PvrBackend
