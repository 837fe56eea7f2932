import PvrBackend.Proofs.Session.Devices

/-!
# What a login leaves behind

A login ends in one of four ways, and each leaves another part of the client as it was. If
no credentials are obtained everything stays, and if the service is silent everything stays
that was there when it was asked to open a session, a pairing made on the way included. Only
an answer that opens no session takes the credentials, the token and the owner of the stored
pairing.

Every login ends in exactly one of these ways. That takes no invariant of the client, only
a store that can be written.
-/

namespace PvrBackend

/-! ### Silent replies -/

/-- Whether a reply is no answer at all. -/
def Reply.isSilent : Reply → Bool
  | .body text => text = ""
  | .unreachable _ => true

theorem isTransport_of_checkAnswer_eq {body : String} {e : ApiError}
    (failed : checkAnswer body = .error e) : e.isTransport = false := by
  rw [checkAnswer] at failed
  split at failed
  next => exact Except.error.inj failed ▸ rfl
  next root =>
    dsimp only at failed
    split at failed
    next => cases failed
    next => exact Except.error.inj failed ▸ rfl

/-- A call fails for want of an answer exactly when the reply is none. -/
theorem Reply.isTransport_of_value_eq {reply : Reply} {e : ApiError}
    (failed : reply.value = .error e) : e.isTransport = reply.isSilent := by
  cases reply with
  | unreachable reason => exact Except.error.inj failed ▸ rfl
  | body text =>
      rw [value, Reply.text] at failed
      by_cases empty : text = ""
      · rw [if_pos empty] at failed
        rw [isSilent, decide_eq_true empty, ← Except.error.inj failed]
        rfl
      · rw [if_neg empty] at failed
        rw [isSilent, decide_eq_false empty]
        exact isTransport_of_checkAnswer_eq failed

theorem Reply.isSilent_of_value_eq_ok {reply : Reply} {root : Json}
    (answer : reply.value = .ok root) : reply.isSilent = false := by
  cases reply with
  | unreachable reason => cases answer
  | body text =>
      by_cases empty : text = ""
      · rw [value, Reply.text, if_pos empty] at answer
        cases answer
      · exact decide_eq_false empty

/-- A reply that leads to another failure is an answer, with or without a token. -/
theorem Reply.isSilent_of_tokenOf_eq {reply : Reply} {e : ApiError}
    (answer : reply.value.bind Client.tokenOf = .error e) (decided : e.isTransport = false) :
    reply.isSilent = false := by
  cases value : reply.value with
  | ok root => exact isSilent_of_value_eq_ok value
  | error e' =>
      rw [value] at answer
      obtain rfl := Except.error.inj answer
      rw [← isTransport_of_value_eq value, decided]

namespace Client

/-! ### Obtaining credentials -/

/-- Between two states of a client only requests to pair and to remove pairings were sent. -/
structure Asks (c c' : Client) : Prop where
  account : c'.account = c.account
  credentials : c'.credentials = c.credentials
  token : c'.token = c.token
  pinUnlocked : c'.pinUnlocked = c.pinUnlocked
  pairStore : c'.pairStore = c.pairStore
  exchanges : ∃ xs, c'.exchanges = c.exchanges ++ xs ∧
    ∀ x ∈ xs, x.request.endpoint ≠ .deviceLogin

theorem Asks.refl (c : Client) : Asks c c :=
  ⟨rfl, rfl, rfl, rfl, rfl, [], (List.append_nil _).symm, nofun⟩

theorem Asks.send {c c' : Client} (asks : Asks c c') {r : Request}
    (quiet : r.endpoint ≠ .deviceLogin) : Asks c (c'.send r).2 := by
  obtain ⟨xs, grown, quiets⟩ := asks.exchanges
  refine ⟨asks.account, asks.credentials, asks.token, asks.pinUnlocked, asks.pairStore,
    xs ++ [⟨r, (c'.send r).1⟩], ?_, fun x member => ?_⟩
  · rw [send_exchanges, grown, List.append_assoc]
  · rcases List.mem_append.mp member with before | last
    · exact quiets x before
    · exact List.mem_singleton.mp last ▸ quiet

theorem Cleared.asks {c c' : Client} (cleared : Cleared c c') : Asks c c' := by
  cases cleared with
  | unread => exact .refl c
  | nameless => exact .refl c
  | removed => exact (Asks.refl c).send nofun

/-- A device was paired since, and is stored under the name of the client's account with
the credentials that the client has now. -/
def PairedSince (c c' : Client) : Prop :=
  (∃ xs, c'.exchanges = c.exchanges ++ xs ∧ ∃ x ∈ xs, ∃ r, x.granted? = some r ∧
      r.credentials = c'.credentials) ∧
  ∃ stored, c'.pairStore.record? = some stored ∧
    stored.isFor c.account.userName c.account.serial = true ∧
    stored.credentials = c'.credentials

theorem PairedSince.grown {c c' c'' : Client} (paired : PairedSince c c') {ys : List Exchange}
    (exchanges : c''.exchanges = c'.exchanges ++ ys)
    (credentials : c''.credentials = c'.credentials)
    (pairStore : c''.pairStore = c'.pairStore) : PairedSince c c'' := by
  obtain ⟨⟨xs, before, x, member, grants⟩, stored⟩ := paired
  refine ⟨⟨xs ++ ys, ?_, x, List.mem_append_left ys member, ?_⟩, ?_⟩
  · rw [exchanges, before, List.append_assoc]
  · rwa [credentials]
  · rwa [pairStore, credentials]

/-- A client has obtained credentials and is about to open a session. -/
structure Ready (c c' : Client) : Prop where
  account : c'.account = c.account
  token : c'.token = c.token
  pinUnlocked : c'.pinUnlocked = c.pinUnlocked
  exchanges : ∃ xs, c'.exchanges = c.exchanges ++ xs ∧
    ∀ x ∈ xs, x.request.endpoint ≠ .deviceLogin
  writable : c'.pairStore.writable = c.pairStore.writable
  valid : c'.credentials.valid = true
  store : c'.pairStore = c.pairStore ∨ PairedSince c c'

theorem Asks.ready {c c' : Client} (asks : Asks c c') {device : Credentials}
    (valid : device.valid = true) : Ready c { c' with credentials := device } :=
  ⟨asks.account, asks.token, asks.pinUnlocked, asks.exchanges,
    congrArg PairStore.writable asks.pairStore, valid, .inl asks.pairStore⟩

/-- The two ways in which an attempt to obtain credentials ends. -/
inductive Ensuring (c : Client) : Except ApiError Unit × Client → Prop where
  | failed {c' : Client} {e : ApiError} (asks : Asks c c') : Ensuring c (.error e, c')
  | ready {c' : Client} (ready : Ready c c') : Ensuring c (.ok (), c')

/-- A device that is paired anew is stored. -/
theorem Cleared.pairedSince {c c' : Client} (cleared : Cleared c c')
    (writable : c.pairStore.writable = true) {r : PairingRecord}
    (paired : (c'.send c'.creation).1.paired? = some r) :
    PairedSince c ((c'.send c'.creation).2.withPairing r) := by
  obtain ⟨xs, before, -⟩ := cleared.asks.exchanges
  let x : Exchange := ⟨c'.creation, (c'.send c'.creation).1⟩
  have grown : (c'.send c'.creation).2.exchanges = c.exchanges ++ (xs ++ [x]) := by
    rw [send_exchanges, before, List.append_assoc]
  have granted : x.granted? = some r := (Exchange.granted?_of_eq rfl).trans paired
  let own := (c'.send c'.creation).2.own r
  have success : r.isSuccess = true := Reply.isSuccess_of_paired? paired
  have isFor : own.isFor c.account.userName c.account.serial = true := by
    rw [← cleared.asks.account, PairingRecord.isFor]
    simpa [own, Client.own, PairingRecord.isSuccess] using success
  have writable' : (c'.send c'.creation).2.pairStore.writable = true := by
    rw [send_pairStore, cleared.asks.pairStore, writable]
  obtain ⟨stored, record, same⟩ :=
    record?_withPairing writable' (Reply.readable_of_paired? paired)
  have credentials : stored.credentials = own.credentials :=
    PairingRecord.credentials_of_blur_eq same
  refine ⟨⟨xs ++ [x], grown, x, by simp, r, granted, rfl⟩, stored, record, ?_, credentials⟩
  rw [PairingRecord.isFor_of_blur_eq same, isFor]

theorem Cleared.ready {c c' : Client} (cleared : Cleared c c')
    (writable : c.pairStore.writable = true) {r : PairingRecord}
    (paired : (c'.send c'.creation).1.paired? = some r) :
    Ready c ((c'.send c'.creation).2.withPairing r) :=
  have asks : Asks c (c'.send c'.creation).2 := cleared.asks.send nofun
  have same : ((c'.send c'.creation).2.withPairing r).pairStore.writable =
      c.pairStore.writable :=
    (PairStore.write_writable _ _).trans (congrArg PairStore.writable asks.pairStore)
  ⟨asks.account, asks.token, asks.pinUnlocked, asks.exchanges, same,
    Reply.hasDevice_of_paired? paired, .inr (cleared.pairedSince writable paired)⟩

theorem ensureCredentials_ensuring {c : Client} (writable : c.pairStore.writable = true) :
    Ensuring c c.ensureCredentials := by
  rw [ensureCredentials]
  split
  next valid => exact .ready ((Asks.refl c).ready valid)
  next =>
    have paired := c.pair_pairing
    generalize c.pair = attempt at paired ⊢
    cases paired with
    | reused record own device => exact .ready ((Asks.refl c).ready device)
    | unusable => exact .failed (.refl c)
    | kept => exact .failed ((Asks.refl c).send fun asked => by cases asked)
    | refused cleared => exact .failed (cleared.asks.send fun asked => by cases asked)
    | renewed cleared paired => exact .ready (cleared.ready writable paired)

/-! ### The ends of a login -/

/-- The client as a login starts. -/
def locked (c : Client) : Client := { c with pinUnlocked := false }

/-- The client when it is about to open a session, or has failed to get there. -/
def atLogin (c : Client) : Client := c.locked.ensureCredentials.2

theorem login_eq (c : Client) : c.login =
    match c.locked.ensureCredentials with
    | (.error e, c) => (.error e, c)
    | (.ok (), c) => c.openSession := rfl

/-- What is sent first about a stored pairing that is not the client's own: its device is
removed if it names one, and otherwise a device is paired. -/
def clearance (c : Client) (r : PairingRecord) : Request :=
  if r.deviceId = "" then c.creation else c.removal r

/-- A login came to the point of asking for a session, and got this reply. -/
structure LoginAsked (c : Client) (reply : Reply) : Prop where
  ready : Ready c.locked c.atLogin
  sent : c.login.2.exchanges = c.atLogin.exchanges ++ [⟨c.atLogin.opening, reply⟩]

/-- A session is open. A device that was paired on the way is stored as the client's own. -/
structure LoginOpened (c : Client) : Prop where
  result : c.login.1 = .ok ()
  token : c.login.2.token ≠ ""
  answer : ∃ reply root, c.LoginAsked reply ∧ reply.value = .ok root ∧
    c.login.2.token = root.textAt tokenKey
  valid : c.login.2.credentials.valid = true
  store : c.login.2.pairStore = c.pairStore ∨ PairedSince c c.login.2

/-- No credentials were obtained. -/
structure LoginUnpaired (c : Client) : Prop where
  result : ∃ e, c.login.1 = .error e
  unsent : ∃ xs, c.login.2.exchanges = c.exchanges ++ xs ∧
    ∀ x ∈ xs, x.request.endpoint ≠ .deviceLogin
  credentials : c.login.2.credentials = c.credentials
  token : c.login.2.token = c.token
  store : c.login.2.pairStore = c.pairStore

/-- The service was asked for a session and did not answer. -/
structure LoginUnanswered (c : Client) : Prop where
  result : ∃ e, c.login.1 = .error e ∧ e.isTransport = true
  answer : ∃ reply, c.LoginAsked reply ∧ reply.isSilent = true
  credentials : c.login.2.credentials = c.atLogin.credentials
  token : c.login.2.token = c.token
  store : c.login.2.pairStore = c.atLogin.pairStore

/-- The service answered with anything but a session. The stored pairing has no owner any
more, and so the next login of a user who has a name starts with clearing it away, whatever
the service will do. -/
structure LoginRejected (c : Client) : Prop where
  result : ∃ e, c.login.1 = .error e ∧ e.isTransport = false
  answer : ∃ reply, c.LoginAsked reply ∧ reply.isSilent = false
  credentials : c.login.2.credentials = {}
  token : c.login.2.token = ""
  store : ∃ r, c.login.2.pairStore.record? = some r ∧ r.blur = c.atLogin.disowned.blur
  renews : c.account.userName ≠ "" → ∀ server r, c.login.2.pairStore.record? = some r →
    ∃ x xs, { c.login.2 with server }.login.2.exchanges = c.login.2.exchanges ++ x :: xs ∧
      x.request = c.clearance r

/-- The four ways in which a login ends. -/
inductive LoginEnd where
  | opened
  | unpaired
  | unanswered
  | rejected
deriving DecidableEq, Repr

/-- Whether a login of a client ends in this way. -/
def LoginEnd.Describes (c : Client) : LoginEnd → Prop
  | .opened => c.LoginOpened
  | .unpaired => c.LoginUnpaired
  | .unanswered => c.LoginUnanswered
  | .rejected => c.LoginRejected

/-! ### Which way it was -/

/-- Whether a login came to the point of asking for a session. -/
def asks (c : Client) : Bool :=
  (c.login.2.exchanges.drop c.exchanges.length).any (·.request.endpoint = .deviceLogin)

/-- How a login ends, read off from its result and from what was sent. -/
def loginEnd (c : Client) : LoginEnd :=
  match c.login.1 with
  | .ok _ => .opened
  | .error e => if c.asks then if e.isTransport then .unanswered else .rejected else .unpaired

theorem LoginAsked.asks {c : Client} {reply : Reply} (asked : c.LoginAsked reply) :
    c.asks = true := by
  obtain ⟨xs, before, -⟩ := asked.ready.exchanges
  have all : c.login.2.exchanges = c.exchanges ++ (xs ++ [⟨c.atLogin.opening, reply⟩]) := by
    rw [asked.sent, before, List.append_assoc]
    rfl
  rw [Client.asks, all, List.drop_left, List.any_append]
  simp [opening, request]

theorem LoginUnpaired.asks {c : Client} (unpaired : c.LoginUnpaired) : c.asks = false := by
  obtain ⟨xs, all, quiet⟩ := unpaired.unsent
  rw [Client.asks, all, List.drop_left]
  simpa using quiet

/-- No login ends in two of the ways. -/
theorem LoginEnd.eq_of_describes {c : Client} {k : LoginEnd} (ends : k.Describes c) :
    k = c.loginEnd := by
  cases k with
  | opened =>
      have opened : c.LoginOpened := ends
      rw [loginEnd, opened.result]
  | unpaired =>
      have unpaired : c.LoginUnpaired := ends
      obtain ⟨e, failed⟩ := unpaired.result
      simp [loginEnd, failed, unpaired.asks]
  | unanswered =>
      have unanswered : c.LoginUnanswered := ends
      obtain ⟨e, failed, transport⟩ := unanswered.result
      obtain ⟨reply, asked, -⟩ := unanswered.answer
      simp [loginEnd, failed, asked.asks, transport]
  | rejected =>
      have rejected : c.LoginRejected := ends
      obtain ⟨e, failed, decided⟩ := rejected.result
      obtain ⟨reply, asked, -⟩ := rejected.answer
      simp [loginEnd, failed, asked.asks, decided]

/-! ### After a rejection -/

theorem clearance_congr {c c' : Client} (account : c'.account = c.account) (r : PairingRecord) :
    c'.clearance r = c.clearance r := by
  have creation : c'.creation = c.creation := by
    rw [Client.creation, Client.creation, request, request, createPairingParams,
      createPairingParams, account]
  have removal : c'.removal r = c.removal r := by
    rw [Client.removal, Client.removal, request, request, deletePairingParams,
      deletePairingParams, account]
  rw [clearance, clearance, creation, removal]

/-- Opening a session takes one request. -/
theorem openSession_exchanges (c : Client) :
    c.openSession.2.exchanges = c.exchanges ++ [⟨c.opening, (c.send c.opening).1⟩] := by
  have opening := c.openSession_opening
  generalize c.openSession = attempt at opening ⊢
  cases opening <;> rfl

theorem exists_exchanges_login (c : Client) :
    ∃ xs, c.login.2.exchanges = c.atLogin.exchanges ++ xs := by
  rw [atLogin, login_eq]
  split
  next e c' result => exact ⟨[], by rw [result, List.append_nil]⟩
  next c' result => exact ⟨_, by rw [result, openSession_exchanges]⟩

theorem Cleared.clearance {c c' : Client} (cleared : Cleared c c') {r : PairingRecord}
    (record : c.pairStore.record? = some r) (reply : Reply) :
    ∃ x xs, c'.exchanges ++ [⟨c'.creation, reply⟩] = c.exchanges ++ x :: xs ∧
      x.request = c.clearance r := by
  cases cleared with
  | unread unread => cases unread.symm.trans record
  | @nameless stored record' _ nameless =>
      obtain rfl := Option.some.inj (record'.symm.trans record)
      exact ⟨_, [], rfl, (if_pos nameless).symm⟩
  | @removed stored record' _ named =>
      obtain rfl := Option.some.inj (record'.symm.trans record)
      exact ⟨_, [_], List.append_assoc .., (if_neg named).symm⟩

theorem exists_exchanges_pair {c : Client} {r : PairingRecord}
    (record : c.pairStore.record? = some r) (foreign : c.owns r = false) :
    ∃ x xs, c.pair.2.exchanges = c.exchanges ++ x :: xs ∧ x.request = c.clearance r := by
  have other : ∀ {stored}, c.pairStore.record? = some stored → c.owns stored ≠ true :=
    fun record' own => by
      obtain rfl := Option.some.inj (record'.symm.trans record)
      rw [foreign] at own
      cases own
  have paired := c.pair_pairing
  generalize c.pair = attempt at paired ⊢
  cases paired with
  | reused record' own => exact absurd own (other record')
  | unusable record' own => exact absurd own (other record')
  | @kept stored record' _ named =>
      obtain rfl := Option.some.inj (record'.symm.trans record)
      exact ⟨_, [], rfl, (if_neg named).symm⟩
  | refused cleared => exact cleared.clearance record _
  | renewed cleared => exact cleared.clearance record _

/-- A client without credentials starts a login with clearing away a stored pairing that is
not its own. -/
theorem exists_exchanges_login_of_foreign {c : Client} {r : PairingRecord}
    (invalid : c.credentials.valid = false) (record : c.pairStore.record? = some r)
    (foreign : c.owns r = false) :
    ∃ x xs, c.login.2.exchanges = c.exchanges ++ x :: xs ∧ x.request = c.clearance r := by
  have pairs : c.atLogin = c.locked.pair.2 := by
    rw [atLogin, ensureCredentials, if_neg]
    simpa [locked] using invalid
  obtain ⟨x, xs, first, request⟩ := exists_exchanges_pair (c := c.locked) record foreign
  obtain ⟨ys, all⟩ := c.exists_exchanges_login
  refine ⟨x, xs ++ ys, ?_, request⟩
  rw [all, pairs, first, List.append_assoc]
  rfl

/-! ### Every login ends in one of the ways -/

theorem loginUnpaired_of_asks {c c' : Client} {e : ApiError} (asks : Asks c.locked c')
    (ends : c.login = (.error e, c')) : c.LoginUnpaired where
  result := ⟨e, by rw [ends]⟩
  unsent := by
    rw [ends]
    exact asks.exchanges
  credentials := by
    rw [ends]
    exact asks.credentials
  token := by
    rw [ends]
    exact asks.token
  store := by
    rw [ends]
    exact asks.pairStore

section Asked

variable {c : Client} (ready : Ready c.locked c.atLogin)
include ready

/-- What comes of a login that got to the point of asking for a session shows that it did. -/
theorem loginAsked_of_exchanges {answer : Except ApiError Unit} {c' : Client}
    (ends : c.login = (answer, c'))
    (sent : c'.exchanges = (c.atLogin.send c.atLogin.opening).2.exchanges) :
    c.LoginAsked (c.atLogin.send c.atLogin.opening).1 := by
  refine ⟨ready, ?_⟩
  rw [ends]
  exact sent

theorem loginOpened_of_answer {root : Json}
    (answer : (c.atLogin.send c.atLogin.opening).1.value = .ok root)
    (token : root.textAt tokenKey ≠ "")
    (ends : c.login = (.ok (), { (c.atLogin.send c.atLogin.opening).2 with
      token := root.textAt tokenKey })) : c.LoginOpened where
  result := by rw [ends]
  token := by
    rw [ends]
    exact token
  answer := by
    refine ⟨_, root, loginAsked_of_exchanges ready ends rfl, answer, ?_⟩
    rw [ends]
  valid := by
    rw [ends]
    exact ready.valid
  store := by
    rw [ends]
    exact ready.store.imp id fun paired => paired.grown (send_exchanges _ _) rfl rfl

theorem loginUnanswered_of_answer {e : ApiError}
    (answer : (c.atLogin.send c.atLogin.opening).1.value = .error e)
    (transport : e.isTransport = true)
    (ends : c.login = (.error e, (c.atLogin.send c.atLogin.opening).2)) : c.LoginUnanswered where
  result := ⟨e, by rw [ends], transport⟩
  answer := ⟨_, loginAsked_of_exchanges ready ends rfl,
    (Reply.isTransport_of_value_eq answer).symm.trans transport⟩
  credentials := by
    rw [ends]
    rfl
  token := by
    rw [ends]
    exact ready.token
  store := by
    rw [ends]
    rfl

theorem loginRejected_of_answer {e : ApiError}
    (answer : (c.atLogin.send c.atLogin.opening).1.value.bind tokenOf = .error e)
    (decided : e.isTransport = false) (writable : c.pairStore.writable = true)
    (ends : c.login = (.error e, (c.atLogin.send c.atLogin.opening).2.reject)) :
    c.LoginRejected := by
  have writable' : c.atLogin.pairStore.writable = true := ready.writable.trans writable
  obtain ⟨r, record, same⟩ := record?_reject (c := (c.atLogin.send c.atLogin.opening).2) writable'
  have stored : c.login.2.pairStore.record? = some r := by
    rw [ends]
    exact record
  have ownerless : r.userName = "" := by
    injection same
  have account : c.login.2.account = c.account := by
    rw [ends]
    exact ready.account
  have credentials : c.login.2.credentials = {} := by
    rw [ends]
    rfl
  refine ⟨⟨e, by rw [ends], decided⟩, ⟨_, loginAsked_of_exchanges ready ends rfl,
    Reply.isSilent_of_tokenOf_eq answer decided⟩, credentials, by rw [ends]; rfl,
    ⟨r, stored, same⟩, ?_⟩
  intro named server r' record'
  obtain rfl := Option.some.inj (stored.symm.trans record')
  have foreign : { c.login.2 with server }.owns r = false := by
    simp [owns, PairingRecord.isFor, ownerless, account, Ne.symm named]
  obtain ⟨x, xs, sent, request⟩ := exists_exchanges_login_of_foreign
    (c := { c.login.2 with server }) (by rw [credentials]; rfl) stored foreign
  exact ⟨x, xs, sent, request.trans (clearance_congr account r)⟩

end Asked

theorem exists_describes {c : Client} (writable : c.pairStore.writable = true) :
    c.login.2.pinUnlocked = false ∧ ∃ k : LoginEnd, k.Describes c := by
  have ensuring := ensureCredentials_ensuring (c := c.locked) writable
  have login := c.login_eq
  cases result : c.locked.ensureCredentials with
  | mk answer c' =>
      rw [result] at ensuring login
      cases ensuring with
      | failed asks =>
          exact ⟨by rw [login]; exact asks.pinUnlocked, .unpaired, loginUnpaired_of_asks asks login⟩
      | ready ready =>
          obtain rfl : c.atLogin = c' := congrArg Prod.snd result
          have opening := c.atLogin.openSession_opening
          generalize session : c.atLogin.openSession = attempt at opening
          have ends : c.login = attempt := login.trans session
          have pin : attempt.2.pinUnlocked = c.atLogin.pinUnlocked := by
            cases opening <;> rfl
          refine ⟨by rw [ends, pin]; exact ready.pinUnlocked, ?_⟩
          cases opening with
          | opened answer token => exact ⟨.opened, loginOpened_of_answer ready answer token ends⟩
          | unanswered answer transport =>
              exact ⟨.unanswered, loginUnanswered_of_answer ready answer transport ends⟩
          | rejected answer decided =>
              exact ⟨.rejected, loginRejected_of_answer ready answer decided writable ends⟩

/-- A login takes back the PIN and ends in exactly one of the four ways, whatever the state
of the client, what is stored and what the service does. -/
theorem login_ends {c : Client} (writable : c.pairStore.writable = true) :
    c.login.2.pinUnlocked = false ∧ ∃! k : LoginEnd, k.Describes c := by
  obtain ⟨pin, k, ends⟩ := exists_describes writable
  exact ⟨pin, k, ends, fun k' ends' =>
    (LoginEnd.eq_of_describes ends').trans (LoginEnd.eq_of_describes ends).symm⟩

/-- A client in which a PIN counts as entered, with a service that does not let it in. -/
def unlocked : Client := { fresh janOnBox refusing {} with pinUnlocked := true }

/-- A device that is paired and then refused leaves a client without session, PIN and
credentials, and a stored pairing without an owner. -/
theorem login_ends_rejected : unlocked.login.2.pinUnlocked = false ∧ unlocked.LoginRejected := by
  obtain ⟨pin, k, ends, -⟩ := login_ends (c := unlocked) rfl
  have refused : unlocked.loginEnd = .rejected := by decide +kernel
  obtain rfl := (LoginEnd.eq_of_describes ends).trans refused
  exact ⟨pin, ends⟩

end Client

end PvrBackend
