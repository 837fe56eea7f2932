import PvrBackend.Proofs.Session.Exchanges
import PvrBackend.Session.Calls

/-!
# Runs of a client

A client goes through any operations in any order, and before each of them, or
amid a login, the service may have changed its mind and the stored pairing may be
another one, or its place may have become read-only.

A login can end early, and on every way out it leaves some of the credentials, the
token and the PIN as they were. What holds at all times is `Client.Sound`: the
token is that of the session in the history, a session has credentials, and only
in a session a PIN counts as entered. Pairing happens without a session, so on its
ways out only the history matters.
-/

namespace PvrBackend

namespace Client

/-! ### The invariant -/

/-- What holds of a client between its operations. -/
structure Sound (c : Client) : Prop where
  token : c.token = lastToken c.exchanges
  credentials : c.token ≠ "" → c.credentials.valid = true
  pin : c.pinUnlocked = true → c.token ≠ ""
  fitting : FittingHistory c.exchanges

theorem loggedIn_iff {c : Client} : c.loggedIn = true ↔ c.token ≠ "" := by
  simp [loggedIn]

theorem Sound.meanwhile {c : Client} (sound : c.Sound) (server : Server) (pairStore : PairStore) :
    { c with server, pairStore }.Sound :=
  ⟨sound.token, sound.credentials, sound.pin, sound.fitting⟩

/-- What a call sends besides a login changes no session. -/
theorem Sound.send {c : Client} (sound : c.Sound) {r : Request} (fits : r.Fits c.token)
    (quiet : r.endpoint ≠ .deviceLogin) : (c.send r).2.Sound := by
  refine ⟨?_, sound.credentials, sound.pin, ?_⟩
  · rw [send_exchanges, lastToken_concat, Exchange.verdict?_of_ne quiet]
    exact sound.token
  · exact sound.fitting.concat (sound.token ▸ fits)

/-! ### Calls within a session -/

theorem callInSession_of_token_eq {c : Client} (h : c.token = "") (e : Endpoint) (params : Params) :
    c.callInSession e params = (.error .notLoggedIn, c) := by
  rw [callInSession, if_neg (by simp [loggedIn, h])]

theorem Sound.callInSession {c : Client} (sound : c.Sound) {e : Endpoint}
    (inside : e.inSession = true) (params : Params) : (c.callInSession e params).2.Sound := by
  rw [Client.callInSession]
  split
  next session =>
    have fits : (c.request e params (some c.token)).Fits c.token :=
      Request.fits_of_token_eq_some inside rfl (loggedIn_iff.mp session)
    refine sound.send fits ?_
    rintro rfl
    contradiction
  next => exact sound

@[simp] theorem callInSession_token (c : Client) (e : Endpoint) (params : Params) :
    (c.callInSession e params).2.token = c.token := by
  rw [callInSession]
  split <;> rfl

theorem Sound.pinUnlock {c : Client} (sound : c.Sound) (pin : String) :
    (c.pinUnlock pin).2.Sound := by
  have called := sound.callInSession (e := .pinUnlock) rfl [("pin", pin)]
  rw [Client.pinUnlock]
  split
  next e c' result => rwa [result] at called
  next root c' result =>
    have session : c.token ≠ "" := by
      intro none
      rw [callInSession_of_token_eq none] at result
      simp at result
    have same := c.callInSession_token .pinUnlock [("pin", pin)]
    rw [result] at called same
    exact ⟨called.token, called.credentials, fun _ => same ▸ session, called.fitting⟩

/-! ### Pairing -/

/-- A sound client without a session. -/
structure Closed (c : Client) : Prop where
  sound : c.Sound
  token : c.token = ""

/-- Without a session the credentials and the stored pairing are free to change. -/
theorem Closed.congr {c c' : Client} (closed : c.Closed) (exchanges : c'.exchanges = c.exchanges)
    (token : c'.token = c.token) (pin : c'.pinUnlocked = c.pinUnlocked) : c'.Closed := by
  have none : c'.token = "" := token.trans closed.token
  refine ⟨⟨?_, fun session => absurd none session, ?_, ?_⟩, none⟩
  · rw [token, exchanges]
    exact closed.sound.token
  · rw [token, pin]
    exact closed.sound.pin
  · rw [exchanges]
    exact closed.sound.fitting

theorem Closed.call {c : Client} (closed : c.Closed) (e : Endpoint) (params : Params)
    (outside : e.inSession = false) (quiet : e ≠ .deviceLogin)
    (unnamed : tokenKey ∉ params.map (·.1)) : (c.call e params).2.Closed :=
  ⟨closed.sound.send (Request.fits_of_token_eq_none outside rfl unnamed _) quiet, closed.token⟩

theorem Closed.deletePairing {c : Client} (closed : c.Closed) (r : PairingRecord) :
    (c.deletePairing r).2.Closed := by
  have called := closed.call .deletePairing (c.deletePairingParams r) rfl
    (by decide) (by simp [deletePairingParams, tokenKey])
  rw [Client.deletePairing]
  split
  next => exact closed
  next =>
    split
    next root c' result => rwa [result] at called
    next e c' result => rwa [result] at called

theorem Closed.createPairing {c : Client} (closed : c.Closed) : c.createPairing.2.Closed := by
  have called := closed.call .createPairing c.createPairingParams rfl
    (by decide) (by simp [createPairingParams, tokenKey])
  rw [Client.createPairing]
  split
  next e c' result => rwa [result] at called
  next root c' result =>
    rw [result] at called
    split <;> exact called

/-- An attempt to obtain credentials: without a session before and after, and with
credentials if it succeeds. -/
structure Paired (attempt : Except ApiError Unit × Client) : Prop where
  closed : attempt.2.Closed
  valid : attempt.1 = .ok () → attempt.2.credentials.valid = true

theorem Closed.failed {c : Client} (closed : c.Closed) (e : ApiError) :
    Paired (.error e, c) :=
  ⟨closed, fun h => nomatch h⟩

theorem Closed.adopt {c : Client} (closed : c.Closed) (r : PairingRecord) :
    Paired (c.adopt r) := by
  rw [Client.adopt]
  split
  next valid => exact ⟨closed.congr rfl rfl rfl, fun _ => valid⟩
  next => exact closed.failed _

theorem Closed.pairAnew {c : Client} (closed : c.Closed) : Paired c.pairAnew := by
  have created := closed.createPairing
  rw [Client.pairAnew]
  split
  next e c' result =>
    rw [result] at created
    exact created.failed e
  next r c' result =>
    rw [result] at created
    have adopted := created.adopt r
    split
    next e c'' result' => rwa [result'] at adopted
    next c'' result' =>
      rw [result'] at adopted
      exact ⟨adopted.closed.congr rfl rfl rfl, fun _ => adopted.valid rfl⟩

theorem Closed.pair {c : Client} (closed : c.Closed) : Paired c.pair := by
  rw [Client.pair]
  split
  next => exact closed.pairAnew
  next stored _ =>
    split
    next => exact closed.adopt stored
    next =>
      have deleted := closed.deletePairing stored
      split
      next c' result =>
        rw [result] at deleted
        exact deleted.failed _
      next c' result =>
        rw [result] at deleted
        exact deleted.pairAnew

/-! ### Logging in -/

/-- What the service decides about a login the client follows. -/
theorem Sound.openSession {c : Client} (sound : c.Sound) (valid : c.credentials.valid = true)
    (pin : c.pinUnlocked = false) : c.openSession.2.Sound := by
  let r := c.request .deviceLogin c.loginParams none
  let x : Exchange := ⟨r, (c.send r).1⟩
  have fits : r.Fits (lastToken c.exchanges) :=
    Request.fits_of_token_eq_none rfl rfl (by simp [r, request, loginParams, tokenKey]) _
  have fitting : FittingHistory (c.send r).2.exchanges := sound.fitting.concat (x := x) fits
  have last : lastToken (c.send r).2.exchanges = x.verdict?.getD c.token := by
    rw [sound.token]
    exact lastToken_concat _ _
  have entered : ∀ {P : Prop}, (c.send r).2.pinUnlocked = true → P := fun entered => by
    rw [send_pinUnlocked, pin] at entered
    contradiction
  -- Every way out has this history; they differ in the token and the credentials only.
  have called : c.call .deviceLogin c.loginParams = (x.reply.value, (c.send r).2) := rfl
  rw [Client.openSession, called]
  dsimp only
  split
  next token accepted =>
    rw [Exchange.verdict?_of_ok rfl accepted] at last
    exact ⟨last.symm, fun _ => valid, entered, fitting⟩
  next e failed =>
    rw [Exchange.verdict?_of_error rfl failed] at last
    split
    next transport =>
      rw [if_pos transport] at last
      exact ⟨last.symm, fun _ => valid, entered, fitting⟩
    next answered =>
      rw [if_neg answered] at last
      exact ⟨last.symm, fun session => absurd rfl session, entered, fitting⟩

/-- Credentials are obtained only while there is no session. -/
theorem Sound.ensureCredentials {c : Client} (sound : c.Sound) (pin : c.pinUnlocked = false) :
    c.ensureCredentials.2.Sound ∧ c.ensureCredentials.2.pinUnlocked = false ∧
      (c.ensureCredentials.1 = .ok () → c.ensureCredentials.2.credentials.valid = true) := by
  rw [Client.ensureCredentials]
  split
  next valid => exact ⟨sound, pin, fun _ => valid⟩
  next invalid =>
    have closed : c.Closed := ⟨sound, Classical.byContradiction fun session =>
      invalid (sound.credentials session)⟩
    have paired := closed.pair
    refine ⟨paired.closed.sound, ?_, paired.valid⟩
    exact Bool.eq_false_iff.mpr fun entered => paired.closed.sound.pin entered paired.closed.token

/-- A login amid which the surroundings change: when the client has its credentials and
is about to open a session, it may meet another answer and another stored pairing. -/
def loginAmid (c : Client) (server : Server) (pairStore : PairStore) :
    Except ApiError Unit × Client :=
  match { c with pinUnlocked := false }.ensureCredentials with
  | (.error e, c) => (.error e, c)
  | (.ok (), c) => { c with server, pairStore }.openSession

/-- A login as such is one amid which nothing changes. -/
theorem exists_login_eq_loginAmid (c : Client) :
    ∃ server pairStore, c.login = c.loginAmid server pairStore := by
  cases ensured : { c with pinUnlocked := false }.ensureCredentials with
  | mk answer c' =>
      refine ⟨c'.server, c'.pairStore, ?_⟩
      rw [login, loginAmid, ensured]
      cases answer with
      | error e => rfl
      | ok => rfl

theorem Sound.loginAmid {c : Client} (sound : c.Sound) (server : Server) (pairStore : PairStore) :
    (c.loginAmid server pairStore).2.Sound := by
  have start : { c with pinUnlocked := false }.Sound :=
    ⟨sound.token, sound.credentials, (fun entered => nomatch entered), sound.fitting⟩
  obtain ⟨ensured, pin, valid⟩ := start.ensureCredentials rfl
  rw [Client.loginAmid]
  split
  next e c' result => rwa [result] at ensured
  next c' result =>
    rw [result] at ensured pin valid
    exact (ensured.meanwhile server pairStore).openSession (valid rfl) pin

theorem Sound.login {c : Client} (sound : c.Sound) : c.login.2.Sound := by
  obtain ⟨server, pairStore, same⟩ := c.exists_login_eq_loginAmid
  rw [same]
  exact sound.loginAmid server pairStore

end Client

/-! ### Operations -/

/-- What a client can be asked to do. -/
inductive Operation where
  | login
  | keepAlive
  | pinUnlock (pin : String)
  | playlist (quality : Quality) (h265 adaptive : Bool)
  | streamQualities
  | guide (start : Int) (small : Bool) (channels : String)
  | recordings
  | recordingStream (recordId : String)
  | eventStream (eventId : String)
  | recordEvent (eventId : String)
  | deleteRecord (recordId : String)
deriving DecidableEq, Repr

namespace Client

/-- What an operation comes to when its value is left out. -/
def outcome {α : Type} (answer : Except ApiError α × Client) : Except ApiError Unit × Client :=
  (answer.1.map (fun _ => ()), answer.2)

/-- Do what is asked for. -/
def perform (c : Client) : Operation → Except ApiError Unit × Client
  | .login => c.login
  | .keepAlive => c.keepAlive
  | .pinUnlock pin => c.pinUnlock pin
  | .playlist quality h265 adaptive => outcome (c.playlist quality h265 adaptive)
  | .streamQualities => outcome c.streamQualities
  | .guide start small channels => outcome (c.guide start small channels)
  | .recordings => outcome c.recordings
  | .recordingStream recordId => outcome (c.recordingStream recordId)
  | .eventStream eventId => outcome (c.eventStream eventId)
  | .recordEvent eventId => outcome (c.recordEvent eventId)
  | .deleteRecord recordId => c.deleteRecord recordId

/-- What an operation comes to: a login, a PIN, or any other call within the session. -/
inductive Performed (c : Client) : Client → Prop where
  | login : Performed c c.login.2
  | pinUnlock (pin : String) : Performed c (c.pinUnlock pin).2
  | call {e : Endpoint} (inside : e.inSession = true) (params : Params) :
      Performed c (c.callInSession e params).2

theorem perform_performed (c : Client) (op : Operation) : Performed c (c.perform op).2 := by
  cases op with
  | login => exact .login
  | pinUnlock pin => exact .pinUnlock pin
  | keepAlive => exact .call rfl _
  | playlist => exact .call rfl _
  | streamQualities => exact .call rfl _
  | guide => exact .call rfl _
  | recordings => exact .call rfl _
  | recordingStream => exact .call rfl _
  | eventStream => exact .call rfl _
  | recordEvent => exact .call rfl _
  | deleteRecord => exact .call rfl _

theorem Sound.perform {c : Client} (sound : c.Sound) (op : Operation) : (c.perform op).2.Sound := by
  have performed := c.perform_performed op
  generalize (c.perform op).2 = c' at performed ⊢
  cases performed with
  | login => exact sound.login
  | pinUnlock pin => exact sound.pinUnlock pin
  | call inside params => exact sound.callInSession inside params

/-- Without a session everything but a login is refused and sends nothing. -/
theorem perform_of_token_eq {c : Client} (h : c.token = "") {op : Operation} (other : op ≠ .login) :
    c.perform op = (.error .notLoggedIn, c) := by
  cases op <;>
    first
    | contradiction
    | simp only [perform, outcome, keepAlive, pinUnlock, playlist, streamQualities, guide,
        recordings, recordingStream, eventStream, recordEvent, deleteRecord,
        callInSession_of_token_eq h, Except.map]

/-- States that are reached from a client that has done nothing yet, by operations in
any order. In between, and amid a login, the service and the stored pairing change at
will. -/
inductive Run : Client → Prop where
  | start (account : Account) (server : Server) (pairStore : PairStore) :
      Run { account, server, pairStore }
  | meanwhile {c : Client} (run : Run c) (server : Server) (pairStore : PairStore) :
      Run { c with server, pairStore }
  | perform {c : Client} (run : Run c) (op : Operation) : Run (c.perform op).2
  | loginAmid {c : Client} (run : Run c) (server : Server) (pairStore : PairStore) :
      Run (c.loginAmid server pairStore).2

theorem Run.sound {c : Client} (run : c.Run) : c.Sound := by
  induction run with
  | start =>
      exact ⟨rfl, fun session => absurd rfl session, (fun entered => nomatch entered),
        fittingHistory_nil⟩
  | meanwhile _ server pairStore sound => exact sound.meanwhile server pairStore
  | perform _ op sound => exact sound.perform op
  | loginAmid _ server pairStore sound => exact sound.loginAmid server pairStore

/-- In every run a session has credentials, a PIN counts as entered only in a session,
and every request fits the session that was open when it was sent. While the history
leaves no session, everything but a login is refused and sends nothing. -/
theorem session_of_run {c : Client} (run : c.Run) :
    (c.token ≠ "" → c.credentials.valid = true) ∧
    (c.pinUnlocked = true → c.loggedIn = true) ∧
    (∀ before x after, c.exchanges = before ++ x :: after → x.request.Fits (lastToken before)) ∧
    (lastToken c.exchanges = "" → ∀ op, op ≠ .login → c.perform op = (.error .notLoggedIn, c)) := by
  have sound := run.sound
  refine ⟨sound.credentials, fun entered => loggedIn_iff.mpr (sound.pin entered), sound.fitting, ?_⟩
  intro none op other
  exact perform_of_token_eq (sound.token.trans none) other

/-- A service that pairs any device and lets it in. -/
def welcoming : Server :=
  ⟨(Table.empty.insert "create-pairing"
      [.body "\x7b\"status\":1,\"deviceId\":42,\"password\":\"secret\"\x7d"]).insert
    "device-login" [.body "\x7b\"status\":1,\"PHPSESSID\":\"first\"\x7d"]⟩

/-- After a login the sign of life carries the token, although it is not answered. -/
theorem session_after_login : ∃ c : Client, c.Run ∧ c.token = "first" ∧
    c.credentials.valid = true ∧
    (c.exchanges.map (·.request.endpoint) = [.createPairing, .deviceLogin, .keepAlive]) ∧
    ∀ before x after, c.exchanges = before ++ x :: after → x.request.Fits (lastToken before) := by
  have run := ((Run.start default welcoming {}).perform .login).perform .keepAlive
  obtain ⟨credentials, -, fitting, -⟩ := session_of_run run
  exact ⟨_, run, by decide +kernel, credentials (by decide +kernel), by decide +kernel, fitting⟩

end Client

end PvrBackend
