import Mathlib.Data.List.Induction
import PvrBackend.Proofs.Session.Calls
import PvrBackend.Proofs.Text.Literals

/-!
# How a token comes back to the service

The service issues the token of a session in the answer to a login, and from then on each call
carries it, until the service decides about another login. It stands in the address as it was
issued, while the parameters in front of it are encoded. So the service reads its own token from
the address exactly if there is nothing in it that a reader takes for something else.
-/

namespace PvrBackend

open Text.Form (IsWord Literal queryOf decodePairs decodePairs_queryOf_iff)

/-! ### Addresses -/

theorem Provider.not_mem_apiUrl (p : Provider) : '?' ∉ p.apiUrl.toList := by
  cases p <;> decide

theorem Endpoint.not_mem_name (e : Endpoint) : '?' ∉ e.name.toList := by
  cases e <;> decide

/-- A call is made within a session: it carries the token, and its keys are plain words. -/
structure Request.Carries (r : Request) (token : String) : Prop where
  token : r.token = some token
  words : ∀ p ∈ r.params, IsWord p.1

/-- The address of a call is read as its parameters and its token exactly if the token is read
as it stands. -/
theorem Request.Carries.reads_iff {r : Request} {token : String} (carries : r.Carries token) :
    decodePairs (queryOf r.url) = some (r.params ++ [(tokenKey, token)]) ↔ Literal token := by
  have plain : '?' ∉ (r.provider.apiUrl ++ r.endpoint.name).toList := by
    rw [String.toList_append, List.mem_append, not_or]
    exact ⟨r.provider.not_mem_apiUrl, r.endpoint.not_mem_name⟩
  rw [Request.url, carries.token]
  exact decodePairs_queryOf_iff plain carries.words token

/-! ### Histories -/

/-- Every call within a session carries the token of the session that was open just then. -/
def CarryingHistory (xs : List Exchange) : Prop :=
  ∀ before x after, xs = before ++ x :: after → x.request.endpoint.inSession = true →
    x.request.Carries (lastToken before)

theorem carryingHistory_nil : CarryingHistory [] := each_nil

theorem CarryingHistory.concat {xs : List Exchange} {x : Exchange}
    (carrying : CarryingHistory xs)
    (carries : x.request.endpoint.inSession = true → x.request.Carries (lastToken xs)) :
    CarryingHistory (xs ++ [x]) :=
  each_concat carrying carries

/-- What is sent outside any session may be added to a history. -/
theorem CarryingHistory.append {xs ys : List Exchange} (carrying : CarryingHistory xs)
    (outside : ∀ y ∈ ys, y.request.endpoint.inSession = false) : CarryingHistory (xs ++ ys) := by
  induction ys using List.reverseRecOn with
  | nil => rwa [List.append_nil]
  | append_singleton ys y ih =>
      have earlier := ih fun z member => outside z (List.mem_append_left _ member)
      have last : y.request.endpoint.inSession = false := outside y (by simp)
      rw [← List.append_assoc]
      apply earlier.concat
      intro inside
      rw [last] at inside
      cases inside

/-- Exchanges that decide nothing about the session leave it open. -/
theorem lastToken_append {xs ys : List Exchange} (quiet : ∀ y ∈ ys, y.verdict? = none) :
    lastToken (xs ++ ys) = lastToken xs := by
  have none : ys.filterMap Exchange.verdict? = [] := List.filterMap_eq_nil_iff.mpr quiet
  rw [lastToken, List.filterMap_append, none, List.append_nil, lastToken]

namespace Client

/-! ### Runs -/

/-- The keys that calls within a session use. -/
def callKeys : List String :=
  ["pin", "uuid", "format", "quality", "capabilities", "time", "duration", "detail", "allowOrder",
    "channels", "recordId", "eventId"]

theorem isWord_of_mem_callKeys : ∀ key ∈ callKeys, IsWord key := by
  decide

theorem pinUnlock_exchanges (c : Client) (pin : String) :
    (c.pinUnlock pin).2.exchanges = (c.callInSession .pinUnlock [("pin", pin)]).2.exchanges := by
  rw [pinUnlock]
  split
  next result => rw [result]
  next result => rw [result]

/-- Everything but a login is one call within the session, by known keys. -/
theorem perform_calls (c : Client) {op : Operation} (other : op ≠ .login) :
    ∃ e params, (∀ p ∈ params, p.1 ∈ callKeys) ∧
      (c.perform op).2.exchanges = (c.callInSession e params).2.exchanges := by
  cases op with
  | login => contradiction
  | pinUnlock pin => exact ⟨_, _, by simp [callKeys], c.pinUnlock_exchanges pin⟩
  | keepAlive => exact ⟨_, _, List.forall_mem_nil _, rfl⟩
  | playlist quality h265 adaptive => exact ⟨_, _, by simp [callKeys], rfl⟩
  | streamQualities => exact ⟨_, _, List.forall_mem_nil _, rfl⟩
  | guide start small channels =>
      refine ⟨_, guideParams start small channels, ?_, rfl⟩
      rw [guideParams]
      split <;> simp [callKeys]
  | recordings => exact ⟨_, _, List.forall_mem_nil _, rfl⟩
  | recordingStream recordId => exact ⟨_, _, by simp [callKeys], rfl⟩
  | eventStream eventId => exact ⟨_, _, by simp [callKeys], rfl⟩
  | recordEvent eventId => exact ⟨_, _, by simp [callKeys], rfl⟩
  | deleteRecord recordId => exact ⟨_, _, by simp [callKeys], rfl⟩

/-- A call within the session carries its token. -/
theorem carrying_callInSession {c : Client} (sound : c.Sound)
    (carrying : CarryingHistory c.exchanges) (e : Endpoint) {params : Params}
    (known : ∀ p ∈ params, p.1 ∈ callKeys) :
    CarryingHistory (c.callInSession e params).2.exchanges := by
  by_cases session : c.loggedIn = true
  · obtain ⟨reply, -, called⟩ := callInSession_sends session e params
    rw [called.exchanges]
    apply carrying.concat
    intro _
    rw [← sound.token]
    exact ⟨rfl, fun p member => isWord_of_mem_callKeys _ (known p member)⟩
  · have unsent : c.callInSession e params = (.error .notLoggedIn, c) := if_neg session
    rwa [unsent]

theorem carrying_of_sends {c c' : Client} (carrying : CarryingHistory c.exchanges)
    (sends : Sends Outside c c') : CarryingHistory c'.exchanges := by
  obtain ⟨xs, grown, outside⟩ := sends
  rw [grown]
  exact carrying.append outside

theorem Run.carrying {c : Client} (run : c.Run) : CarryingHistory c.exchanges := by
  induction run with
  | start => exact carryingHistory_nil
  | meanwhile _ server pairStore ih => exact ih
  | @perform c run op ih =>
      by_cases login : op = .login
      · rw [login]
        exact carrying_of_sends ih c.sends_login
      · obtain ⟨e, params, known, same⟩ := c.perform_calls login
        rw [same]
        exact carrying_callInSession run.sound ih e known
  | @loginAmid c _ server pairStore ih =>
      exact carrying_of_sends ih (c.sends_loginAmid server pairStore)

/-! ### Calls in the session that a login opened -/

/-- The service issued a token in the answer to a login, and decided about no other login before
this call. -/
structure CalledIn (xs : List Exchange) (token : String) (x : Exchange) : Prop where
  issued : token ≠ ""
  opened : ∃ before login middle after root, xs = before ++ login :: (middle ++ x :: after) ∧
    login.request.endpoint = .deviceLogin ∧ login.reply.value = .ok root ∧
    root.textAt tokenKey = token ∧ ∀ y ∈ middle, y.verdict? = none
  inside : x.request.endpoint.inSession = true

/-- A login that is answered with a token decides for it. -/
theorem verdict?_of_issued {login : Exchange} {root : Json}
    (asked : login.request.endpoint = .deviceLogin) (answer : login.reply.value = .ok root)
    (issued : root.textAt tokenKey ≠ "") : login.verdict? = some (root.textAt tokenKey) := by
  apply Exchange.verdict?_of_ok asked
  rw [answer]
  exact tokenOf_of_ne issued

/-- No other answer decides for a token. -/
theorem exists_root_of_verdict? {login : Exchange} {token : String} (issued : token ≠ "")
    (verdict : login.verdict? = some token) :
    ∃ root, login.reply.value = .ok root ∧ root.textAt tokenKey = token := by
  by_cases asked : login.request.endpoint = .deviceLogin
  · cases opened : login.reply.value.bind tokenOf with
    | error e =>
        rw [Exchange.verdict?_of_error asked opened] at verdict
        split at verdict
        · cases verdict
        · exact absurd (Option.some.inj verdict).symm issued
    | ok other =>
        rw [Exchange.verdict?_of_ok asked opened] at verdict
        obtain rfl := Option.some.inj verdict
        cases answer : login.reply.value with
        | error e =>
            rw [answer] at opened
            cases opened
        | ok root =>
            refine ⟨root, rfl, ?_⟩
            rw [answer] at opened
            by_cases none : root.textAt tokenKey = ""
            · cases (tokenOf_of_eq none).symm.trans opened
            · exact Except.ok.inj ((tokenOf_of_ne none).symm.trans opened)
  · rw [Exchange.verdict?_of_ne asked] at verdict
    cases verdict

theorem CalledIn.carries {c : Client} (run : c.Run) {token : String} {x : Exchange}
    (called : CalledIn c.exchanges token x) : x.request.Carries token := by
  obtain ⟨before, login, middle, after, root, history, asked, answer, same, quiet⟩ := called.opened
  have verdict : login.verdict? = some token := by
    rw [← same]
    exact verdict?_of_issued asked answer (same ▸ called.issued)
  have last : lastToken (before ++ [login] ++ middle) = token := by
    rw [lastToken_append quiet, lastToken_concat, verdict, Option.getD_some]
  have carries := run.carrying (before ++ [login] ++ middle) x after (by simp [history])
    called.inside
  rwa [last] at carries

/-- In every run, whatever token the service issued, the address of each later call in that
session is read as the parameters of the call and the token exactly if nothing in the token is
taken for something else: a separator, a plus sign, or an escape. -/
theorem token_arrives_iff {c : Client} (run : c.Run) {token : String} {x : Exchange}
    (called : CalledIn c.exchanges token x) :
    decodePairs (queryOf x.request.url) = some (x.request.params ++ [(tokenKey, token)]) ↔
      Literal token :=
  (called.carries run).reads_iff

/-- A service that pairs any device, lets it in with this token, written as a value, and takes
any PIN. -/
def issuing (token : String) : Server :=
  (welcoming.reroute "device-login"
    [.body ("\x7b\"status\":1,\"PHPSESSID\":" ++ token ++ "\x7d")]).reroute
    "pin-unlock" [.body "\x7b\"status\":1\x7d"]

/-- A client of that service that has logged in and entered a PIN. -/
def visitor (token : String) : Client :=
  let arriving : Client := { account := default, server := issuing token }
  (arriving.login.2.pinUnlock "1&2").2

theorem run_visitor (token : String) : (visitor token).Run :=
  ((Run.start default (issuing token) {}).perform .login).perform (.pinUnlock "1&2")

/-- Where the login was accepted, the PIN was entered in its session. -/
theorem calledIn_visitor (written token : String) (issued : token ≠ "")
    (verdicts : (visitor written).exchanges.map (fun x => (x.request.endpoint, x.verdict?)) =
      [(.createPairing, none), (.deviceLogin, some token), (.pinUnlock, none)]) :
    ∃ x ∈ (visitor written).exchanges, CalledIn (visitor written).exchanges token x := by
  generalize (visitor written).exchanges = xs at verdicts
  obtain ⟨pairing, rest, rfl, -, verdicts⟩ := List.map_eq_cons_iff.mp verdicts
  obtain ⟨login, rest, rfl, opened, verdicts⟩ := List.map_eq_cons_iff.mp verdicts
  obtain ⟨x, rest, rfl, entered, -⟩ := List.map_eq_cons_iff.mp verdicts
  obtain ⟨asked, verdict⟩ := Prod.mk.inj opened
  obtain ⟨root, answer, same⟩ := exists_root_of_verdict? issued verdict
  refine ⟨x, by simp, issued,
    ⟨[pairing], login, [], rest, root, rfl, asked, answer, same, nofun⟩, ?_⟩
  rw [(Prod.mk.inj entered).1]
  rfl

/-- A token with an equals sign, a question mark, a percent sign and a letter beyond ASCII
arrives. -/
theorem token_arrives_odd : ∃ x, CalledIn (visitor "\"č=?%2z\"").exchanges "č=?%2z" x ∧
    decodePairs (queryOf x.request.url) = some (x.request.params ++ [(tokenKey, "č=?%2z")]) := by
  obtain ⟨x, -, called⟩ := calledIn_visitor "\"č=?%2z\"" "č=?%2z" (by decide) (by decide +kernel)
  exact ⟨x, called, (token_arrives_iff (run_visitor _) called).mpr (by decide)⟩

/-- It is not true that every token arrives: an ampersand in it ends its pair. -/
theorem not_always_arrives : ¬ ∀ (c : Client) (token : String) (x : Exchange), c.Run →
    CalledIn c.exchanges token x →
    decodePairs (queryOf x.request.url) = some (x.request.params ++ [(tokenKey, token)]) := by
  intro always
  obtain ⟨x, -, called⟩ := calledIn_visitor "\"a&b=c\"" "a&b=c" (by decide) (by decide +kernel)
  have run := run_visitor "\"a&b=c\""
  have literal := (called.carries run).reads_iff.mp (always _ _ x run called)
  exact absurd literal (by decide)

end Client

end PvrBackend
