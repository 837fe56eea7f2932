import PvrBackend.Proofs.Session.Operations
import PvrBackend.Proofs.Session.Pairings

/-!
# Calls in a session

A call in a session sends one request and leaves the client as it was, whatever is
answered; only a PIN that is accepted shows. Without a session nothing is sent. So a
stretch of calls is known by its exchanges.

A login changes more, but on every way out the PIN counts as not entered.
-/

namespace PvrBackend

/-- Whether the service accepted a PIN. -/
def Exchange.unlocks (x : Exchange) : Bool :=
  x.request.endpoint = .pinUnlock && x.reply.value.isOk

namespace Client

/-- Between two states of a client nothing happened but these exchanges. -/
def Called (c c' : Client) (xs : List Exchange) : Prop :=
  ∃ server, c' = { c with server, exchanges := c.exchanges ++ xs }

theorem Called.refl (c : Client) : Called c c [] := ⟨c.server, by rw [List.append_nil]⟩

theorem Called.trans {c c' c'' : Client} {xs ys : List Exchange} (first : Called c c' xs)
    (second : Called c' c'' ys) : Called c c'' (xs ++ ys) := by
  obtain ⟨_, rfl⟩ := first
  obtain ⟨server, rfl⟩ := second
  exact ⟨server, by rw [List.append_assoc]⟩

theorem Called.exchanges {c c' : Client} {xs : List Exchange} (called : Called c c' xs) :
    c'.exchanges = c.exchanges ++ xs := by
  obtain ⟨_, rfl⟩ := called
  rfl

theorem Called.pinUnlocked {c c' : Client} {xs : List Exchange} (called : Called c c' xs) :
    c'.pinUnlocked = c.pinUnlocked := by
  obtain ⟨_, rfl⟩ := called
  rfl

/-- Within a session the request is sent, and its reply decides. -/
theorem callInSession_sends {c : Client} (session : c.loggedIn = true) (e : Endpoint)
    (params : Params) : ∃ reply, (c.callInSession e params).1 = reply.value ∧
      Called c (c.callInSession e params).2 [⟨c.request e params (some c.token), reply⟩] := by
  let r := c.request e params (some c.token)
  have sent : c.callInSession e params = ((c.send r).1.value, (c.send r).2) := if_pos session
  rw [sent]
  exact ⟨(c.send r).1, rfl, _, rfl⟩

theorem callInSession_called (c : Client) (e : Endpoint) (params : Params) :
    ∃ xs, Called c (c.callInSession e params).2 xs ∧ ∀ x ∈ xs, x.request.endpoint = e := by
  by_cases session : c.loggedIn = true
  · obtain ⟨reply, -, called⟩ := callInSession_sends session e params
    refine ⟨_, called, fun x mem => ?_⟩
    rw [List.mem_singleton.mp mem, request]
  · have unsent : c.callInSession e params = (.error .notLoggedIn, c) := if_neg session
    rw [unsent]
    exact ⟨[], .refl c, List.forall_mem_nil _⟩

/-- Whatever the answer, the client is left after a stretch of calls. -/
theorem exists_called {c c' : Client} {e : Endpoint} {params : Params}
    (left : (c.callInSession e params).2 = c') : ∃ xs, Called c c' xs := by
  obtain ⟨xs, called, -⟩ := c.callInSession_called e params
  exact ⟨xs, left ▸ called⟩

theorem loggedIn_of_callInSession_eq_ok {c : Client} {e : Endpoint} {params : Params} {root : Json}
    (ok : (c.callInSession e params).1 = .ok root) : c.loggedIn = true := by
  rw [loggedIn_iff]
  intro none
  rw [callInSession_of_token_eq none] at ok
  cases ok

/-! ### The PIN -/

/-- How an attempt to enter a PIN ends. -/
inductive Unlocking (c : Client) : Except ApiError Unit × Client → Prop where
  /-- Nothing is opened. -/
  | refused {c' : Client} {e : ApiError} {xs : List Exchange} (called : Called c c' xs)
      (asked : ∀ x ∈ xs, x.request.endpoint = .pinUnlock) : Unlocking c (.error e, c')
  /-- The PIN counts as entered from here on. -/
  | accepted {c' : Client} {x : Exchange} (called : Called c c' [x]) (unlocks : x.unlocks = true) :
      Unlocking c (.ok (), { c' with pinUnlocked := true })

theorem pinUnlock_unlocking (c : Client) (pin : String) : Unlocking c (c.pinUnlock pin) := by
  rw [pinUnlock]
  split
  next e c' result =>
    obtain ⟨xs, called, asked⟩ := c.callInSession_called .pinUnlock [("pin", pin)]
    rw [result] at called
    exact .refused called asked
  next root c' result =>
    have ok : (c.callInSession .pinUnlock [("pin", pin)]).1 = .ok root := by rw [result]
    obtain ⟨reply, value, called⟩ :=
      callInSession_sends (loggedIn_of_callInSession_eq_ok ok) .pinUnlock [("pin", pin)]
    rw [ok] at value
    rw [result] at called
    refine .accepted called ?_
    rw [Exchange.unlocks, ← value]
    rfl

/-! ### Logins -/

/-- The client sent some requests, and the PIN counts as entered if it did before. -/
structure Grown (c c' : Client) : Prop where
  exchanges : c.exchanges <+: c'.exchanges
  pinUnlocked : c'.pinUnlocked = c.pinUnlocked

theorem Grown.refl (c : Client) : Grown c c := ⟨List.prefix_rfl, rfl⟩

theorem Grown.trans {c c' c'' : Client} (first : Grown c c') (second : Grown c' c'') :
    Grown c c'' :=
  ⟨first.exchanges.trans second.exchanges, second.pinUnlocked.trans first.pinUnlocked⟩

theorem grown_send (c : Client) (r : Request) : Grown c (c.send r).2 :=
  ⟨⟨_, (send_exchanges c r).symm⟩, rfl⟩

theorem Cleared.grown {c c' : Client} (cleared : Cleared c c') : Grown c c' := by
  cases cleared with
  | unread => exact .refl c
  | nameless => exact .refl c
  | removed => exact grown_send c _

theorem Pairing.grown {c : Client} {attempt : Except ApiError Unit × Client}
    (pairing : Pairing c attempt) : Grown c attempt.2 := by
  cases pairing with
  | reused => exact ⟨List.prefix_rfl, rfl⟩
  | unusable => exact .refl c
  | kept => exact grown_send c _
  | refused cleared => exact cleared.grown.trans (grown_send _ _)
  | @renewed c' _ cleared =>
      have asked := cleared.grown.trans (grown_send c' c'.creation)
      exact ⟨asked.exchanges, asked.pinUnlocked⟩

theorem grown_ensureCredentials (c : Client) : Grown c c.ensureCredentials.2 := by
  rw [ensureCredentials]
  split
  · exact .refl c
  · exact c.pair_pairing.grown

theorem grown_openSession (c : Client) : Grown c c.openSession.2 := by
  have asked := grown_send c c.opening
  have opening := c.openSession_opening
  generalize c.openSession = attempt at opening ⊢
  cases opening with
  | opened => exact ⟨asked.exchanges, asked.pinUnlocked⟩
  | unanswered => exact asked
  | rejected => exact ⟨asked.exchanges, asked.pinUnlocked⟩

/-- However a login ends, it has closed what a PIN opened. -/
theorem grown_login (c : Client) : Grown { c with pinUnlocked := false } c.login.2 := by
  have ensured := grown_ensureCredentials { c with pinUnlocked := false }
  rw [login]
  split
  next e c' result => rwa [result] at ensured
  next c' result =>
    rw [result] at ensured
    exact ensured.trans (grown_openSession c')

/-! ### What is asked for -/

/-- Between two states of a client only functions of a kind were asked for. -/
def Sends (Kind : Endpoint → Prop) (c c' : Client) : Prop :=
  ∃ xs, c'.exchanges = c.exchanges ++ xs ∧ ∀ x ∈ xs, Kind x.request.endpoint

section

variable {Kind Kind' : Endpoint → Prop} {c c' c'' : Client}

theorem Sends.refl (c : Client) : Sends Kind c c := ⟨[], (List.append_nil _).symm, nofun⟩

theorem Sends.trans (first : Sends Kind c c') (second : Sends Kind c' c'') :
    Sends Kind c c'' := by
  obtain ⟨xs, grown, kind⟩ := first
  obtain ⟨ys, grown', kind'⟩ := second
  refine ⟨xs ++ ys, by rw [grown', grown, List.append_assoc], fun x member => ?_⟩
  exact (List.mem_append.mp member).elim (kind x) (kind' x)

theorem Sends.imp (sends : Sends Kind c c') (weaker : ∀ e, Kind e → Kind' e) :
    Sends Kind' c c' := by
  obtain ⟨xs, grown, kind⟩ := sends
  exact ⟨xs, grown, fun x member => weaker _ (kind x member)⟩

theorem sends_send (c : Client) {r : Request} (kind : Kind r.endpoint) :
    Sends Kind c (c.send r).2 := by
  refine ⟨_, send_exchanges c r, fun x member => ?_⟩
  exact List.mem_singleton.mp member ▸ kind

theorem sends_callInSession (c : Client) {e : Endpoint} (params : Params) (kind : Kind e) :
    Sends Kind c (c.callInSession e params).2 := by
  obtain ⟨xs, called, same⟩ := c.callInSession_called e params
  exact ⟨xs, called.exchanges, fun x member => same x member ▸ kind⟩

end

/-- Functions that are asked for without a session. -/
abbrev Outside (e : Endpoint) : Prop := e.inSession = false

theorem Cleared.sends {c c' : Client} (cleared : Cleared c c') : Sends Outside c c' := by
  cases cleared with
  | unread => exact .refl c
  | nameless => exact .refl c
  | removed => exact sends_send c rfl

theorem Pairing.sends {c : Client} {attempt : Except ApiError Unit × Client}
    (pairing : Pairing c attempt) : Sends Outside c attempt.2 := by
  cases pairing with
  | reused => exact .refl c
  | unusable => exact .refl c
  | kept => exact sends_send c rfl
  | @refused c' _ cleared => exact cleared.sends.trans (sends_send c' rfl)
  | @renewed c' _ cleared =>
      have asked : Sends Outside c (c'.send c'.creation).2 :=
        cleared.sends.trans (sends_send c' rfl)
      exact asked

theorem sends_ensureCredentials (c : Client) : Sends Outside c c.ensureCredentials.2 := by
  rw [ensureCredentials]
  split
  · exact .refl c
  · exact c.pair_pairing.sends

theorem sends_openSession (c : Client) : Sends Outside c c.openSession.2 := by
  have asked : Sends Outside c (c.send c.opening).2 := sends_send c rfl
  have opening := c.openSession_opening
  generalize c.openSession = attempt at opening ⊢
  cases opening with
  | opened => exact asked
  | unanswered => exact asked
  | rejected => exact asked

/-- A login asks for nothing that needs a session, whatever changes amid it. -/
theorem sends_loginAmid (c : Client) (server : Server) (pairStore : PairStore) :
    Sends Outside c (c.loginAmid server pairStore).2 := by
  have ensured : Sends Outside c { c with pinUnlocked := false }.ensureCredentials.2 :=
    sends_ensureCredentials { c with pinUnlocked := false }
  rw [loginAmid]
  split
  next e c' result => rwa [result] at ensured
  next c' result =>
    rw [result] at ensured
    have opened : Sends Outside c' { c' with server, pairStore }.openSession.2 :=
      sends_openSession { c' with server, pairStore }
    exact ensured.trans opened

theorem sends_login (c : Client) : Sends Outside c c.login.2 := by
  obtain ⟨server, pairStore, same⟩ := c.exists_login_eq_loginAmid
  rw [same]
  exact c.sends_loginAmid server pairStore

end Client

end PvrBackend
