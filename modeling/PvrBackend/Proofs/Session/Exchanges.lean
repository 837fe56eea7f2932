import PvrBackend.Session.Login

/-!
# Sessions in a history of exchanges

Which session is open can be read off from what was sent and what came back: the
last login that the service decided on gave a token or took the session away, and
a login without an answer decided nothing. `lastToken` reads a history like this,
with no look at what the client itself keeps.

A history fits if every request in it does: the functions that pair and log in are
called without a token, and every other function is called with the token of the
session that was open just then.
-/

namespace PvrBackend

/-- Whether a function is called within a session. -/
def Endpoint.inSession : Endpoint → Bool
  | .createPairing | .deletePairing | .deviceLogin => false
  | _ => true

/-- What an exchange decides about the session: a login that succeeds opens one, and
one that is answered in any other way leaves none. -/
def Exchange.verdict? (x : Exchange) : Option String :=
  if x.request.endpoint = .deviceLogin then
    match x.reply.value.bind Client.tokenOf with
    | .ok token => some token
    | .error e => if e.isTransport then none else some ""
  else none

/-- The token of the session that is open after a history, empty when there is none. -/
def lastToken (xs : List Exchange) : String := (xs.filterMap Exchange.verdict?).getLast?.getD ""

theorem lastToken_concat (xs : List Exchange) (x : Exchange) :
    lastToken (xs ++ [x]) = x.verdict?.getD (lastToken xs) := by
  rw [lastToken, lastToken, List.filterMap_append]
  cases verdict : x.verdict? with
  | none => simp [verdict]
  | some token => simp [verdict]

theorem Exchange.verdict?_of_ne {x : Exchange} (h : x.request.endpoint ≠ .deviceLogin) :
    x.verdict? = none :=
  if_neg h

theorem Exchange.verdict?_of_ok {x : Exchange} {token : String}
    (login : x.request.endpoint = .deviceLogin)
    (accepted : x.reply.value.bind Client.tokenOf = .ok token) : x.verdict? = some token := by
  rw [verdict?, if_pos login, accepted]

theorem Exchange.verdict?_of_error {x : Exchange} {e : ApiError}
    (login : x.request.endpoint = .deviceLogin)
    (failed : x.reply.value.bind Client.tokenOf = .error e) :
    x.verdict? = if e.isTransport then none else some "" := by
  rw [verdict?, if_pos login, failed]

/-! ### Requests of a session -/

/-- How a request looks while a session is open, or while there is none if the token is
empty. -/
inductive Request.Fits (r : Request) (token : String) : Prop where
  /-- A call outside any session: only its own parameters are sent. -/
  | outside (endpoint : r.endpoint.inSession = false)
      (url : r.url = r.provider.apiUrl ++ r.endpoint.name ++ "?" ++ Text.Form.encodePairs r.params)
      (unnamed : tokenKey ∉ r.params.map (·.1))
  /-- A call within the session: its token comes last. -/
  | inside (endpoint : r.endpoint.inSession = true) (session : token ≠ "")
      (url : ∃ front, r.url = front ++ "PHPSESSID=" ++ token)

theorem Request.fits_of_token_eq_none {r : Request} (endpoint : r.endpoint.inSession = false)
    (none : r.token = none) (unnamed : tokenKey ∉ r.params.map (·.1)) (token : String) :
    r.Fits token := by
  refine .outside endpoint ?_ unnamed
  rw [url, none, query]

theorem Request.fits_of_token_eq_some {r : Request} {token : String}
    (endpoint : r.endpoint.inSession = true) (some : r.token = some token) (session : token ≠ "") :
    r.Fits token := by
  have key : "PHPSESSID=" = tokenKey ++ "=" := by decide
  let pairs := Text.Form.encodePairs r.params
  let front := r.provider.apiUrl ++ r.endpoint.name ++ "?" ++
    (if pairs = "" then "" else pairs ++ "&")
  refine .inside endpoint session ⟨front, ?_⟩
  rw [url, some, query, key]
  simp only [front, pairs, String.append_assoc]

/-! ### Histories -/

/-- A member of a history that grows is the new one or was there before. -/
theorem eq_or_mem_of_concat_eq {α : Type _} {xs before after : List α} {x y : α}
    (split : xs ++ [x] = before ++ y :: after) :
    (before = xs ∧ y = x) ∨ ∃ middle, xs = before ++ y :: middle := by
  rcases List.eq_nil_or_concat after with rfl | ⟨middle, last, rfl⟩
  · obtain ⟨rfl, same⟩ := List.append_inj' split rfl
    exact .inl ⟨rfl, (List.singleton_inj.mp same).symm⟩
  · rw [List.concat_eq_append, ← List.cons_append, ← List.append_assoc] at split
    exact .inr ⟨middle, (List.append_inj' split rfl).1⟩

section Each

variable {α : Type _} {P : List α → α → Prop}

theorem each_nil : ∀ before x after, [] = before ++ x :: after → P before x := by
  intro before x after split
  simp at split

/-- What each member satisfies after those before it has to be shown of the last one only. -/
theorem each_concat {xs : List α} {x : α}
    (each : ∀ before y after, xs = before ++ y :: after → P before y) (last : P xs x) :
    ∀ before y after, xs ++ [x] = before ++ y :: after → P before y := by
  intro before y after split
  rcases eq_or_mem_of_concat_eq split with ⟨rfl, rfl⟩ | ⟨middle, earlier⟩
  · exact last
  · exact each before y middle earlier

end Each

/-- Every request fits the session that was open when it was sent. -/
def FittingHistory (xs : List Exchange) : Prop :=
  ∀ before x after, xs = before ++ x :: after → x.request.Fits (lastToken before)

theorem fittingHistory_nil : FittingHistory [] := each_nil

theorem FittingHistory.concat {xs : List Exchange} {x : Exchange} (fitting : FittingHistory xs)
    (fits : x.request.Fits (lastToken xs)) : FittingHistory (xs ++ [x]) :=
  each_concat fitting fits

end PvrBackend
