import PvrBackend.Json.Reader
import PvrBackend.Session.Error
import PvrBackend.Session.Request
import PvrBackend.Table

/-!
# Answers of the service

What the service will answer is given as a list of replies per function. Replies
are used up in order and the last one is repeated. As any finite run of requests
takes finitely many replies of each function, such lists describe every
behaviour of the service in such a run.

An answer counts as success when it is an object whose `status` reads as 1.
-/

namespace PvrBackend

/-- What comes back for a request. -/
inductive Reply where
  /-- An answer with this body. -/
  | body (text : String)
  /-- No answer, for this reason. -/
  | unreachable (reason : String)
deriving DecidableEq, Repr

/-- The body of a reply; an empty body is no answer. -/
def Reply.text : Reply → Except ApiError String
  | .body text => if text = "" then .error (.transport "Empty response") else .ok text
  | .unreachable reason => .error (.transport reason)

/-- Replies still to come, by function name. -/
structure Server where
  replies : Table String (List Reply) := .empty

instance : Inhabited Server := ⟨{}⟩

namespace Server

/-- The next reply of a function, and the service after it. -/
def answer (s : Server) (e : Endpoint) : Reply × Server :=
  match s.replies.get? e.name with
  | none | some [] => (.unreachable "no route", s)
  | some [r] => (r, s)
  | some (r :: rest) => (r, { s with replies := s.replies.insert e.name rest })

/-- Replace the replies of a function. -/
def reroute (s : Server) (function : String) (replies : List Reply) : Server :=
  { s with replies := s.replies.insert function replies }

end Server

/-- The value of an answer, when it is one of success. -/
def checkAnswer (body : String) : Except ApiError Json :=
  match Json.read body with
  | none => .error .malformed
  | some root =>
    let code := root.intAt "status"
    if code = 1 then .ok root else .error (.status code (root.textAt "error"))

def Reply.value (r : Reply) : Except ApiError Json := r.text.bind checkAnswer

end PvrBackend
