import PvrBackend.Decimal.Numeral

/-!
# Failures of remote calls

The ways in which a call to the service fails, and their texts. Which of them
came without any answer decides whether a failed login keeps what it has.
-/

namespace PvrBackend

/-- Why pairing the device failed without an error of the call itself. -/
inductive PairingFault where
  /-- The device paired before could not be removed from the account. -/
  | previousKept
  /-- The answer named no device or no password. -/
  | noCredentials
deriving DecidableEq, Repr

/-- Why a call failed. -/
inductive ApiError where
  /-- No answer: no connection, a timeout, an empty body. -/
  | transport (reason : String)
  /-- The answer cannot be read. -/
  | malformed
  /-- The answer to a login carries no session token. -/
  | noToken
  /-- The service refused; `code` is its status, which is not 1. -/
  | status (code : Int) (reason : String)
  /-- The call needs a session and there is none. -/
  | notLoggedIn
  | pairing (fault : PairingFault)
deriving DecidableEq, Repr

def PairingFault.message : PairingFault → String
  | .previousKept => "Cannot delete previous pairing"
  | .noCredentials => "Pairing response without device credentials"

namespace ApiError

def message : ApiError → String
  | .transport reason => "Transport error: " ++ reason
  | .malformed => "Parse error: not a valid answer"
  | .noToken => "Parse error: Missing PHPSESSID in login response"
  | .status code reason => "API error (status " ++ Decimal.intText code ++ "): " ++ reason
  | .notLoggedIn => "Not logged in"
  | .pairing fault => "Pairing failed: " ++ fault.message

/-- Whether the service never answered. -/
def isTransport : ApiError → Bool
  | .transport _ => true
  | _ => false

/-- The reason that the service gave, if it answered with one. -/
def serverReason : ApiError → Option String
  | .status _ reason => some reason
  | _ => none

end ApiError

end PvrBackend
