/-!
# Settings

What the user can set: the account and its service, how often each collection is
refreshed, which channels are shown, and how far the guide reaches. Intervals
are given in milliseconds. Those that are set in hours or minutes are converted to
seconds in 64 bits, where a product that is too large wraps around.
-/

namespace PvrBackend

inductive Provider where
  | sledovaniTv
  | moderniTv
deriving DecidableEq, Repr, Inhabited

namespace Provider

/-- Address in front of every function name. -/
def apiUrl : Provider → String
  | .sledovaniTv => "https://sledovanitv.cz/api/"
  | .moderniTv => "https://api.moderntv.eu/api/"

/-- What the service calls this client family when it pairs and logs in. -/
def unit : Provider → String
  | .sledovaniTv => "default"
  | .moderniTv => "modernitv"

def label : Provider → String
  | .sledovaniTv => "sledovanitv.cz"
  | .moderniTv => "moderntv.eu"

def name : Provider → String
  | .sledovaniTv => "SledovaniTv"
  | .moderniTv => "ModerniTv"

def all : List Provider := [.sledovaniTv, .moderniTv]

end Provider

/-- Picture quality asked of the service. -/
inductive Quality where
  | standard
  | low
  | high
deriving DecidableEq, Repr, Inhabited

namespace Quality

/-- Number that the service knows the quality by. -/
def level : Quality → Nat
  | .standard => 0
  | .low => 20
  | .high => 40

def name : Quality → String
  | .standard => "Default"
  | .low => "Sd"
  | .high => "Hd"

def all : List Quality := [.standard, .low, .high]

end Quality

/-- The settings; a field that is not set keeps the value given here. -/
structure Settings where
  provider : Provider := .sledovaniTv
  userName : String := ""
  password : String := ""
  /-- Identifies the device in place of its network address. -/
  deviceId : String := ""
  /-- Names the product in place of the host name. -/
  productId : String := ""
  quality : Quality := .standard
  fullRefreshHours : UInt64 := 24
  recordingsRefreshSecs : UInt64 := 60
  keepAliveSecs : UInt64 := 20
  guideCheckMins : UInt64 := 1
  loginRetrySecs : UInt64 := 30
  pollMillis : UInt64 := 1000
  useH265 : Bool := false
  useAdaptive : Bool := false
  showLocked : Bool := true
  /-- Of the locked channels only those that a PIN opens. -/
  showLockedOnlyPin : Bool := true
  futureDays : UInt32 := 3
  pastDays : UInt32 := 1
  userAgent : String := "okhttp/3.12.0"
deriving DecidableEq, Repr, Inhabited

namespace Settings

/-- Time between two reloads of the lineup. -/
def fullRefresh (s : Settings) : Nat := (s.fullRefreshHours * 3600).toNat * 1000

def recordingsRefresh (s : Settings) : Nat := s.recordingsRefreshSecs.toNat * 1000

def keepAlive (s : Settings) : Nat := s.keepAliveSecs.toNat * 1000

/-- Time between two checks of the guide. -/
def guideCheck (s : Settings) : Nat := (s.guideCheckMins * 60).toNat * 1000

/-- Length of one sleep of the worker, at least a millisecond. -/
def poll (s : Settings) : Nat := max s.pollMillis.toNat 1

/-- Number of sleeps between two attempts to log in, at least one. -/
def loginRetryTicks (s : Settings) : Nat := max ((s.loginRetrySecs * 1000).toNat / s.poll) 1

theorem loginRetryTicks_pos (s : Settings) : 0 < s.loginRetryTicks := Nat.le_max_right _ _

def unlocked : String := "none"

def pinLocked : String := "pin"

/-- Whether a channel that is locked for the given reason is shown. -/
def shows (s : Settings) (reason : String) : Bool :=
  reason == unlocked || (s.showLocked && (!s.showLockedOnlyPin || reason == pinLocked))

end Settings

end PvrBackend
