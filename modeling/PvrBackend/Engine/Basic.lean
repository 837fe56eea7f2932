import PvrBackend.Limiter
import PvrBackend.Session.Calls
import PvrBackend.Store

/-!
# The engine

An engine is a client of the service, the store that the host reads, and a worker
that keeps the store up to date in the background. Its clock stands still while
anyone works: time passes only while the worker sleeps.

The worker is given by what it does next and by the sleep that comes before it.
So a run of the worker from one sleep to the next is a sequence of steps of one
function, and calls of the host fall between such runs.
-/

namespace PvrBackend

/-- What the engine tells the host, or asks of it. -/
inductive Callback where
  /-- A login succeeded or failed. -/
  | connection (connected : Bool)
  | notify (text : String)
  | channelsChanged
  | channelGroupsChanged
  | recordingsChanged
  | timersChanged
  | guide (change : GuideChange)
  | promptPin (heading : String)
deriving DecidableEq, Repr

/-- What the host answers when it is asked. -/
structure Host where
  /-- The PIN that the user enters; none when the prompt is cancelled. -/
  pin : Option String := none
  /-- Name of the directory of locked records. -/
  lockedLabel : String := "Locked"
  /-- Heading of the prompt for a PIN. -/
  pinHeading : String := "Enter PIN"
deriving DecidableEq, Repr, Inhabited

/-- What the worker goes on with after a login. -/
inductive Resume where
  /-- The first load of the lineup. -/
  | launch
  /-- The next pass. -/
  | pass
deriving DecidableEq, Repr

/-- What the worker does next. -/
inductive Phase where
  /-- Log in, after `delay` more sleeps. -/
  | login (delay : Nat) (next : Resume)
  /-- Load the lineup for the first time and start the limiters. -/
  | launch
  /-- A pass through the periodic jobs. -/
  | pass
  | ended
deriving DecidableEq, Repr

def Resume.phase : Resume → Phase
  | .launch => .launch
  | .pass => .pass

structure Limiters where
  keepAlive : Limiter
  fullRefresh : Limiter
  recordings : Limiter
  guideCheck : Limiter
deriving DecidableEq, Repr, Inhabited

/-- Limiters for the intervals of the settings; only the check of the guide is
due at once. -/
def Limiters.start (s : Settings) (now : Int) : Limiters where
  keepAlive := .start s.keepAlive true now
  fullRefresh := .start s.fullRefresh true now
  recordings := .start s.recordingsRefresh true now
  guideCheck := .start s.guideCheck false now

structure Worker where
  phase : Phase := .login 0 .launch
  /-- When the sleep before the next step ends; none when there is no sleep. -/
  wakeAt : Option Int := none
  coverage : Coverage := {}
  /-- Whether the last pass loaded a part of the guide. -/
  guideUpdated : Bool := false
  limiters : Limiters
deriving DecidableEq, Repr, Inhabited

structure Engine where
  settings : Settings
  client : Client
  host : Host
  store : Store
  worker : Worker
  /-- Milliseconds since 1970. -/
  clock : Int
  /-- What the host was told and asked, oldest first. -/
  callbacks : List Callback := []
deriving Inhabited

namespace Engine

/-- Seconds since 1970. -/
def secondsOf (clock : Int) : Int := clock / 1000

def now (e : Engine) : Int := secondsOf e.clock

/-- An engine whose worker has done nothing yet. -/
def create (settings : Settings) (client : Client) (host : Host) (clock : Int) : Engine where
  settings := settings
  client := client
  host := host
  store := .start settings.futureDays.toNat settings.pastDays.toNat (secondsOf clock)
  worker := { limiters := .start settings clock }
  clock := clock

def tell (e : Engine) (c : Callback) : Engine := { e with callbacks := e.callbacks ++ [c] }

def tellChanges (e : Engine) (changes : List GuideChange) : Engine :=
  { e with callbacks := e.callbacks ++ changes.map .guide }

/-- What the worker does next, without a sleep. -/
def proceed (e : Engine) (phase : Phase) : Engine :=
  { e with worker := { e.worker with phase, wakeAt := none } }

/-- What the worker does next, after a sleep. -/
def sleep (e : Engine) (phase : Phase) : Engine :=
  { e with worker := { e.worker with phase, wakeAt := some (e.clock + e.settings.poll) } }

end Engine

end PvrBackend
