import PvrBackend.Guide.Coverage
import PvrBackend.Lineup.Basic
import PvrBackend.Recording.Basic

/-!
# The store

What the backend currently knows: lineup, guide, recordings, timers and drive
space, the window of the guide, and the flags by which host and worker talk to
each other. A collection is replaced as a whole, so whoever took it before keeps
what it was.
-/

namespace PvrBackend

/-- The published collections and the flags beside them. -/
structure Store where
  /-- Whether the worker goes on. -/
  running : Bool := true
  /-- Whether recordings are to be refreshed. -/
  loadRecordings : Bool := true
  /-- Whether a lineup was published at least once. -/
  lineupLoaded : Bool := false
  /-- Whether the host has fetched the channels at least once. -/
  channelsDelivered : Bool := false
  lineup : Lineup := {}
  guide : Guide := {}
  recordings : List Recording := []
  timers : List Timer := []
  driveSpace : DriveSpace := {}
  window : Window
  futureDays : Int
  pastDays : Int
deriving Inhabited

namespace Store

def windowAround (now futureDays pastDays : Int) : Window :=
  ⟨Calendar.wrap (now - pastDays * Calendar.daySeconds),
    Calendar.wrap (now + futureDays * Calendar.daySeconds)⟩

/-- A store without collections. The first refresh of the recordings is due. -/
def start (futureDays pastDays now : Int) : Store :=
  { window := windowAround now futureDays pastDays, futureDays, pastDays }

/-- The number of days that stands for "as before". -/
def sameDays : Int := -1

/-- Set how far the guide reaches, and move the window to `now`. -/
def setMaxDays (s : Store) (future past now : Int) : Store :=
  let futureDays := if future = sameDays then s.futureDays else future
  let pastDays := if past = sameDays then s.pastDays else past
  { s with futureDays, pastDays, window := windowAround now futureDays pastDays }

/-- Widen the window to contain a span. -/
def widenWindow (s : Store) (start stop : Int) : Store :=
  { s with window := s.window.widen start stop }

/-- Publish a lineup; whether the host has to be told. -/
def publishLineup (s : Store) (lineup : Lineup) : Bool × Store :=
  (s.channelsDelivered, { s with lineup, lineupLoaded := true })

/-- Note that the host has the channels. -/
def markDelivered (s : Store) : Store := { s with channelsDelivered := true }

def updateGuide {α : Type} (s : Store) (edit : Guide → α × Guide) : α × Store :=
  let (a, guide) := edit s.guide
  (a, { s with guide })

/-- Publish the outcome of a refresh; what is `none` stays. -/
def publishRecordings (s : Store) (recordings : Option (List Recording))
    (timers : Option (List Timer)) (driveSpace : DriveSpace) : Store :=
  { s with
    recordings := recordings.getD s.recordings
    timers := timers.getD s.timers
    driveSpace }

def requestRecordings (s : Store) : Store := { s with loadRecordings := true }

/-- Take the request for a refresh; whether there was one. -/
def takeRequest (s : Store) : Bool × Store := (s.loadRecordings, { s with loadRecordings := false })

def recordingExists (s : Store) (id : String) : Bool := s.recordings.any (·.recordId == id)

/-- Make the worker end. -/
def stop (s : Store) : Store := { s with running := false }

end Store

end PvrBackend
