import PvrBackend.Engine.Basic
import PvrBackend.Guide.Answer
import PvrBackend.Lineup.Playlist
import PvrBackend.Recording.Answer

/-!
# The jobs of the worker

Each job asks the service, publishes what came back and tells the host what
changed. A job that gets no usable answer publishes nothing, and no job does
anything once the store says that the worker is to end.
-/

namespace PvrBackend.Engine

/-! ### Lineup -/

def loadedMessage (count : Nat) : String := Decimal.natText count ++ " channels loaded."

/-- Publish the lineup of an answer. The host is told of the change if it has
fetched channels before. -/
def publishLineup (e : Engine) (root : Json) : Engine :=
  let lineup := Lineup.ofAnswer e.settings root
  let e := e.tell (.notify (loadedMessage lineup.channels.length))
  let (delivered, store) := e.store.publishLineup lineup
  let e := { e with store }
  if delivered then (e.tell .channelsChanged).tell .channelGroupsChanged else e

def loadLineup (e : Engine) : Engine :=
  if e.store.running then
    match e.client.playlist e.settings.quality e.settings.useH265 e.settings.useAdaptive with
    | (.error _, client) => { e with client }
    | (.ok root, client) => { e with client }.publishLineup root
  else e

/-- Start over: forget what is loaded of the guide, move the window to now and
load the lineup. -/
def fullRefresh (e : Engine) : Engine :=
  let store := e.store.setMaxDays e.store.futureDays e.store.pastDays e.now
  { e with store, worker := { e.worker with coverage := e.worker.coverage.reset } }.loadLineup

/-! ### Recordings -/

/-- Ask for the stream of every recording in turn. One that gets no answer keeps
the stream it has. -/
def resolveStreams (channels : List Channel) :
    Client → List Recording → List Recording × Client
  | c, [] => ([], c)
  | c, r :: rs =>
    let (answer, c) := c.recordingStream r.recordId
    let r := match answer with
      | .ok s =>
        { r with streamUrl := s.url, streamType := Channel.streamTypeOf channels s.channel }
      | .error _ => r
    let (rs, c) := resolveStreams channels c rs
    (r :: rs, c)

/-- Publish a listing. Recordings that differ from the published ones get their
streams asked for and are published, as are timers that differ; the drive space
is published in any case. -/
def publishListing (e : Engine) (listing : Listing) : Engine :=
  let inherited := Recording.inheritStreams e.store.recordings listing.recordings
  let recordingsDiffer := Recording.differ e.store.recordings inherited
  let timersDiffer := Timer.differ e.store.timers listing.timers
  let (recordings, client) :=
    if recordingsDiffer then resolveStreams e.store.lineup.channels e.client inherited
    else (inherited, e.client)
  let store := e.store.publishRecordings
    (if recordingsDiffer then some recordings else none)
    (if timersDiffer then some listing.timers else none) listing.driveSpace
  let e := { e with client, store }
  let e := if recordingsDiffer then e.tell .recordingsChanged else e
  if timersDiffer then e.tell .timersChanged else e

def loadRecordings (e : Engine) : Engine :=
  match e.client.recordings with
  | (.error _, client) => { e with client }
  | (.ok root, client) =>
    { e with client }.publishListing
      (Listing.ofAnswer e.store.lineup.channels e.host.lockedLabel e.now root)

/-- Refresh recordings and timers if that was asked for; whether it was. -/
def recordingsJob (e : Engine) : Bool × Engine :=
  if e.store.running then
    let (requested, store) := e.store.takeRequest
    if requested then (true, { e with store }.loadRecordings) else (false, e)
  else (false, e)

/-! ### Guide -/

/-- The chunk that the window needs next. -/
def nextChunk? (e : Engine) : Option Chunk :=
  e.worker.coverage.next? Calendar.dayStart e.now e.store.window

def extendCoverage (e : Engine) (chunk : Chunk) : Engine :=
  { e with worker :=
    { e.worker with coverage := e.worker.coverage.extend chunk e.store.window } }

def mergeGuide (e : Engine) (root : Json) : Engine :=
  let (changes, store) :=
    e.store.updateGuide (·.mergeAll (Guide.ofAnswer e.store.lineup.channels root))
  { e with store }.tellChanges changes

/-- Load a chunk of the guide; whether it came. A chunk that is covered already is
not asked for. -/
def loadChunk (e : Engine) (chunk : Chunk) : Bool × Engine :=
  if e.worker.coverage.covers chunk then (false, e)
  else
    match e.client.guide chunk.start chunk.small "" with
    | (.error _, client) =>
      (false,
        { e with client, worker := { e.worker with coverage := e.worker.coverage.noteAttempt } })
    | (.ok root, client) => (true, ({ e with client }.extendCoverage chunk).mergeGuide root)

/-- Drop what lies outside the window, and clip the coverage. -/
def releaseGuide (e : Engine) : Engine :=
  let (changes, store) := e.store.updateGuide (·.release e.store.window)
  let e := { e with store }.tellChanges changes
  { e with worker := { e.worker with coverage := e.worker.coverage.clip e.store.window } }

/-- One step of filling the window, and of dropping what left it; whether a chunk
came. -/
def guideJob (e : Engine) : Bool × Engine :=
  if e.store.running then
    let (updated, e) := match e.nextChunk? with
      | some chunk => e.loadChunk chunk
      | none => (false, e)
    (updated, if e.store.running then e.releaseGuide else e)
  else (false, e)

/-! ### Session -/

/-- Give a sign of life; when that fails the worker logs in again. -/
def keepAliveJob (e : Engine) : Engine :=
  if e.store.running then
    match e.client.keepAlive with
    | (.ok (), client) => { e with client }
    | (.error _, client) => { e with client }.proceed (.login 0 .pass)
  else e

/-- Try to log in, unless a delay of sleeps has to pass before. Once the worker is
to end it does not try again. -/
def loginStep (e : Engine) (delay : Nat) (next : Resume) : Engine :=
  if e.store.running then
    match delay with
    | delay + 1 => e.sleep (.login delay next)
    | 0 =>
      match e.client.login with
      | (.ok (), client) => ({ e with client }.tell (.connection true)).proceed next.phase
      | (.error _, client) =>
        ({ e with client }.tell (.connection false)).sleep
          (.login (e.settings.loginRetryTicks - 1) next)
  else e.proceed next.phase

end PvrBackend.Engine
