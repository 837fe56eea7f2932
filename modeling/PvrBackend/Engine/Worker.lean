import PvrBackend.Engine.Jobs

/-!
# Runs of the worker

The worker logs in, loads the lineup, starts its limiters and then passes through
the periodic jobs again and again. After a pass in which nothing was done it
sleeps for one poll interval; otherwise the next pass follows at once.

`step` is what the worker does up to its next decision, `run` repeats it up to
the next sleep, and `advance` lets time pass.
-/

namespace PvrBackend.Engine

/-- Poll the limiter of the full refresh; whether it fired. -/
def pollFullRefresh (e : Engine) : Bool × Engine :=
  let (fires, fullRefresh) := e.worker.limiters.fullRefresh.poll e.clock
  let e := { e with worker := { e.worker with limiters := { e.worker.limiters with fullRefresh } } }
  (fires, if fires then e.fullRefresh else e)

/-- Poll the limiter of the recordings, which asks for a refresh; whether it fired. -/
def pollRecordings (e : Engine) : Bool × Engine :=
  let (fires, recordings) := e.worker.limiters.recordings.poll e.clock
  let e := { e with worker := { e.worker with limiters := { e.worker.limiters with recordings } } }
  (fires, if fires then { e with store := e.store.requestRecordings } else e)

/-- Poll the limiter of the guide. The guide is also filled further as long as the
last pass loaded a part of it. Whether the guide was looked at. -/
def pollGuide (e : Engine) : Bool × Engine :=
  let (fires, guideCheck) := e.worker.limiters.guideCheck.poll e.clock
  let e := { e with worker := { e.worker with limiters := { e.worker.limiters with guideCheck } } }
  if fires || e.worker.guideUpdated then
    let (updated, e) := e.guideJob
    (true, { e with worker := { e.worker with guideUpdated := updated } })
  else (false, { e with worker := { e.worker with guideUpdated := false } })

def pollKeepAlive (e : Engine) : Bool × Engine :=
  let (fires, keepAlive) := e.worker.limiters.keepAlive.poll e.clock
  let e := { e with worker := { e.worker with limiters := { e.worker.limiters with keepAlive } } }
  (fires, if fires then e.keepAliveJob else e)

/-- One pass through the periodic jobs. -/
def pass (e : Engine) : Engine :=
  let (loaded, e) := e.recordingsJob
  let (refreshed, e) := e.pollFullRefresh
  let (asked, e) := e.pollRecordings
  let (looked, e) := e.pollGuide
  let (kept, e) := e.pollKeepAlive
  if loaded || refreshed || asked || looked || kept then e else e.sleep .pass

/-- Load the lineup for the first time, and start the limiters. -/
def launch (e : Engine) : Engine :=
  let e := e.loadLineup
  { e with worker := { e.worker with limiters := .start e.settings e.clock } }.proceed .pass

/-- The next step of a worker that does not sleep. -/
def step (e : Engine) : Engine :=
  match e.worker.phase with
  | .login delay next => e.loginStep delay next
  | .launch => e.launch
  | .pass => if e.store.running then e.pass else e.proceed .ended
  | .ended => e

/-- Whether the worker has to wait for time to pass, or has ended. -/
def atRest (e : Engine) : Bool := e.worker.wakeAt.isSome || e.worker.phase == .ended

/-- Steps that a run without a sleep may take. Only a worker that would never
sleep again takes as many. -/
def stepLimit : Nat := 1000000

/-- Repeat steps up to the next sleep, `limit` at most. -/
def runFor : Nat → Engine → Engine
  | 0, e => e
  | limit + 1, e => if e.atRest then e else runFor limit e.step

def run (e : Engine) : Engine := runFor stepLimit e

/-- An engine whose worker has run up to its first sleep. -/
def start (settings : Settings) (client : Client) (host : Host) (clock : Int) : Engine :=
  (create settings client host clock).run

def wake (e : Engine) (time : Int) : Engine :=
  { e with clock := time, worker := { e.worker with wakeAt := none } }

/-- Let sleeps end that end by a deadline, `limit` at most. -/
def wakeUntil (deadline : Int) : Nat → Engine → Engine
  | 0, e => e
  | limit + 1, e =>
    match e.worker.wakeAt with
    | some time => if time ≤ deadline then wakeUntil deadline limit (e.wake time).run else e
    | none => e

/-- Let time pass. As a sleep lasts one poll interval, no more of them can end than
such intervals fit into that time, and one. -/
def advance (e : Engine) (millis : Nat) : Engine :=
  let deadline := e.clock + millis
  { wakeUntil deadline (millis / e.settings.poll + 1) e with clock := deadline }

end PvrBackend.Engine
