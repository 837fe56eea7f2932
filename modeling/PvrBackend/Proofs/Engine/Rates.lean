import PvrBackend.Proofs.Engine.Books

/-!
# How often the worker asks

From when its limiters start the worker asks for lineup, guide, listing and signs of life in the
pace of four limiters, whatever the service answers, however long that takes and whatever the host
calls meanwhile. The first load of the lineup comes before the limiters, and takes the place of
one that the limiter of the full refresh would allow at once.

The guide is asked for once more after each part that came. A refresh of the recordings waits for
the next pass once its limiter fired, so its place in time is not that of its limiter: after a
pass that takes long, the one that had waited and the next one come close to each other.
-/

namespace PvrBackend

/-! ### Points of the routines -/

/-- What is known at a point of the routines. -/
inductive Point where
  /-- There are jobs without intervals, and nothing is known. -/
  | free
  | early (asked started : Bool)
  | late (start : Int) (due : Due)

namespace Point

open Routine

def Holds : Point → Scene → Prop
  | free, s => ¬ s.engine.settings.Paced
  | early asked started, s => Early asked started s.engine (tally s.past)
  | late start due, s => Late start due s.engine (tally s.past)

/-- The worker has nothing in hand. -/
def Rests : Point → Prop
  | free => True
  | early asked started => asked = false ∧ started = false
  | late _ due => due = .nothing

/-- What the worker may turn to next. -/
def Admits : Point → Phase → Prop
  | free, _ => True
  | early _ _, phase => phase.isOpening = true
  | late _ _, phase => phase.isOpening = false

theorem Holds.admits {i : Point} {s : Scene} (holds : i.Holds s) :
    i.Admits s.engine.worker.phase := by
  cases i with
  | free => exact trivial
  | early => exact holds.opening
  | late => exact holds.opening

theorem Holds.alike {i : Point} {s : Scene} (holds : i.Holds s) {e : Engine}
    (alike : s.engine.Alike e) (admits : i.Admits e.worker.phase) :
    i.Holds { s with engine := e } := by
  cases i with
  | free =>
      rw [Holds, alike.settings]
      exact holds
  | early => exact Early.alike holds alike admits
  | late => exact Late.alike holds alike admits

/-- The worker may turn to what it is admitted to. -/
theorem Holds.turn {i : Point} {s : Scene} (holds : i.Holds s) {phase : Phase}
    (admits : i.Admits phase) (wakeAt : Option Int) :
    i.Holds { s with engine := { s.engine with
      worker := { s.engine.worker with phase, wakeAt } } } :=
  holds.alike ⟨rfl, rfl, rfl, rfl, rfl⟩ admits

theorem Holds.act {i : Point} {s : Scene} {β : Type} {a : Act β} (quiet : a.Quiet)
    (holds : i.Holds s) : i.Holds (s.act a) := by
  have steady := quiet s.engine
  refine holds.alike steady.alike ?_
  rw [steady.worker]
  exact holds.admits

/-- Of the past only the tally matters. -/
theorem Holds.tallied {i : Point} {s s' : Scene} (holds : i.Holds s)
    (engine : s'.engine = s.engine) (past : tally s'.past = tally s.past) : i.Holds s' := by
  cases i with
  | free => rwa [Holds, engine]
  | early => rwa [Holds, engine, past]
  | late => rwa [Holds, engine, past]

theorem Holds.note {i : Point} {s : Scene} (holds : i.Holds s) {m : Mark} (other : m ≠ .limiters) :
    i.Holds (s.note m) :=
  holds.tallied rfl (s.tally_note other)

theorem Holds.disturb {i : Point} {s : Scene} {e : Engine} (holds : i.Holds s)
    (disturbed : s.engine.Disturbed e) : i.Holds (s.disturb e) := by
  cases i with
  | free =>
      rw [Holds, Scene.disturb, disturbed.settings]
      exact holds
  | early =>
      rw [Holds, s.tally_disturb e]
      exact Early.disturb holds disturbed _
  | late =>
      rw [Holds, s.tally_disturb e]
      exact Late.disturb holds disturbed

/-- The worker may come back later, and with another client. -/
theorem Holds.wait {i : Point} {s : Scene} (rests : i.Rests) (holds : i.Holds s) (client : Client)
    {later : Int} (passed : s.engine.clock ≤ later) :
    i.Holds { s with engine := { s.engine with client, clock := later } } := by
  cases i with
  | free => exact holds
  | early asked started =>
      obtain ⟨-, rfl⟩ := rests
      exact Early.wait holds client passed
  | late start due =>
      obtain rfl := rests
      exact Late.wait holds rfl client passed

/-- What nobody asks for in intervals is asked for at any time. -/
theorem Holds.ask {i : Point} {s : Scene} (rests : i.Rests) (holds : i.Holds s) {β : Type}
    {q : Ask β} (sparing : ∀ c, Client.Sparing c (q.run c).2) {later : Int}
    (passed : s.engine.clock ≤ later) : i.Holds (s.ask q later) := by
  have waited : i.Holds { s with
      engine := { s.engine with client := (q.run s.engine.client).2, clock := later } } :=
    holds.wait rests _ passed
  exact waited.tallied rfl (s.tally_ask_of_sparing (sparing _) later)

section Rules

variable {α β : Type} {i j : Point} {post : α → Point → Prop}

/-- Whatever a routine does, jobs without intervals stay so. -/
theorem leads_free (r : Routine α) : r.Leads Holds free fun _ j => j = free := by
  induction r with
  | done a => rfl
  | mark m rest ih => exact fun s holds => ⟨free, holds, ih⟩
  | act a rest ih =>
      intro s holds
      have settings := a.settings s.engine
      exact ⟨free, by rwa [Holds, Scene.act, settings], ih _⟩
  | ask q rest ih => exact fun s later holds _ => ⟨free, holds, ih _⟩

theorem leads_of_note {m : Mark} (other : m ≠ .limiters) {r : Routine α}
    (leads : r.Leads Holds i post) : (Routine.note m >>= fun _ => r).Leads Holds i post :=
  fun _ holds => ⟨i, holds.note other, leads⟩

theorem leads_of_quiet {r : Routine β} {k : β → Routine α} (quiet : r.Quiet)
    (leads : ∀ b, (k b).Leads Holds i post) : (r >>= k).Leads Holds i post :=
  Leads.bind (Leads.quiet quiet Holds.act leads)

/-- A job that the worker is not to do any more leaves what is due. -/
theorem leads_of_running {k : Bool → Routine α} (goes : (k true).Leads Holds i post)
    (lapse : ∀ s, i.Holds s → j.Holds s) (ends : (k false).Leads Holds j post) :
    (look (·.store.running) >>= k).Leads Holds i post :=
  Leads.running (fun _ _ => id) lapse goes ends

theorem leads_proceed {phase : Phase} (admits : i.Admits phase) :
    (proceed phase).Leads Holds i fun _ k => k = i :=
  fun _ holds => ⟨i, holds.turn admits none, rfl⟩

theorem leads_sleep {phase : Phase} (admits : i.Admits phase) :
    (sleep phase).Leads Holds i fun _ k => k = i :=
  fun s holds => ⟨i, holds.turn admits (some (s.engine.clock + s.engine.settings.poll)), rfl⟩

end Rules

/-! ### Logins and lineups -/

theorem admits_login {i : Point} {delay : Nat} {next : Resume} :
    i.Admits (.login delay next) ↔ i.Admits next.phase := by
  have same := next.isOpening_login delay
  cases i with
  | free => exact Iff.rfl
  | early => rw [Admits, Admits, same]
  | late => rw [Admits, Admits, same]

theorem leads_loginStep {i : Point} (rests : i.Rests) (delay : Nat) {next : Resume}
    (admits : i.Admits next.phase) :
    (loginStep delay next).Leads Holds i fun _ k => k = i := by
  refine leads_of_note (by nofun) (leads_of_running ?_ (fun _ => id) (leads_proceed admits))
  cases delay with
  | succ delay => exact leads_sleep (admits_login.mpr admits)
  | zero =>
      have asks : ∀ s later, i.Holds s → s.engine.clock ≤ later → i.Holds (s.ask .login later) :=
        fun _ _ holds passed => holds.ask rests Client.sparing_login passed
      refine Leads.request (fun _ => i) asks fun answer => ?_
      cases answer with
      | ok => exact leads_of_quiet (quiet_tell _) fun _ => leads_proceed admits
      | error =>
          refine leads_of_quiet (quiet_tell _) fun _ => ?_
          exact leads_of_quiet (quiet_look _) fun _ => leads_sleep (admits_login.mpr admits)

theorem leads_loadLineup {i j : Point} (lapse : ∀ s, i.Holds s → j.Holds s)
    (asks : ∀ settings s later, i.Holds s → s.engine.clock ≤ later →
      j.Holds (s.ask (.playlist settings) later)) :
    loadLineup.Leads Holds i fun _ k => k = j := by
  refine leads_of_note (by nofun) (leads_of_running ?_ lapse rfl)
  refine leads_of_quiet (quiet_look _) fun settings => ?_
  refine Leads.request (fun _ => j) (asks settings) fun answer => ?_
  cases answer with
  | error => rfl
  | ok root => exact Leads.quiet (quiet_publishLineup root) Holds.act fun _ => rfl

theorem ask_playlist_early (settings : Settings) (s : Scene) (later : Int)
    (holds : (early false false).Holds s) (passed : s.engine.clock ≤ later) :
    (early true false).Holds (s.ask (.playlist settings) later) := by
  have holds : Early false false s.engine (tally s.past) := holds
  rw [Holds]
  rcases s.tally_ask_of_call (q := .playlist settings) (e := .playlist) rfl later with
    ⟨unsent, -⟩ | ⟨x, asked, -, sent⟩
  · rw [unsent]
    exact Early.wait holds.leave _ passed
  · rw [sent, Tally.send_playlist _ _ asked]
    exact Early.wait holds.ask _ passed

/-- A call in the session after which the worker has something else in hand. -/
theorem late_ask {start : Int} {due : Due} {s : Scene} {β : Type} {q : Ask β} {e : Endpoint}
    {params : Params}
    (calls : (q.run s.engine.client).2 = (s.engine.client.callInSession e params).2)
    (calm : due.isCalm = true)
    (unsent : (s.engine.client.callInSession e params).1.isOk = false →
      Late start due s.engine (tally s.past))
    (sent : ∀ x, x.request.endpoint = e →
      x.reply.value = (s.engine.client.callInSession e params).1 →
      Late start due s.engine ((tally s.past).send x s.engine.clock))
    {later : Int} (passed : s.engine.clock ≤ later) : (late start due).Holds (s.ask q later) := by
  rw [Holds]
  rcases s.tally_ask_of_call calls later with ⟨same, failed⟩ | ⟨x, asked, value, grown⟩
  · rw [same]
    exact Late.wait (unsent failed) calm _ passed
  · rw [grown]
    exact Late.wait (sent x asked value) calm _ passed

/-! ### Jobs between limiters -/

section Jobs

variable {start : Int}

theorem rests_nothing : (late start .nothing).Rests := rfl

theorem leads_fullRefresh :
    fullRefresh.Leads Holds (late start .lineup) fun _ k => k = late start .nothing := by
  refine leads_of_note (by nofun) (leads_of_quiet quiet_startOver fun _ => ?_)
  refine leads_loadLineup (fun s holds => Late.leave holds fun _ => rfl) ?_
  intro settings s later holds passed
  refine late_ask rfl rfl (fun _ => Late.leave holds fun _ => rfl) (fun x asked _ => ?_) passed
  rw [Tally.send_playlist _ _ asked]
  exact Late.ask_lineup holds

theorem leads_pollFullRefresh :
    pollFullRefresh.Leads Holds (late start .nothing) fun _ k => k = late start .nothing := by
  refine Leads.arrange (fun fires : Bool => late start (if fires then .lineup else .nothing))
    (fun s holds => Late.polled_fullRefresh holds) fun fires => ?_
  cases fires with
  | false => rfl
  | true => exact Leads.andThen leads_fullRefresh fun _ => rfl

theorem leads_resolveStreams (channels : List Channel) (rs : List Recording) :
    (resolveStreams channels rs).Leads Holds (late start .nothing)
      fun _ k => k = late start .nothing := by
  induction rs with
  | nil => rfl
  | cons r rs ih =>
      have sparing : ∀ c, Client.Sparing c ((Ask.recordingStream r.recordId).run c).2 :=
        fun c => c.sparing_callInSession _ rfl
      refine Leads.request (fun _ => late start .nothing)
        (fun s later holds passed => holds.ask rests_nothing sparing passed) fun answer => ?_
      exact Leads.andThen ih fun _ => rfl

theorem leads_publishListing (channels : List Channel) (listing : Listing) :
    (publishListing channels listing).Leads Holds (late start .nothing)
      fun _ k => k = late start .nothing := by
  refine leads_of_quiet (quiet_look _) fun published => leads_ite (fun _ => ?_) fun _ => ?_
  · refine Leads.andThen (leads_resolveStreams channels _) fun recordings => ?_
    exact Leads.quiet (quiet_publishRecordings _ _ _) Holds.act fun _ => rfl
  · exact Leads.quiet (quiet_publishRecordings _ _ _) Holds.act fun _ => rfl

theorem leads_loadRecordings :
    loadRecordings.Leads Holds (late start .recordings) fun _ k => k = late start .nothing := by
  have asks : ∀ s later, (late start .recordings).Holds s → s.engine.clock ≤ later →
      (late start .nothing).Holds (s.ask .recordings later) := by
    intro s later holds passed
    refine late_ask rfl rfl (fun _ => Late.leave holds fun _ => rfl) (fun x asked _ => ?_) passed
    rw [Tally.send_recordings _ _ asked]
    exact Late.ask_recordings holds
  refine Leads.request (fun _ => late start .nothing) asks fun answer => ?_
  cases answer with
  | error => rfl
  | ok root =>
      refine leads_of_quiet (quiet_look _) fun channels => ?_
      refine leads_of_quiet (quiet_look _) fun label => ?_
      exact leads_of_quiet (quiet_look _) fun now => leads_publishListing _ _

theorem leads_recordingsJob :
    recordingsJob.Leads Holds (late start .nothing) fun _ k => k = late start .nothing := by
  refine leads_of_note (by nofun) (leads_of_running ?_ (fun _ => id) rfl)
  refine Leads.edit (fun taken : Bool => late start (if taken then .recordings else .nothing))
    (fun s holds => Late.take holds) fun taken => ?_
  cases taken with
  | false => rfl
  | true => exact Leads.andThen leads_loadRecordings fun _ => rfl

theorem leads_pollRecordings :
    pollRecordings.Leads Holds (late start .nothing) fun _ k => k = late start .nothing := by
  refine Leads.arrange (fun fires : Bool => late start (if fires then .recordings else .nothing))
    (fun s holds => Late.polled_recordings holds) fun fires => ?_
  cases fires with
  | false => rfl
  | true =>
      exact Leads.edit (fun _ => late start .nothing) (fun s holds => Late.request holds)
        fun _ => rfl

/-- A part of the guide that is asked for may be followed by another one if it comes. -/
theorem leads_loadChunk (chunk : Chunk) : (loadChunk chunk).Leads Holds (late start .guide)
    fun updated k => k = late start (.looked updated) := by
  refine Leads.look (fun covered : Bool => late start (if covered then .looked false else .guide))
    (fun s holds => ?_) fun covered => ?_
  · split
    · exact Late.leave_guide holds
    · exact holds
  cases covered with
  | true => rfl
  | false =>
      refine Leads.request (fun answer => late start (.looked answer.isOk))
        (fun s later holds passed => ?_) fun answer => ?_
      · refine late_ask rfl rfl (fun failed => ?_) (fun x asked value => ?_) passed
        · have left := Late.leave_guide holds
          rwa [← failed] at left
        · rw [Tally.send_guide _ _ asked, value]
          exact Late.ask_guide holds _
      · cases answer with
        | error => exact leads_of_quiet (quiet_arrange fun _ => rfl) fun _ => rfl
        | ok root =>
            refine leads_of_quiet (quiet_look _) fun window => ?_
            refine leads_of_quiet (quiet_arrange fun _ => rfl) fun _ => ?_
            refine leads_of_quiet (quiet_look _) fun channels => ?_
            refine leads_of_quiet (quiet_edit (fun _ => rfl) fun _ => rfl) fun changes => ?_
            exact leads_of_quiet (quiet_tellChanges changes) fun _ => rfl

theorem leads_guideJob : guideJob.Leads Holds (late start .guide)
    fun updated k => k = late start (.looked updated) := by
  have settles : ∀ updated : Bool,
      (do
        if ← look (·.store.running) then releaseGuide
        pure updated : Routine Bool).Leads Holds (late start (.looked updated))
          fun updated k => k = late start (.looked updated) := by
    intro updated
    refine leads_of_quiet (quiet_look _) fun running => leads_ite (fun _ => ?_) fun _ => rfl
    exact leads_of_quiet quiet_releaseGuide fun _ => rfl
  have leave : ∀ s, (late start .guide).Holds s → (late start (.looked false)).Holds s :=
    fun s holds => Late.leave_guide holds
  refine leads_of_note (by nofun) (leads_of_running ?_ leave rfl)
  refine Leads.look (fun chunk => late start (if chunk.isSome then .guide else .looked false))
    (fun s holds => ?_) fun chunk => ?_
  · split
    · exact holds
    · exact leave s holds
  · cases chunk with
    | none => exact settles false
    | some chunk =>
        refine Leads.bind ((leads_loadChunk chunk).mono fun updated k same => ?_)
        rw [same]
        exact settles updated

theorem leads_pollGuide :
    pollGuide.Leads Holds (late start .nothing) fun _ k => k = late start .nothing := by
  have remembers : ∀ updated looks : Bool,
      (do
        arrange fun e => ((), { e.worker with guideUpdated := updated })
        pure looks : Routine Bool).Leads Holds (late start (.looked updated))
          fun _ k => k = late start .nothing :=
    fun updated looks => Leads.arrange (fun _ => late start .nothing)
      (fun s holds => Late.remember holds) fun _ => rfl
  refine Leads.arrange (fun looks : Bool => late start (if looks then .guide else .looked false))
    (fun s holds => Late.polled_guideCheck holds) fun looks => ?_
  cases looks with
  | false => exact remembers false false
  | true =>
      refine Leads.bind (leads_guideJob.mono fun updated k same => ?_)
      rw [same]
      exact remembers updated true

theorem leads_keepAliveJob :
    keepAliveJob.Leads Holds (late start .keepAlive) fun _ k => k = late start .nothing := by
  have leave : ∀ s, (late start .keepAlive).Holds s → (late start .nothing).Holds s :=
    fun s holds => Late.leave holds fun _ => rfl
  refine leads_of_note (by nofun) (leads_of_running ?_ leave rfl)
  refine Leads.request (fun _ => late start .nothing) (fun s later holds passed => ?_) ?_
  · refine late_ask rfl rfl (fun _ => leave s holds) (fun x asked _ => ?_) passed
    rw [Tally.send_keepAlive _ _ asked]
    exact Late.ask_keepAlive holds
  · intro answer
    cases answer with
    | ok => rfl
    | error => exact leads_proceed rfl

theorem leads_pollKeepAlive :
    pollKeepAlive.Leads Holds (late start .nothing) fun _ k => k = late start .nothing := by
  refine Leads.arrange (fun fires : Bool => late start (if fires then .keepAlive else .nothing))
    (fun s holds => Late.polled_keepAlive holds) fun fires => ?_
  cases fires with
  | false => rfl
  | true => exact Leads.andThen leads_keepAliveJob fun _ => rfl

theorem leads_pass : pass.Leads Holds (late start .nothing) fun _ k => k = late start .nothing := by
  refine Leads.andThen leads_recordingsJob fun loaded => ?_
  refine Leads.andThen leads_pollFullRefresh fun refreshed => ?_
  refine Leads.andThen leads_pollRecordings fun asked => ?_
  refine Leads.andThen leads_pollGuide fun looked =>
    Leads.andThen leads_pollKeepAlive fun kept => ?_
  exact leads_ite (fun _ => rfl) fun _ => leads_sleep rfl

end Jobs

/-! ### All runs -/

theorem leads_launch : launch.Leads Holds (early false false)
    fun _ k => ∃ start, k = late start .nothing := by
  refine Leads.andThen (leads_loadLineup (fun s holds => ?_) ask_playlist_early) fun _ => ?_
  · have holds : Early false false s.engine (tally s.past) := holds
    exact holds.leave
  · intro s holds
    refine ⟨early true true, ?_, fun s holds => ?_⟩
    · rw [Holds, s.tally_note_limiters]
      exact Early.launched holds
    · exact ⟨late s.engine.clock .nothing, Early.late holds, _, rfl⟩

theorem leads_step {i : Point} (rests : i.Rests) {phase : Phase} (admits : i.Admits phase) :
    (Routine.step phase).Leads Holds i fun _ => Rests := by
  have back : ∀ k, k = i → k.Rests := fun k same => same ▸ rests
  refine leads_of_note (by nofun) ?_
  cases phase with
  | login delay next =>
      have resumes := admits_login.mp admits
      exact (leads_loginStep rests delay resumes).mono fun _ => back
  | launch =>
      cases i with
      | free => exact (leads_free _).mono fun _ => back
      | early asked started =>
          obtain ⟨rfl, rfl⟩ := rests
          refine leads_launch.mono fun _ k late => ?_
          obtain ⟨start, rfl⟩ := late
          exact rests_nothing
      | late => cases admits
  | pass =>
      cases i with
      | free => exact (leads_free _).mono fun _ => back
      | early => cases admits
      | late start due =>
          obtain rfl := rests
          have ended : (late start .nothing).Admits .ended := rfl
          refine leads_of_running (leads_pass.mono fun _ => back) (fun _ => id) ?_
          exact (leads_proceed ended).mono fun _ => back
  | ended => exact rests

/-- The outline of all runs: the worker keeps its books. -/
def outline : Outline Point where
  Holds := Holds
  Rests := Rests
  start settings account server pairStore host clock := by
    by_cases paced : settings.Paced
    · exact ⟨early false false, ⟨rfl, rfl⟩, rfl, rfl, paced, rfl, Nat.le_refl 0, nofun⟩
    · exact ⟨free, trivial, paced⟩
  disturb holds disturbed := holds.disturb disturbed
  wait rests holds passed := holds.wait rests _ passed
  wake _ holds := holds.turn holds.admits none
  step rests holds := leads_step rests holds.admits

end Point

/-- What was sent. -/
def Event.exchange? : Event → Option Exchange
  | .sent x _ => some x
  | _ => none

namespace Scene

/-- In every run the worker asks for each thing no more often than its limiter allows from when the
limiters start on, for the guide once more after each part that came, and for the listing once more
after each request of the host. No call of the host asks for any of it. In each slot there is one
request for the lineup, one sign of life, and one for the guide besides those to which a part came
there. -/
theorem requests_keep_pace :
    (∀ (e : Engine) (call : HostCall), e.client.Sparing (e.serve call).client) ∧
    ∀ s todo, Run s todo → s.engine.settings.Paced →
      ∀ start, .noted .limiters start ∈ s.past →
        let elapsed := (s.engine.clock - start).toNat
        let t := tally s.past
        start ≤ s.engine.clock ∧
        t.playlists.length ≤ 1 + elapsed / s.engine.settings.fullRefresh ∧
        t.keepAlives.length ≤ elapsed / s.engine.settings.keepAlive ∧
        t.listings.length ≤ 1 + elapsed / s.engine.settings.recordingsRefresh + t.requests ∧
        t.guides.length ≤ 1 + elapsed / s.engine.settings.guideCheck + t.loads.length ∧
        ∀ k,
          (Grid.mk s.engine.settings.fullRefresh start).inSlot k t.playlists ≤ 1 ∧
          (Grid.mk s.engine.settings.keepAlive start).inSlot k t.keepAlives ≤ 1 ∧
          (Grid.mk s.engine.settings.guideCheck start).inSlot k t.guides ≤
            1 + (Grid.mk s.engine.settings.guideCheck start).inSlot k t.loads := by
  refine ⟨Engine.sparing_serve, fun s todo run paced start noted => ?_⟩
  have started : start ∈ (tally s.past).starts := mem_starts_tally noted
  obtain ⟨i, holds, -⟩ := Point.outline.sound run
  cases i with
  | free => exact absurd paced holds
  | early asked launched =>
      have early : Early asked launched s.engine (tally s.past) := holds
      have few : (tally s.past).playlists.length ≤ 1 :=
        Nat.le_trans early.few (Bool.toNat_le asked)
      rw [early.tally]
      have most : ∀ (g : Grid) k, g.inSlot k (tally s.past).playlists ≤ 1 :=
        fun g k => Nat.le_trans List.countP_le_length few
      rw [early.tally] at started
      have same : start = s.engine.clock := by cases launched <;> simp_all
      exact ⟨Int.le_of_eq same, Nat.le_trans few (Nat.le_add_right _ _), Nat.zero_le _,
        Nat.zero_le _, Nat.zero_le _, fun k => ⟨most _ k, Nat.zero_le _, Nat.zero_le _⟩⟩
  | late start' due =>
      have late : Late start' due s.engine (tally s.past) := holds
      rw [late.starts] at started
      obtain rfl := List.mem_singleton.mp started
      have keepAlives := late.keepAlive.length_le
      have made : (tally s.past).listings.length ≤ (tally s.past).listings.length + due.taken +
          s.engine.store.loadRecordings.toNat := by omega
      have listings := Nat.le_trans made late.recordings.count_le
      rw [Nat.add_comm, List.length_nil, Nat.add_zero] at keepAlives
      exact ⟨late.lineup.start_le, late.lineup.length_le, Nat.le_of_add_le_add_left keepAlives,
        listings, late.guide.length_le, fun k =>
          ⟨late.lineup.inSlot_le k, late.keepAlive.inSlot_le k, late.guide.inSlot_le k⟩⟩

/-! ### After a pass that takes long -/

/-- So many steps and sleeps of the worker alone. -/
def nexts : Nat → Scene → Scene
  | 0, s => s
  | count + 1, s => nexts count s.next

theorem Run.nexts {s : Scene} (run : Run s (.done ())) (count : Nat) :
    Run (s.nexts count) (.done ()) := by
  induction count generalizing s with
  | zero => exact run
  | succ count ih => exact ih run.next

/-- A service that answers nothing but logins, and one of them not either. -/
def faltering : Server :=
  ⟨Client.welcoming.replies.insert "device-login"
    [.body "\x7b\"status\":1,\"PHPSESSID\":\"first\"\x7d", .unreachable "timeout",
      .body "\x7b\"status\":1,\"PHPSESSID\":\"second\"\x7d"]⟩

/-- Two minutes of a worker that looks once a minute. After one minute it finds that a refresh of
the recordings is due, and then that it has to log in, which takes the other minute. -/
def faltered : Scene :=
  let settings : Settings :=
    { keepAliveSecs := 60, loginRetrySecs := 60, guideCheckMins := 600, pollMillis := 60000 }
  (start settings default faltering {} {} 0).nexts 12

theorem run_faltered : Run faltered (.done ()) := (Run.start ..).nexts 12

/-- In these two minutes nothing is asked for more often than there was time for. -/
theorem faltered_keeps_pace :
    let s := faltered
    let t := tally s.past
    s.engine.settings.Paced ∧ .noted .limiters 0 ∈ s.past ∧
    t.playlists = [0] ∧ t.keepAlives = [60000, 120000] ∧ t.listings = [0, 120000, 120000] ∧
    t.keepAlives.length ≤ 120000 / s.engine.settings.keepAlive ∧
    t.listings.length ≤ 1 + 120000 / s.engine.settings.recordingsRefresh + t.requests ∧
    ∀ k, (Grid.mk s.engine.settings.keepAlive 0).inSlot k t.keepAlives ≤ 1 := by
  obtain ⟨paced, noted, elapsed⟩ : faltered.engine.settings.Paced ∧
      .noted .limiters 0 ∈ faltered.past ∧ (faltered.engine.clock - 0).toNat = 120000 := by
    decide +kernel
  obtain ⟨-, -, keepAlives, listings, -, slots⟩ :=
    requests_keep_pace.2 faltered _ run_faltered paced 0 noted
  rw [elapsed] at keepAlives listings
  have times : (tally faltered.past).playlists = [0] ∧
      (tally faltered.past).keepAlives = [60000, 120000] ∧
      (tally faltered.past).listings = [0, 120000, 120000] := by decide +kernel
  exact ⟨paced, noted, times.1, times.2.1, times.2.2, keepAlives, listings,
    fun k => (slots k).2.1⟩

/-- A refresh that waits for a pass can come into the slot of the next one. So the service is asked
for the listing twice in a slot although it never gives one, and although the host asks for no
refresh. -/
theorem listing_twice_in_slot :
    Run faltered (.done ()) ∧ faltered.engine.settings.Paced ∧
    .noted .limiters 0 ∈ faltered.past ∧ (tally faltered.past).requests = 0 ∧
    (∀ x ∈ faltered.past.filterMap Event.exchange?,
      x.request.endpoint = .recordings → x.reply.value.isOk = false) ∧
    (Grid.mk faltered.engine.settings.recordingsRefresh 0).inSlot 2
      (tally faltered.past).listings = 2 :=
  ⟨run_faltered, by decide +kernel⟩

end Scene

end PvrBackend
