import PvrBackend.Proofs.Engine.Frames

/-!
# Streams that were not answered

A recording whose stream was not answered is published without one. Nothing asks for it
in particular: the streams are asked for again when a refresh finds the recordings
changed, and then all of them. As a listing takes over the published streams before it is
compared with them, a stream that is missing is no change. So it stays missing as long as
the service lists the same records, whatever else happens, a PIN that is entered included.
-/

namespace PvrBackend.Engine

/-- From one engine to another without a refresh that gets a listing. -/
inductive Waiting (e : Engine) : Engine → Prop where
  | refl : Waiting e e
  | act {e' : Engine} (waiting : Waiting e e') {a : Action}
      (idle : ∀ root, ¬ e'.Refreshes a root) : Waiting e (e'.act a)

/-- Meanwhile the recordings stay. -/
theorem Waiting.recordings {e e' : Engine} (waiting : Waiting e e') :
    e'.store.recordings = e.store.recordings := by
  induction waiting with
  | refl => rfl
  | act _ idle ih => rw [recordings_of_act idle, ih]

theorem Waiting.meanwhile {e e' : Engine} (waiting : Waiting e e') (server : Server)
    (pairStore : PairStore) (host : Host) (clock : Int) (worker : Worker) :
    Waiting e (e'.act (.meanwhile server pairStore host clock worker)) := by
  apply waiting.act
  intro root refreshes
  cases refreshes.1

/-- A refresh that gets a listing takes it in. -/
theorem Refreshes.takes {e : Engine} {root : Json}
    (refreshes : e.Refreshes (.work .recordings) root) :
    ∃ x xs, (e.work .recordings).client.exchanges = e.client.exchanges ++ x :: xs ∧
      x.request = e.client.listingRequest ∧ Takes e (e.listing root) xs (e.work .recordings) := by
  obtain ⟨-, running, due, ok⟩ := refreshes
  let taken : Engine := { e with store := e.store.takeRequest.2 }
  have refreshed : e.work .recordings = taken.loadRecordings := by
    rw [work, recordingsJob, if_pos running]
    exact congrArg Prod.snd (if_pos due)
  obtain ⟨x, xs, called, request, takes⟩ := loadRecordings_takes (e := taken) ok
  rw [← refreshed] at called takes
  refine ⟨x, xs, called.exchanges, request, ?_⟩
  exact ⟨takes.requests, takes.recordings, takes.timers, takes.driveSpace, takes.callbacks⟩

/-- Recordings that changed are all asked for. -/
theorem Takes.asks {e e' : Engine} {l : Listing} {xs : List Exchange} (takes : Takes e l xs e')
    (changed : e.recordingsChange l = true) {id : String}
    (listed : id ∈ Recording.ids l.recordings) :
    ∃ y ∈ xs, y.request = e.client.streamRequest id := by
  obtain ⟨r, mem, rfl⟩ := List.mem_map.mp listed
  have requests := takes.requests
  rw [if_pos changed] at requests
  have asked : e.client.streamRequest r.recordId ∈ xs.map (·.request) := by
    rw [requests]
    exact List.mem_map_of_mem mem
  exact List.mem_map.mp asked

/-- Recordings that did not change are not asked for, and stay. -/
theorem Takes.stays {e e' : Engine} {l : Listing} {xs : List Exchange} (takes : Takes e l xs e')
    (unchanged : e.recordingsChange l = false) :
    xs = [] ∧ e'.store.recordings = e.store.recordings := by
  obtain ⟨requests, recordings, -, -, -⟩ := takes
  simp only [unchanged, Bool.false_eq_true, if_false] at requests recordings
  exact ⟨List.map_eq_nil_iff.mp requests, recordings⟩

/-- The next refresh that gets a listing finds the recordings unchanged if they are of the
same records and no record is published twice with two streams. Then it asks for no stream,
and a recording stays as it is, be it without a stream; otherwise the stream of every
recording that is still listed is asked for again. -/
theorem retried_if_changed {e e' : Engine} (waiting : Waiting e e') {root : Json}
    (refreshes : e'.Refreshes (.work .recordings) root) {r : Recording}
    (published : r ∈ e.store.recordings)
    (listed : r.recordId ∈ Recording.ids (e'.listing root).recordings) :
    ∃ x xs, (e'.work .recordings).client.exchanges = e'.client.exchanges ++ x :: xs ∧
      x.request = e'.client.listingRequest ∧
      (Recording.ids e.store.recordings = Recording.ids (e'.listing root).recordings ∧
          Recording.Uniform e.store.recordings →
        xs = [] ∧ r ∈ (e'.work .recordings).store.recordings) ∧
      (¬ (Recording.ids e.store.recordings = Recording.ids (e'.listing root).recordings ∧
          Recording.Uniform e.store.recordings) →
        ∃ y ∈ xs, y.request = e'.client.streamRequest r.recordId) := by
  obtain ⟨x, xs, exchanges, request, takes⟩ := refreshes.takes
  have unchanged_iff : e'.recordingsChange (e'.listing root) = false ↔
      Recording.ids e.store.recordings = Recording.ids (e'.listing root).recordings ∧
        Recording.Uniform e.store.recordings := by
    rw [recordingsChange_eq_false_iff, waiting.recordings]
  refine ⟨x, xs, exchanges, request, fun same => ?_, fun other => ?_⟩
  · obtain ⟨unasked, stays⟩ := takes.stays (unchanged_iff.mpr same)
    refine ⟨unasked, ?_⟩
    rw [stays, waiting.recordings]
    exact published
  · have changed : e'.recordingsChange (e'.listing root) = true := by
      rw [← Bool.not_eq_false, unchanged_iff]
      exact other
    exact takes.asks changed listed

/-! ### A stream that stays missing -/

/-- Records of one hour each, as a service lists them. -/
def recordsText (ids : List String) : String :=
  "\x7b\"status\":1,\"records\":[" ++ ",".intercalate (ids.map fun id =>
    "\x7b\"id\":" ++ id ++ ",\"startTime\":\"2024-01-14 20:00\",\"duration\":3600\x7d") ++ "]\x7d"

/-- A service that lists some records and answers every request for a stream but the first. -/
def slow (ids : List String) : Server :=
  (Client.welcoming.reroute "get-pvr" [.body (recordsText ids)]).reroute
    "record-timeshift" [.unreachable "timeout",
      .body "\x7b\"status\":1,\"url\":\"http://rec\",\"channel\":\"ct1\"\x7d"]

/-- An engine that publishes a recording without a stream, when the next refresh is due. -/
def lacking : Engine :=
  (((create {} { account := default, server := slow ["7"], pairStore := {} } {} 1705316400000).work
    (.logIn 0 .launch)).work .recordings).work .requestRecordings

/-- The service comes to list another record. -/
def addition : Action := .meanwhile (slow ["7", "8"]) {} {} 1705316460000 { limiters := default }

theorem refreshes_of_answered {e : Engine} (running : e.store.running = true)
    (due : e.store.loadRecordings = true) (answered : e.client.recordings.1.isOk = true) :
    ∃ root, e.Refreshes (.work .recordings) root ∧ e.listing root = e.nextListing := by
  obtain ⟨root, ok, listing⟩ := exists_nextListing answered
  exact ⟨root, ⟨rfl, running, due, ok⟩, listing⟩

/-- What is published without a stream. -/
theorem exists_without_stream {rs : List Recording} {id : String}
    (found : (Recording.withId? rs id).map (·.streamUrl) = some "") :
    ∃ r ∈ rs, r.streamUrl = "" ∧ r.recordId = id := by
  obtain ⟨r, first, url⟩ := Option.map_eq_some_iff.mp found
  exact ⟨r, List.mem_of_find?_eq_some first, url, Recording.recordId_of_withId? first⟩

/-- Once the service lists another record too, the stream is asked for again. -/
theorem retried_with_addition : Waiting lacking (lacking.act addition) ∧ ∃ root,
    (lacking.act addition).Refreshes (.work .recordings) root ∧
    ∃ r ∈ lacking.store.recordings, r.streamUrl = "" ∧
      r.recordId ∈ Recording.ids ((lacking.act addition).listing root).recordings ∧
      ∃ x xs, ((lacking.act addition).work .recordings).client.exchanges =
          (lacking.act addition).client.exchanges ++ x :: xs ∧
        ∃ y ∈ xs, y.request = (lacking.act addition).client.streamRequest r.recordId := by
  obtain ⟨running, due, answered, found, inside, other⟩ :
      (lacking.act addition).store.running = true ∧
      (lacking.act addition).store.loadRecordings = true ∧
      (lacking.act addition).client.recordings.1.isOk = true ∧
      (Recording.withId? lacking.store.recordings "7").map (·.streamUrl) = some "" ∧
      "7" ∈ Recording.ids (lacking.act addition).nextListing.recordings ∧
      Recording.ids lacking.store.recordings ≠
        Recording.ids (lacking.act addition).nextListing.recordings := by
    decide +kernel
  have waiting : Waiting lacking (lacking.act addition) := Waiting.refl.meanwhile _ _ _ _ _
  obtain ⟨root, refreshes, listing⟩ := refreshes_of_answered running due answered
  obtain ⟨r, published, unresolved, record⟩ := exists_without_stream found
  rw [← listing, ← record] at inside
  rw [← listing] at other
  obtain ⟨x, xs, exchanges, -, -, asks⟩ := retried_if_changed waiting refreshes published inside
  exact ⟨waiting, root, refreshes, r, published, unresolved, inside, x, xs, exchanges,
    asks fun same => other same.1⟩

/-- It is not true that a recording without a stream is always tried again: with the same
records listed the next refresh asks for no stream. -/
theorem not_always_retried : ¬ ∀ e e' : Engine, e.Reached → Waiting e e' →
    ∀ root, e'.Refreshes (.work .recordings) root →
    ∀ r ∈ e.store.recordings, r.streamUrl = "" →
      r.recordId ∈ Recording.ids (e'.listing root).recordings →
      ∃ x ∈ (e'.work .recordings).client.exchanges.drop e'.client.exchanges.length,
        x.request = e'.client.streamRequest r.recordId := by
  intro always
  obtain ⟨running, due, answered, found, inside, sent⟩ :
      lacking.store.running = true ∧ lacking.store.loadRecordings = true ∧
      lacking.client.recordings.1.isOk = true ∧
      (Recording.withId? lacking.store.recordings "7").map (·.streamUrl) = some "" ∧
      "7" ∈ Recording.ids lacking.nextListing.recordings ∧
      ∀ x ∈ (lacking.work .recordings).client.exchanges.drop lacking.client.exchanges.length,
        x.request.endpoint ≠ .recordingStream := by
    decide +kernel
  have reached : lacking.Reached :=
    ((Reached.work ⟨_, .start _ _ _ _ _ _⟩ (.logIn 0 .launch)).work .recordings).work
      .requestRecordings
  obtain ⟨root, refreshes, listing⟩ := refreshes_of_answered running due answered
  obtain ⟨r, published, unresolved, record⟩ := exists_without_stream found
  rw [← listing, ← record] at inside
  obtain ⟨x, mem, asked⟩ :=
    always lacking lacking reached .refl root refreshes r published unresolved inside
  apply sent x mem
  rw [asked]
  rfl

end PvrBackend.Engine
