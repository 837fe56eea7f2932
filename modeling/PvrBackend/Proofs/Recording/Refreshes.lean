import PvrBackend.Engine.Jobs
import PvrBackend.Proofs.Recording.Streams
import PvrBackend.Proofs.Session.Calls

/-!
# Refreshes of the recordings

A refresh asks for a listing and publishes what is in it. The streams of recordings are
asked for one by one, in the order of the listing, but only if the recordings changed;
one that gets no answer keeps the stream that was published for its record. Otherwise
the published recordings stay, and likewise the timers.

As long as no record is published twice, the recordings change exactly with the
sequence of their records. So a listing of the same records costs one request and
tells the host nothing.
-/

namespace PvrBackend

/-! ### Streams that are asked for -/

namespace Client

/-- The request for the listing. -/
def listingRequest (c : Client) : Request := c.request .recordings [] (some c.token)

/-- The request for the stream of a record. -/
def streamRequest (c : Client) (recordId : String) : Request :=
  c.request .recordingStream [("recordId", recordId), ("format", "m3u8")] (some c.token)

theorem Called.loggedIn {c c' : Client} {xs : List Exchange} (called : Called c c' xs) :
    c'.loggedIn = c.loggedIn := by
  obtain ⟨_, rfl⟩ := called
  rfl

theorem Called.streamRequest {c c' : Client} {xs : List Exchange} (called : Called c c' xs)
    (recordId : String) : c'.streamRequest recordId = c.streamRequest recordId := by
  obtain ⟨_, rfl⟩ := called
  rfl

/-- Within a session the stream of a record is asked for. -/
theorem recordingStream_sends {c : Client} (session : c.loggedIn = true) (recordId : String) :
    ∃ reply c', c.recordingStream recordId = (reply.value.map
        (fun root => ⟨root.textAt "url", root.textAt "channel"⟩), c') ∧
      Called c c' [⟨c.streamRequest recordId, reply⟩] := by
  obtain ⟨reply, value, called⟩ := callInSession_sends session .recordingStream
    [("recordId", recordId), ("format", "m3u8")]
  exact ⟨reply, _, Prod.ext (congrArg (Except.map _) value) rfl, called⟩

end Client

namespace Recording

/-- A recording after its stream was asked for. -/
def answered (channels : List Channel) (r : Recording) (x : Exchange) : Recording :=
  match x.reply.value with
  | .ok root =>
    { r with
      streamUrl := root.textAt "url"
      streamType := Channel.streamTypeOf channels (root.textAt "channel") }
  | .error _ => r

@[simp] theorem answered_recordId (channels : List Channel) (r : Recording) (x : Exchange) :
    (r.answered channels x).recordId = r.recordId := by
  rw [answered]
  split <;> rfl

theorem ids_zipWith_answered (channels : List Channel) {rs : List Recording} {xs : List Exchange}
    (enough : rs.length ≤ xs.length) : ids (List.zipWith (answered channels) rs xs) = ids rs := by
  induction rs generalizing xs with
  | nil => rfl
  | cons r rs ih =>
      cases xs with
      | nil => cases enough
      | cons x xs =>
          have rest := ih (Nat.le_of_succ_le_succ enough)
          rw [ids, ids] at rest ⊢
          rw [List.zipWith_cons_cons, List.map_cons, List.map_cons, rest, answered_recordId]

end Recording

namespace Engine

/-- One request for each recording, in their order, and each takes what its reply gives. -/
theorem resolveStreams_sends {c : Client} (session : c.loggedIn = true) (channels : List Channel)
    (rs : List Recording) : ∃ xs, Client.Called c (resolveStreams channels c rs).2 xs ∧
      xs.map (·.request) = rs.map (fun r => c.streamRequest r.recordId) ∧
      (resolveStreams channels c rs).1 = List.zipWith (Recording.answered channels) rs xs := by
  induction rs generalizing c with
  | nil => exact ⟨[], .refl c, rfl, rfl⟩
  | cons r rs ih =>
      obtain ⟨reply, c', result, asked⟩ := Client.recordingStream_sends session r.recordId
      have first : resolveStreams channels c (r :: rs) =
          (r.answered channels ⟨c.streamRequest r.recordId, reply⟩ ::
            (resolveStreams channels c' rs).1, (resolveStreams channels c' rs).2) := by
        rw [resolveStreams, result, Recording.answered]
        cases reply.value <;> rfl
      obtain ⟨xs, rest, requests, resolved⟩ := ih (asked.loggedIn.trans session)
      have same : c'.streamRequest = c.streamRequest := funext asked.streamRequest
      rw [first]
      refine ⟨⟨c.streamRequest r.recordId, reply⟩ :: xs, asked.trans rest, ?_, ?_⟩
      · rw [List.map_cons, List.map_cons, requests, same]
      · rw [resolved, List.zipWith_cons_cons]

/-! ### Taking a listing in -/

/-- What an answer to the request for the listing says at this moment. -/
def listing (e : Engine) (root : Json) : Listing :=
  Listing.ofAnswer e.store.lineup.channels e.host.lockedLabel e.now root

/-- The recordings of a listing with the streams that are published. -/
def inherited (e : Engine) (l : Listing) : List Recording :=
  Recording.inheritStreams e.store.recordings l.recordings

/-- Whether the recordings of a listing count as changed. -/
def recordingsChange (e : Engine) (l : Listing) : Bool :=
  Recording.differ e.store.recordings (e.inherited l)

/-- Whether the timers of a listing count as changed. -/
def timersChange (e : Engine) (l : Listing) : Bool := Timer.differ e.store.timers l.timers

theorem publishListing_eq (e : Engine) (l : Listing) : e.publishListing l =
    let resolved := if e.recordingsChange l
      then resolveStreams e.store.lineup.channels e.client (e.inherited l)
      else (e.inherited l, e.client)
    { e with
      client := resolved.2
      store := e.store.publishRecordings
        (if e.recordingsChange l then some resolved.1 else none)
        (if e.timersChange l then some l.timers else none) l.driveSpace
      callbacks := e.callbacks ++
        (if e.recordingsChange l then [.recordingsChanged] else []) ++
        (if e.timersChange l then [.timersChanged] else []) } := by
  rw [publishListing, ← inherited, ← recordingsChange, ← timersChange]
  cases e.recordingsChange l <;> cases e.timersChange l <;>
    simp [tell, Store.publishRecordings]

/-- What is published once a listing was taken in, after these requests for streams. -/
structure Takes (e : Engine) (l : Listing) (xs : List Exchange) (e' : Engine) : Prop where
  requests : xs.map (·.request) = if e.recordingsChange l
    then l.recordings.map (fun r => e.client.streamRequest r.recordId) else []
  recordings : e'.store.recordings = if e.recordingsChange l
    then List.zipWith (Recording.answered e.store.lineup.channels) (e.inherited l) xs
    else e.store.recordings
  timers : e'.store.timers = if e.timersChange l then l.timers else e.store.timers
  driveSpace : e'.store.driveSpace = l.driveSpace
  callbacks : e'.callbacks = e.callbacks ++
    (if e.recordingsChange l then [.recordingsChanged] else []) ++
    (if e.timersChange l then [.timersChanged] else [])

theorem publishListing_takes {e : Engine} (session : e.client.loggedIn = true) (l : Listing) :
    ∃ xs, Client.Called e.client (e.publishListing l).client xs ∧
      Takes e l xs (e.publishListing l) := by
  have timers : (if e.timersChange l then some l.timers else none).getD e.store.timers =
      if e.timersChange l then l.timers else e.store.timers := by
    split <;> rfl
  rw [publishListing_eq]
  cases changed : e.recordingsChange l with
  | false =>
      refine ⟨[], .refl e.client, ?_⟩
      constructor
      case timers => exact timers
      all_goals simp [changed, Store.publishRecordings]
  | true =>
      obtain ⟨xs, called, requests, resolved⟩ :=
        resolveStreams_sends session e.store.lineup.channels (e.inherited l)
      have listed : (e.inherited l).map (fun r => e.client.streamRequest r.recordId) =
          l.recordings.map (fun r => e.client.streamRequest r.recordId) := by
        have ids := Recording.ids_inheritStreams e.store.recordings l.recordings
        have := congrArg (List.map e.client.streamRequest) ids
        rwa [Recording.ids, Recording.ids, List.map_map, List.map_map] at this
      refine ⟨xs, called, ?_⟩
      constructor
      case requests => simpa [changed, listed] using requests
      case recordings => simpa [changed, Store.publishRecordings] using resolved
      case timers => exact timers
      all_goals simp [changed, Store.publishRecordings]

theorem loadRecordings_of_error {e : Engine} {err : ApiError}
    (refused : e.client.recordings.1 = .error err) :
    e.loadRecordings = { e with client := e.client.recordings.2 } := by
  rw [loadRecordings]
  split
  next err' client result => rw [result]
  next root client result =>
    rw [result] at refused
    cases refused

/-- With a listing, its request goes first and then it is taken in. -/
theorem loadRecordings_takes {e : Engine} {root : Json} (ok : e.client.recordings.1 = .ok root) :
    ∃ x xs, Client.Called e.client e.loadRecordings.client (x :: xs) ∧
      x.request = e.client.listingRequest ∧ Takes e (e.listing root) xs e.loadRecordings := by
  have session : e.client.loggedIn = true := Client.loggedIn_of_callInSession_eq_ok ok
  obtain ⟨reply, -, asked⟩ := Client.callInSession_sends session .recordings []
  have loaded : e.loadRecordings =
      { e with client := e.client.recordings.2 }.publishListing (e.listing root) := by
    rw [loadRecordings]
    split
    next err client result => rw [result] at ok; cases ok
    next root' client result =>
      rw [result] at ok
      obtain rfl : root' = root := Except.ok.inj ok
      rw [result]
      rfl
  obtain ⟨xs, called, takes⟩ := publishListing_takes
    (e := { e with client := e.client.recordings.2 }) (asked.loggedIn.trans session)
    (e.listing root)
  rw [← loaded] at called takes
  have same : e.client.recordings.2.streamRequest = e.client.streamRequest :=
    funext asked.streamRequest
  refine ⟨_, xs, asked.trans called, rfl, ?_⟩
  exact ⟨same ▸ takes.requests, takes.recordings, takes.timers, takes.driveSpace, takes.callbacks⟩

/-! ### Records that are published once -/

theorem recordingsChange_eq_false_iff {e : Engine} {l : Listing} :
    e.recordingsChange l = false ↔
      Recording.ids e.store.recordings = Recording.ids l.recordings ∧
        Recording.Uniform e.store.recordings :=
  Recording.differ_inheritStreams_eq_false_iff

theorem timersChange_eq_false_iff {e : Engine} {l : Listing} :
    e.timersChange l = false ↔ Timer.numbers e.store.timers = Timer.numbers l.timers :=
  Timer.differ_eq_false_iff

/-- How a refresh follows a listing, with the requests for streams that it sends. -/
structure Refreshed (e : Engine) (l : Listing) (xs : List Exchange) (e' : Engine) : Prop where
  /-- The published records and timers are those of the listing, in its order. -/
  records : Recording.ids e'.store.recordings = Recording.ids l.recordings
  numbers : Timer.numbers e'.store.timers = Timer.numbers l.timers
  driveSpace : e'.store.driveSpace = l.driveSpace
  /-- If the records changed, the stream of each is asked for, and else of none. -/
  requests : xs.map (·.request) =
    if Recording.ids e.store.recordings = Recording.ids l.recordings then []
    else l.recordings.map (fun r => e.client.streamRequest r.recordId)
  /-- A recording has the stream that the reply to its request gives, or the one that was
  published for its record. -/
  streams : ∀ (i : Nat) (r : Recording) (x : Exchange),
    e'.store.recordings[i]? = some r → xs[i]? = some x →
    match x.reply.value with
    | .ok root => r.streamUrl = root.textAt "url" ∧
        r.streamType = Channel.streamTypeOf e.store.lineup.channels (root.textAt "channel")
    | .error _ => ∀ old ∈ e.store.recordings, old.recordId = r.recordId →
        r.streamUrl = old.streamUrl ∧ r.streamType = old.streamType
  recordings_kept_iff : e'.store.recordings = e.store.recordings ↔
    Recording.ids e.store.recordings = Recording.ids l.recordings
  timers : e'.store.timers =
    if Timer.numbers e.store.timers = Timer.numbers l.timers then e.store.timers else l.timers
  callbacks : e'.callbacks = e.callbacks ++
    (if Recording.ids e.store.recordings = Recording.ids l.recordings then []
      else [.recordingsChanged]) ++
    (if Timer.numbers e.store.timers = Timer.numbers l.timers then [] else [.timersChanged])

/-- A stream that is taken over is that of the one recording of the record. -/
theorem stream_of_mem_inherited {e : Engine} {l : Listing}
    (distinct : (Recording.ids e.store.recordings).Nodup) {r old : Recording}
    (mem : r ∈ e.inherited l) (published : old ∈ e.store.recordings)
    (same : old.recordId = r.recordId) :
    r.streamUrl = old.streamUrl ∧ r.streamType = old.streamType := by
  obtain ⟨listed, -, rfl⟩ := List.mem_map.mp mem
  have same' : old.recordId = listed.recordId :=
    same.trans (Recording.inherit_recordId e.store.recordings listed)
  have found : Recording.withId? e.store.recordings listed.recordId = some old :=
    same' ▸ Recording.withId?_of_mem distinct published
  change (Recording.inherit e.store.recordings listed).streamUrl = _ ∧
    (Recording.inherit e.store.recordings listed).streamType = _
  rw [Recording.inherit_of_withId? found]
  exact ⟨rfl, rfl⟩

theorem Takes.refreshed {e e' : Engine} {l : Listing} {xs : List Exchange}
    (takes : Takes e l xs e') (distinct : (Recording.ids e.store.recordings).Nodup) :
    Refreshed e l xs e' := by
  have change : (e.recordingsChange l = true) =
      ¬ Recording.ids e.store.recordings = Recording.ids l.recordings :=
    propext (Recording.differ_inheritStreams_of_nodup distinct)
  have change' : (e.timersChange l = true) =
      ¬ Timer.numbers e.store.timers = Timer.numbers l.timers := by
    rw [← timersChange_eq_false_iff, Bool.not_eq_false]
  obtain ⟨requests, recordings, timers, driveSpace, callbacks⟩ := takes
  simp only [change, change', ite_not] at requests recordings timers callbacks
  have records : Recording.ids e'.store.recordings = Recording.ids l.recordings := by
    split at requests
    next same => rw [recordings, if_pos same, same]
    next changed =>
      have count : xs.length = (e.inherited l).length := by
        have := congrArg List.length requests
        simpa [inherited, Recording.inheritStreams_eq_map] using this
      rw [recordings, if_neg changed,
        Recording.ids_zipWith_answered _ (Nat.le_of_eq count.symm), inherited,
        Recording.ids_inheritStreams]
  constructor
  case records => exact records
  case numbers =>
    split at timers
    next same => rw [timers, same]
    next => rw [timers]
  case driveSpace => exact driveSpace
  case requests => exact requests
  case streams =>
    intro i r x published sent
    split at requests
    next same =>
      obtain rfl : xs = [] := List.map_eq_nil_iff.mp requests
      cases sent
    next changed =>
      rw [recordings, if_neg changed, List.getElem?_zipWith_eq_some] at published
      obtain ⟨r', x', there, asked, rfl⟩ := published
      obtain rfl : x' = x := Option.some.inj (asked.symm.trans sent)
      rw [Recording.answered]
      cases x'.reply.value with
      | ok root => exact ⟨rfl, rfl⟩
      | error err =>
          intro old published same
          exact stream_of_mem_inherited distinct (List.mem_of_getElem? there) published same
  case recordings_kept_iff =>
    constructor
    · intro kept
      rw [← kept, records]
    · intro same
      rw [recordings, if_pos same]
  case timers => exact timers
  case callbacks => exact callbacks

/-- A refresh that changed nothing: it asked for the listing and no more. -/
structure Unchanged (e e' : Engine) : Prop where
  request : ∃ x, e'.client.exchanges = e.client.exchanges ++ [x] ∧
    x.request = e.client.listingRequest
  callbacks : e'.callbacks = e.callbacks
  recordings : e'.store.recordings = e.store.recordings
  timers : e'.store.timers = e.store.timers

theorem loadRecordings_refreshed {e : Engine}
    (distinct : (Recording.ids e.store.recordings).Nodup) {root : Json}
    (ok : e.client.recordings.1 = .ok root) :
    ∃ x xs, e.loadRecordings.client.exchanges = e.client.exchanges ++ x :: xs ∧
      x.request = e.client.listingRequest ∧ Refreshed e (e.listing root) xs e.loadRecordings := by
  obtain ⟨x, xs, called, request, takes⟩ := loadRecordings_takes ok
  exact ⟨x, xs, called.exchanges, request, takes.refreshed distinct⟩

theorem loadRecordings_unchanged {e : Engine}
    (distinct : (Recording.ids e.store.recordings).Nodup) {root : Json}
    (ok : e.client.recordings.1 = .ok root)
    (records : Recording.ids (e.listing root).recordings = Recording.ids e.store.recordings)
    (numbers : Timer.numbers (e.listing root).timers = Timer.numbers e.store.timers) :
    Unchanged e e.loadRecordings := by
  obtain ⟨x, xs, exchanges, request, refreshed⟩ := loadRecordings_refreshed distinct ok
  have unasked : xs = [] := by
    have requests := refreshed.requests
    rwa [if_pos records.symm, List.map_eq_nil_iff] at requests
  refine ⟨⟨x, unasked ▸ exchanges, request⟩, ?_, ?_, ?_⟩
  · rw [refreshed.callbacks, if_pos records.symm, if_pos numbers.symm, List.append_nil,
      List.append_nil]
  · exact refreshed.recordings_kept_iff.mpr records.symm
  · rw [refreshed.timers, if_pos numbers.symm]

/-- A refresh without a listing changes nothing that is published, and one with a listing
follows it. So a later refresh with a listing of the same records and timers sends
nothing but its request, tells the host nothing and leaves what is published. -/
theorem refresh_follows_listing {e : Engine}
    (distinct : (Recording.ids e.store.recordings).Nodup) :
    (∀ err, e.client.recordings.1 = .error err →
      e.loadRecordings.store = e.store ∧ e.loadRecordings.callbacks = e.callbacks) ∧
    ∀ root, e.client.recordings.1 = .ok root →
      (∃ x xs, e.loadRecordings.client.exchanges = e.client.exchanges ++ x :: xs ∧
        x.request = e.client.listingRequest ∧
        Refreshed e (e.listing root) xs e.loadRecordings) ∧
      ∀ later : Engine, later.store.recordings = e.loadRecordings.store.recordings →
        later.store.timers = e.loadRecordings.store.timers →
        ∀ root', later.client.recordings.1 = .ok root' →
        (Recording.ids (e.listing root).recordings).Nodup →
        Recording.ids (later.listing root').recordings =
          Recording.ids (e.listing root).recordings →
        Timer.numbers (later.listing root').timers = Timer.numbers (e.listing root).timers →
        Unchanged later later.loadRecordings := by
  refine ⟨fun err refused => ?_, fun root ok => ?_⟩
  · rw [loadRecordings_of_error refused]
    exact ⟨rfl, rfl⟩
  · obtain ⟨x, xs, exchanges, request, refreshed⟩ := loadRecordings_refreshed distinct ok
    refine ⟨⟨x, xs, exchanges, request, refreshed⟩, ?_⟩
    intro later recordings timers root' ok' distinct' records numbers
    have records' : Recording.ids later.store.recordings =
        Recording.ids (e.listing root).recordings := by rw [recordings, refreshed.records]
    have numbers' : Timer.numbers later.store.timers = Timer.numbers (e.listing root).timers := by
      rw [timers, refreshed.numbers]
    exact loadRecordings_unchanged (records' ▸ distinct') ok' (records.trans records'.symm)
      (numbers.trans numbers'.symm)

/-- An engine that publishes one recording and whose service lists it along with another
one. The stream of the first is not answered, that of the other is. -/
def stocked : Engine where
  settings := {}
  client := {
    account := default
    token := "token"
    server := ⟨(Table.empty.insert "get-pvr"
        [.body ("\x7b\"status\":1,\"records\":[" ++
          "\x7b\"id\":7,\"startTime\":\"2024-01-14 20:00\",\"duration\":3600\x7d," ++
          "\x7b\"id\":8,\"startTime\":\"2024-01-14 21:00\",\"duration\":3600\x7d]\x7d")]).insert
      "record-timeshift" [.unreachable "timeout",
        .body "\x7b\"status\":1,\"url\":\"http://rec/8\",\"channel\":\"ct1\"\x7d"]⟩ }
  host := {}
  store := { Store.start 1 1 1705316400 with
    recordings := [{ recordId := "7", streamUrl := "http://rec/7", streamType := "hls" }] }
  worker := { limiters := default }
  clock := 1705316400000

/-- The listing that the next refresh gets, if it gets one. -/
def nextListing (e : Engine) : Listing := e.listing (e.client.recordings.1.toOption.getD .null)

theorem exists_nextListing {e : Engine} (answered : e.client.recordings.1.isOk = true) :
    ∃ root, e.client.recordings.1 = .ok root ∧ e.listing root = e.nextListing := by
  rw [nextListing]
  cases answer : e.client.recordings.1 with
  | error err => rw [answer] at answered; cases answered
  | ok root => exact ⟨root, rfl, rfl⟩

/-- The listing adds a record, so both streams are asked for; the one that is not answered
stays, and the next refresh changes nothing. -/
theorem refresh_follows_addition : (Recording.ids stocked.store.recordings).Nodup ∧
    stocked.loadRecordings.store.recordings.map Recording.key =
      [("7", "http://rec/7"), ("8", "http://rec/8")] ∧
    ∃ root, stocked.client.recordings.1 = .ok root ∧
      (∃ x xs, stocked.loadRecordings.client.exchanges = stocked.client.exchanges ++ x :: xs ∧
        x.request = stocked.client.listingRequest ∧
        Refreshed stocked (stocked.listing root) xs stocked.loadRecordings) ∧
      Unchanged stocked.loadRecordings stocked.loadRecordings.loadRecordings := by
  have distinct : (Recording.ids stocked.store.recordings).Nodup := by decide
  obtain ⟨answered, answered', keys, distinct', records, numbers⟩ :
      stocked.client.recordings.1.isOk = true ∧
      stocked.loadRecordings.client.recordings.1.isOk = true ∧
      stocked.loadRecordings.store.recordings.map Recording.key =
        [("7", "http://rec/7"), ("8", "http://rec/8")] ∧
      (Recording.ids stocked.nextListing.recordings).Nodup ∧
      Recording.ids stocked.loadRecordings.nextListing.recordings =
        Recording.ids stocked.nextListing.recordings ∧
      Timer.numbers stocked.loadRecordings.nextListing.timers =
        Timer.numbers stocked.nextListing.timers := by
    decide +kernel
  obtain ⟨root, ok, listing⟩ := exists_nextListing answered
  obtain ⟨root', ok', listing'⟩ := exists_nextListing answered'
  rw [← listing] at distinct' records numbers
  rw [← listing'] at records numbers
  obtain ⟨refreshed, unchanged⟩ := (refresh_follows_listing distinct).2 root ok
  refine ⟨distinct, keys, root, ok, refreshed, ?_⟩
  exact unchanged stocked.loadRecordings rfl rfl root' ok' distinct' records numbers

end Engine

end PvrBackend
