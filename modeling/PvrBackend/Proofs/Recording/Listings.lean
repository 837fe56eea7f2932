import PvrBackend.Engine.Requests
import PvrBackend.Proofs.Recording.Streams
import PvrBackend.Proofs.Session.Calls
import PvrBackend.Recording.Answer

/-!
# What becomes of the records of a listing

A record counts if its start can be read. It is a recording from the moment after its broadcast
ended, a timer before that if its number fits 32 bits, and nothing else otherwise. The end is the
start and the length together, unless 64 bits are too few for the sum and it wraps around. Every
place keeps the order of the listing, so as time goes by records leave the timers and enter the
recordings without ever changing places among themselves.

A timer carries the number of its record, and the host deletes it by that number. The request then
names the record as the listing does.
-/

namespace PvrBackend

namespace Listing

/-- A record and the moment it starts at. -/
structure Dated where
  record : Json
  start : Int

/-- Where a record appears. -/
inductive Place where
  | recordings
  | timers
  | dropped
deriving DecidableEq, Repr

namespace Dated

/-- A record with its start, if that can be read. -/
def ofRecord? (record : Json) : Option Dated :=
  (Calendar.readTime (record.textAt "startTime")).map (Dated.mk record)

/-- Number of the record. -/
def id (d : Dated) : Int := d.record.intAt "id"

/-- Length of the broadcast. -/
def length (d : Dated) : Int := d.record.intAt "duration"

/-- End of the broadcast, in 64 bits. -/
def stop (d : Dated) : Int := endOf d.record d.start

/-- Where the record appears at a moment. -/
def place (now : Int) (d : Dated) : Place :=
  if d.stop < now then .recordings
  else if 0 ≤ d.id ∧ d.id < 0x100000000 then .timers
  else .dropped

/-- The record as a recording. -/
def recording (channels : List Channel) (lockedLabel : String) (now : Int) (d : Dated) :
    Recording :=
  recordingOf d.record channels lockedLabel now d.start

/-- The record as a timer. -/
def timer (channels : List Channel) (lockedLabel : String) (now : Int) (d : Dated) : Timer :=
  timerOf d.record channels lockedLabel now d.start d.id.toNat

/-- What the record stands for at a moment. -/
def item? (channels : List Channel) (lockedLabel : String) (now : Int) (d : Dated) : Option Item :=
  match d.place now with
  | .recordings => some (.recording (d.recording channels lockedLabel now))
  | .timers => some (.timer (d.timer channels lockedLabel now))
  | .dropped => none

theorem stop_eq {d : Dated} (fits : Decimal.fitsInt64 (d.start + d.length) = true) :
    d.stop = d.start + d.length :=
  Calendar.wrap_eq fits

theorem place_eq_recordings_iff {d : Dated} {now : Int} :
    d.place now = .recordings ↔ d.stop < now := by
  rw [place]
  split_ifs with ended numbered
  · exact iff_of_true rfl ended
  · exact iff_of_false nofun ended
  · exact iff_of_false nofun ended

theorem place_eq_timers_iff {d : Dated} {now : Int} :
    d.place now = .timers ↔ now ≤ d.stop ∧ 0 ≤ d.id ∧ d.id < 0x100000000 := by
  rw [place]
  split_ifs with ended numbered
  · exact iff_of_false nofun (by omega)
  · exact iff_of_true rfl (by omega)
  · exact iff_of_false nofun (by omega)

end Dated

/-- The records of an answer that start at a known moment, in the order of the listing. -/
def dated (root : Json) : List Dated := (root.itemsAt "records").filterMap Dated.ofRecord?

variable (channels : List Channel) (lockedLabel : String)

theorem itemOf_eq (now : Int) (record : Json) :
    itemOf channels lockedLabel now record =
      (Dated.ofRecord? record).bind (Dated.item? channels lockedLabel now) := by
  rw [itemOf, Dated.ofRecord?]
  cases Calendar.readTime (record.textAt "startTime") with
  | none => rfl
  | some start =>
      let d : Dated := ⟨record, start⟩
      show (if d.stop < now then some (.recording (d.recording channels lockedLabel now))
        else if 0 ≤ d.id ∧ d.id < 0x100000000 then some (.timer (d.timer channels lockedLabel now))
        else none) = d.item? channels lockedLabel now
      rw [Dated.item?, Dated.place]
      split_ifs <;> rfl

theorem Dated.recording?_item? (now : Int) (d : Dated) :
    (d.item? channels lockedLabel now).bind Item.recording? =
      (Option.guard (fun d => d.place now = .recordings) d).map
        (Dated.recording channels lockedLabel now) := by
  cases place : d.place now <;> simp [item?, place, Option.guard, Item.recording?]

theorem Dated.timer?_item? (now : Int) (d : Dated) :
    (d.item? channels lockedLabel now).bind Item.timer? =
      (Option.guard (fun d => d.place now = .timers) d).map
        (Dated.timer channels lockedLabel now) := by
  cases place : d.place now <;> simp [item?, place, Option.guard, Item.timer?]

theorem items_eq (now : Int) (root : Json) :
    (root.itemsAt "records").filterMap (itemOf channels lockedLabel now) =
      (dated root).filterMap (Dated.item? channels lockedLabel now) := by
  rw [dated, List.filterMap_filterMap]
  exact congrArg (List.filterMap · _) (funext (itemOf_eq channels lockedLabel now))

theorem recordings_ofAnswer (now : Int) (root : Json) :
    (ofAnswer channels lockedLabel now root).recordings =
      ((dated root).filter (·.place now = .recordings)).map
        (Dated.recording channels lockedLabel now) := by
  show ((root.itemsAt "records").filterMap _).filterMap Item.recording? = _
  rw [items_eq, List.filterMap_filterMap, ← List.filterMap_eq_filter, List.map_filterMap]
  exact congrArg (List.filterMap · _) (funext (Dated.recording?_item? channels lockedLabel now))

theorem timers_ofAnswer (now : Int) (root : Json) :
    (ofAnswer channels lockedLabel now root).timers =
      ((dated root).filter (·.place now = .timers)).map
        (Dated.timer channels lockedLabel now) := by
  show ((root.itemsAt "records").filterMap _).filterMap Item.timer? = _
  rw [items_eq, List.filterMap_filterMap, ← List.filterMap_eq_filter, List.map_filterMap]
  exact congrArg (List.filterMap · _) (funext (Dated.timer?_item? channels lockedLabel now))

/-! ### As time goes by -/

variable {channels lockedLabel} {now now' : Int}

theorem Dated.place_recordings_later (later : now ≤ now') {d : Dated}
    (ended : d.place now = .recordings) : d.place now' = .recordings :=
  place_eq_recordings_iff.mpr (Int.lt_of_lt_of_le (place_eq_recordings_iff.mp ended) later)

theorem Dated.place_timers_earlier (later : now ≤ now') {d : Dated}
    (waiting : d.place now' = .timers) : d.place now = .timers := by
  obtain ⟨running, numbered⟩ := place_eq_timers_iff.mp waiting
  exact place_eq_timers_iff.mpr ⟨Int.le_trans later running, numbered⟩

theorem ids_ofAnswer (root : Json) :
    Recording.ids (ofAnswer channels lockedLabel now root).recordings =
      ((dated root).filter (·.place now = .recordings)).map (Decimal.intText ·.id) := by
  rw [recordings_ofAnswer, Recording.ids, List.map_map]
  rfl

theorem numbers_ofAnswer (root : Json) :
    Timer.numbers (ofAnswer channels lockedLabel now root).timers =
      ((dated root).filter (·.place now = .timers)).map (·.id.toNat) := by
  rw [timers_ofAnswer, Timer.numbers, List.map_map]
  rfl

theorem ids_sublist_later (later : now ≤ now') (root : Json) :
    (Recording.ids (ofAnswer channels lockedLabel now root).recordings).Sublist
      (Recording.ids (ofAnswer channels lockedLabel now' root).recordings) := by
  rw [ids_ofAnswer, ids_ofAnswer]
  refine (List.monotone_filter_right _ fun d ended => ?_).map _
  exact decide_eq_true (Dated.place_recordings_later later (of_decide_eq_true ended))

theorem numbers_sublist_earlier (later : now ≤ now') (root : Json) :
    (Timer.numbers (ofAnswer channels lockedLabel now' root).timers).Sublist
      (Timer.numbers (ofAnswer channels lockedLabel now root).timers) := by
  rw [numbers_ofAnswer, numbers_ofAnswer]
  refine (List.monotone_filter_right _ fun d waiting => ?_).map _
  exact decide_eq_true (Dated.place_timers_earlier later (of_decide_eq_true waiting))

end Listing

/-! ### Deleting a timer -/

namespace Engine

/-- A deletion names the record in its only request; without a session there is none. -/
structure Deletes (recordId : String) (e e' : Engine) : Prop where
  session : e.client.loggedIn = true → ∃ reply, e'.client.exchanges = e.client.exchanges ++
    [⟨e.client.request .deleteRecord [("recordId", recordId)] (some e.client.token), reply⟩]
  silence : e.client.loggedIn = false → e'.client.exchanges = e.client.exchanges

theorem deleteRecording_client (e : Engine) (recordId : String) :
    (e.deleteRecording recordId).2.client =
      (e.client.callInSession .deleteRecord [("recordId", recordId)]).2 := by
  rw [deleteRecording]
  split
  next cause client result => exact (congrArg Prod.snd result).symm
  next client result => exact (congrArg Prod.snd result).symm

theorem deletes_deleteRecording (e : Engine) (recordId : String) :
    Deletes recordId e (e.deleteRecording recordId).2 where
  session loggedIn := by
    obtain ⟨reply, -, called⟩ :=
      Client.callInSession_sends loggedIn .deleteRecord [("recordId", recordId)]
    rw [deleteRecording_client]
    exact ⟨reply, called.exchanges⟩
  silence loggedOut := by
    have unsent : e.client.callInSession .deleteRecord [("recordId", recordId)] =
      (.error .notLoggedIn, e.client) := if_neg (Bool.eq_false_iff.mp loggedOut)
    rw [deleteRecording_client, unsent]

end Engine

namespace Listing

/-- What a listing shows of its records at a moment. -/
structure Sorts (channels : List Channel) (lockedLabel : String) (now : Int)
    (records : List Dated) (listing : Listing) : Prop where
  /-- A broadcast ends as long after its start as the record says, if 64 bits can hold that. -/
  stops : ∀ d ∈ records, Decimal.fitsInt64 (d.start + d.length) = true →
    d.stop = d.start + d.length
  recordings : listing.recordings =
    (records.filter (·.place now = .recordings)).map (Dated.recording channels lockedLabel now)
  timers : listing.timers =
    (records.filter (·.place now = .timers)).map (Dated.timer channels lockedLabel now)
  /-- A timer is marked while its record is on the air. -/
  running : ∀ d ∈ records, d.place now = .timers →
    ((d.timer channels lockedLabel now).state = .recording ↔ d.start ≤ now ∧ now < d.stop)
  /-- Deleting a timer asks for the record that it stands for. -/
  deletes : ∀ d ∈ records, d.place now = .timers → ∀ e : Engine,
    e.Deletes (Decimal.intText d.id)
      (e.deleteTimer (d.timer channels lockedLabel now).clientIndex).2

theorem Dated.running_iff (d : Dated) :
    (d.timer channels lockedLabel now).state = .recording ↔ d.start ≤ now ∧ now < d.stop := by
  show (if d.start ≤ now ∧ now < d.stop then _ else _) = _ ↔ _
  split_ifs with running <;> simp [running]

theorem Dated.deletes_timer {d : Dated} (waiting : d.place now = .timers) (e : Engine) :
    e.Deletes (Decimal.intText d.id)
      (e.deleteTimer (d.timer channels lockedLabel now).clientIndex).2 := by
  obtain ⟨-, positive, -⟩ := place_eq_timers_iff.mp waiting
  have text : Decimal.intText d.id = Decimal.natText d.id.toNat := by
    obtain ⟨n, number⟩ := Int.eq_ofNat_of_zero_le positive
    rw [number]
    rfl
  rw [text]
  exact e.deletes_deleteRecording _

/-- A listing sorts its records by their end and their number, in their order and without a record
of its own. Its timers are marked and deleted as their records ask for. Later on no recording is
missing and no timer is added. -/
theorem listing_sorts_records (channels : List Channel) (lockedLabel : String) (root : Json)
    {now now' : Int} (later : now ≤ now') :
    Sorts channels lockedLabel now (dated root) (ofAnswer channels lockedLabel now root) ∧
    (Recording.ids (ofAnswer channels lockedLabel now root).recordings).Sublist
      (Recording.ids (ofAnswer channels lockedLabel now' root).recordings) ∧
    (Timer.numbers (ofAnswer channels lockedLabel now' root).timers).Sublist
      (Timer.numbers (ofAnswer channels lockedLabel now root).timers) := by
  refine ⟨⟨?_, ?_, ?_, ?_, ?_⟩, ids_sublist_later later root, numbers_sublist_earlier later root⟩
  · exact fun _ _ => Dated.stop_eq
  · exact recordings_ofAnswer channels lockedLabel now root
  · exact timers_ofAnswer channels lockedLabel now root
  · intro d _ _
    exact d.running_iff
  · intro d _ waiting
    exact d.deletes_timer waiting

/-- A record of an hour. -/
def hourFrom (time : String) (id : Json) : Json :=
  .object [("duration", .int 3600), ("id", id), ("startTime", .string time)]

/-- Two records one after the other, one whose number is a text, one without a usable number, and
one without a start. -/
def eveningAnswer : Json :=
  .object [("records", .array [hourFrom "2024-06-20 20:00" (.int 8),
    hourFrom "2024-06-20 21:00" (.string " 9 "), hourFrom "2024-06-20 21:00" (.int (-1)),
    hourFrom "tonight" (.int 7)])]

/-- While the second record is on the air the first is over already; an hour later both are. -/
theorem listing_sorts_evening :
    Recording.ids (ofAnswer [] "" 1718910600 eveningAnswer).recordings = ["8"] ∧
    Timer.numbers (ofAnswer [] "" 1718910600 eveningAnswer).timers = [9] ∧
    (1718910600 : Int) ≤ 1718914200 ∧
    Sorts [] "" 1718910600 (dated eveningAnswer) (ofAnswer [] "" 1718910600 eveningAnswer) ∧
    (Recording.ids (ofAnswer [] "" 1718910600 eveningAnswer).recordings).Sublist
      (Recording.ids (ofAnswer [] "" 1718914200 eveningAnswer).recordings) ∧
    (Timer.numbers (ofAnswer [] "" 1718914200 eveningAnswer).timers).Sublist
      (Timer.numbers (ofAnswer [] "" 1718910600 eveningAnswer).timers) :=
  ⟨by decide +kernel, by decide +kernel, by decide,
    listing_sorts_records [] "" eveningAnswer (by decide)⟩

end Listing

end PvrBackend
