import PvrBackend.Proofs.Calendar.Texts
import PvrBackend.Proofs.Guide.Filling

/-!
# What is asked for a chunk

A request for the guide states its start as clocks show it, to the minute, and a
length of either an hour or a day of 24 hours less one minute. The planner counts
real time instead. The two agree up to the last minute of a chunk, except around
the end of summer time: the day on which clocks go back is an hour longer than
what is asked for, and an hour that starts when clocks show their time for the
second time is asked for as the hour before it.

`Filling.request_covers_iff` says that these are the only exceptions.
-/

namespace PvrBackend

open Calendar Prague

/-- A request asks for a number of minutes of the guide from an instant on. -/
structure Request.Asks (r : Request) (start : Int) (minutes : Nat) : Prop where
  endpoint : r.endpoint = .guide
  time : (r.params.lookup "time").bind readTime = some start
  duration : (r.params.lookup "duration").bind (Decimal.readNat? ·.toList) = some minutes

theorem Client.guide_exchanges {c : Client} (session : c.loggedIn = true) (start : Int)
    (small : Bool) (channels : String) :
    ∃ reply, (c.guide start small channels).2.exchanges = c.exchanges ++
      [⟨c.request .guide (guideParams start small channels) (some c.token), reply⟩] := by
  refine ⟨(c.server.answer .guide).1, ?_⟩
  rw [guide, callInSession, if_pos session]
  rfl

theorem Client.asks_guide (c : Client) {t : Int} {small : Bool} {channels : String}
    {token : Option String} {start : Int} (read : readTime (timeText t) = some start) :
    (c.request .guide (guideParams t small channels) token).Asks start (guideMinutes small) := by
  have other : ("duration" == "time") = false := by decide
  refine ⟨rfl, ?_, ?_⟩
  · simp [request, guideParams, read]
  · simp [request, guideParams, List.lookup_cons, other, Decimal.natText]

namespace Chunk

/-- The part of a chunk before its last minute lies in the minutes from an instant on. -/
def CoveredBy (chunk : Chunk) (start : Int) (minutes : Nat) : Prop :=
  chunk.stop - 60 ≤ start + 60 * minutes

instance (chunk : Chunk) (start : Int) (minutes : Nat) :
    Decidable (chunk.CoveredBy start minutes) :=
  inferInstanceAs (Decidable (_ ≤ _))

theorem firstShown_midnight {d : Int} (h : regularDay < d) : FirstShown (midnight d) := by
  have least := (Zone.earliest?_eq_some_iff zone_ordered).mp (earliest?_midnight h)
  intro s before shows
  have := least.2 (shows.trans (wall_midnight h))
  omega

theorem read_hour {t : Int} (h : Modern t) :
    ∃ start, readTime (timeText t) = some start ∧ start ≤ t ∧
      ((hour t).CoveredBy start 60 ↔ FirstShown t) := by
  obtain ⟨start, read, ⟨once, rfl⟩ | ⟨again, rfl⟩⟩ := readTime_timeText h.regular
  · refine ⟨_, read, by omega, iff_of_true ?_ once⟩
    simp only [CoveredBy, hour, hourSeconds]
    omega
  · refine ⟨_, read, by omega, iff_of_false ?_ again⟩
    simp only [CoveredBy, hour, hourSeconds]
    omega

theorem read_date {t : Int} (h : Modern t) :
    ∃ start, readTime (timeText (date t).start) = some start ∧ start ≤ (date t).start ∧
      ((date t).CoveredBy start 1439 ↔ (date t).stop - (date t).start ≤ daySeconds) := by
  have day := h.regularDay_lt_localDay
  have once : FirstShown (date t).start := firstShown_midnight day
  have whole : (date t).start % 60 = 0 := by
    have shape := midnight_cases (Int.le_of_lt day)
    simp only [date, ofDay]
    omega
  have regular : Regular (date t).start := by
    have time := modern_iff.mp h
    have inside := mem_date h
    have long := midnight_succ_bounds (Int.le_of_lt day)
    simp only [mem_iff, date, ofDay] at inside ⊢
    exact regular_iff.mpr (by omega)
  obtain ⟨start, read, ⟨-, rfl⟩ | ⟨again, -⟩⟩ := readTime_timeText regular
  · refine ⟨_, read, by omega, ?_⟩
    rw [CoveredBy, daySeconds]
    omega
  · exact absurd once again

end Chunk

theorem Coverage.exists_of_next? {c : Coverage} {now : Int} {w : Window} {chunk : Chunk}
    (hc : c.Modern) (hw : w.Modern) (hnow : Calendar.Modern now)
    (h : c.next? dayStart now w = some chunk) :
    ∃ t, Calendar.Modern t ∧ (chunk = .hour t ∨ chunk = .date t) := by
  obtain ⟨_, rfl⟩ | ⟨_, _, rfl⟩ | ⟨_, _, behind, rfl⟩ := next?_eq_some hc hw h
  · exact ⟨now, hnow, .inl rfl⟩
  · exact ⟨c.stop, hc.stop, .inr rfl⟩
  · exact ⟨c.start - 1, before_modern hc hw behind, .inr rfl⟩

namespace Filling

/-- In every run, whatever is planned next under whatever window: the request that is
sent for the chunk asks for a span that starts no later than the chunk. It reaches to the
last minute of the chunk exactly when the chunk is an hour whose start clocks show for the
first time, or a day of 24 hours at most. -/
theorem request_covers_iff {s : Filling} (run : s.Run) {now : Int} {w : Window}
    (time : Modern now) (window : w.Modern) {chunk : Chunk}
    (planned : s.coverage.next? dayStart now w = some chunk) {client : Client}
    (session : client.loggedIn = true) (channels : String) :
    ∃ x start minutes,
      (client.guide chunk.start chunk.small channels).2.exchanges = client.exchanges ++ [x] ∧
      x.request.Asks start minutes ∧ start ≤ chunk.start ∧
      (chunk.CoveredBy start minutes ↔
        if chunk.small then FirstShown chunk.start else chunk.stop - chunk.start ≤ daySeconds) := by
  obtain ⟨reply, sent⟩ := client.guide_exchanges session chunk.start chunk.small channels
  obtain ⟨t, modern, rfl | rfl⟩ :=
    Coverage.exists_of_next? run.sound.modern window time planned
  · obtain ⟨start, read, le, covered⟩ := Chunk.read_hour modern
    exact ⟨_, start, _, sent, client.asks_guide read, le, covered⟩
  · obtain ⟨start, read, le, covered⟩ := Chunk.read_date modern
    exact ⟨_, start, _, sent, client.asks_guide read, le, covered⟩

/-- The first hour of an engine that starts at noon is asked for. -/
theorem first_hour_asked : ∃ x start minutes,
    ((startedAt 1705316400).client.guide 1705316400 true "").2.exchanges =
      (startedAt 1705316400).client.exchanges ++ [x] ∧
    x.request.Asks start minutes ∧ start ≤ 1705316400 ∧
    ((Chunk.hour 1705316400).CoveredBy start minutes ↔ FirstShown 1705316400) :=
  request_covers_iff (Run.start (startedAt 1705316400) rfl) (show Modern 1705316400 by decide)
    (show Window.Modern ⟨1705230000, 1705402800⟩ by decide)
    (show _ = some (Chunk.hour 1705316400) by decide +kernel) (by decide) ""

/-- An engine that starts an hour before the day on which summer time ends in 2024 plans
that day next. It has 25 hours, of which 24 hours less a minute are asked for. -/
theorem long_day_not_covered : ∃ s : Filling, s.Run ∧ Modern s.engine.now ∧
    s.engine.store.window.Modern ∧
    s.engine.nextChunk? = some ⟨1729980000, 1730070000, false⟩ ∧
    ∃ x, (s.engine.client.guide 1729980000 false "").2.exchanges =
        s.engine.client.exchanges ++ [x] ∧
      x.request.Asks 1729980000 1439 ∧
      ¬(⟨1729980000, 1730070000, false⟩ : Chunk).CoveredBy 1729980000 1439 := by
  have planned := (Run.start (startedAt 1729976400) rfl).step
    (.plan (by decide +kernel) (by decide +kernel) (by decide +kernel))
  have loaded := planned.step (.load (.hour 1729976400) (by decide +kernel))
  have released := loaded.step (.release (by decide +kernel) (by decide +kernel))
  have asked (c : Client) (session : c.loggedIn = true) :
      ∃ x, (c.guide 1729980000 false "").2.exchanges = c.exchanges ++ [x] ∧
        x.request.Asks 1729980000 1439 ∧
        ¬(⟨1729980000, 1730070000, false⟩ : Chunk).CoveredBy 1729980000 1439 := by
    obtain ⟨reply, sent⟩ := c.guide_exchanges session 1729980000 false ""
    exact ⟨_, sent, c.asks_guide (by decide +kernel), by decide⟩
  exact ⟨_, released, by decide +kernel, by decide +kernel, by decide +kernel,
    asked _ (by decide +kernel)⟩

end Filling

end PvrBackend
