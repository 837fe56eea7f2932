import Mathlib.Data.List.Induction
import PvrBackend.Proofs.Engine.Frames
import PvrBackend.Proofs.Engine.Refusals
import PvrBackend.Proofs.Engine.Senders
import PvrBackend.Proofs.Guide.Entries

/-!
# Links to records

A broadcast is linked to the record that was made of it. Links come into the guide in two ways:
they are read with a broadcast, where an event without a record has no link, and they are noted
when the host has an event recorded, under the name that the service then gives. The service may
give none, and that is noted too. So the links of a guide are names as long as the service names
each record, and no longer.
-/

namespace PvrBackend

/-- The service took an event for recording and did not name the record. -/
def Exchange.Unnamed (x : Exchange) : Prop :=
  x.request.endpoint = .recordEvent ∧
    ∃ root, x.reply.value = .ok root ∧ root.textAt "recordId" = ""

namespace Guide

/-- No broadcast is linked to a record without a name. -/
def Linked (g : Guide) : Prop :=
  ∀ id start e, g.entry? id start = some e → e.recordId ≠ some ""

theorem recordId_of_entryOf {c : Channel} {event : Json} {e : GuideEntry}
    (read : entryOf c event = some e) : e.recordId ≠ some "" := by
  obtain ⟨start, -, built⟩ := Option.bind_eq_some_iff.mp read
  rw [← Option.some.inj built]
  dsimp only
  split
  next => nofun
  next named => exact fun none => named (Option.some.inj none)

theorem Linked.mergeAll {g : Guide} (linked : g.Linked) (channels : List Channel) (root : Json) :
    (g.mergeAll (ofAnswer channels root)).2.Linked := by
  apply Every.mergeAll linked
  intro part listed e mem
  obtain ⟨c, event, read⟩ := exists_entryOf listed mem
  exact recordId_of_entryOf read

/-- A record that is noted with a broadcast leaves the links to be names if it has one. -/
theorem linked_setRecord_iff {g : Guide} (linked : g.Linked) {id : String} {start : Int}
    {entry : GuideEntry} (listed : g.entry? id start = some entry) (recordId : String) :
    (g.setRecord id start recordId).Linked ↔ recordId ≠ "" := by
  constructor
  · intro linked' none
    have noted : entry? (g.setRecord id start recordId) id start =
        some { entry with recordId := some recordId } := by
      rw [(g.differsAt_setRecord id start recordId).noted, listed, Option.map_some]
    exact linked' id start _ noted (congrArg some none)
  · intro named
    apply Every.setRecord linked
    intro e _ none
    exact named (Option.some.inj none)

end Guide

namespace Engine

/-! ### Steps -/

theorem recordingsJob_guide (e : Engine) :
    e.recordingsJob.2.store.guide = e.store.guide := by
  rw [recordingsJob]
  split
  · dsimp only
    split
    · exact loadRecordings_guide _
    · rfl
  · rfl

/-- No job of the worker makes a link without a name. -/
theorem linked_work {e : Engine} (linked : e.store.guide.Linked) (job : Job) :
    (e.work job).store.guide.Linked := by
  cases job with
  | logIn delay next => exact (e.loginStep_settled delay next).guide ▸ linked
  | keepAlive => exact e.keepAliveJob_settled.guide ▸ linked
  | loadLineup => exact e.loadLineup_settled.guide ▸ linked
  | fullRefresh => exact e.fullRefresh_settled.guide ▸ linked
  | requestRecordings => exact linked
  | recordings => exact e.recordingsJob_guide ▸ linked
  | loadChunk chunk =>
      rw [work, loadChunk]
      split
      · exact linked
      · split
        · exact linked
        · exact linked.mergeAll _ _
  | releaseGuide => exact Guide.Every.release linked e.store.window

/-- Between two states of an engine requests were sent, and all links are names exactly if none
of the replies left a record without a name. -/
def Links (e e' : Engine) : Prop :=
  ∃ xs, e'.client.exchanges = e.client.exchanges ++ xs ∧
    (e'.store.guide.Linked ↔ ∀ x ∈ xs, ¬ x.Unnamed)

theorem links_of_sends {e e' : Engine} {asks : List Endpoint}
    (sends : Client.Sends (· ∈ asks) e.client e'.client) (other : .recordEvent ∉ asks)
    (linked : e'.store.guide.Linked) : Links e e' := by
  obtain ⟨xs, grown, asked⟩ := sends
  refine ⟨xs, grown, fun _ x mem unnamed => ?_, fun _ => linked⟩
  exact other (unnamed.1 ▸ asked x mem)

/-- When the host has an event recorded, the answer decides. -/
theorem addTimer_links {e : Engine} (linked : e.store.guide.Linked) (uid : Nat) (start : Int) :
    Links e (e.addTimer uid start).2 := by
  have unsent : Links e e := ⟨[], (List.append_nil _).symm, fun _ => nofun, fun _ => linked⟩
  rw [addTimer]
  split
  next => exact unsent
  next c found =>
    split
    next => exact unsent
    next entry listed =>
      have spoken := e.client.callInSession_spoken .recordEvent [("eventId", entry.eventId)]
      rw [Client.recordEvent]
      generalize e.client.callInSession .recordEvent _ = attempt at spoken ⊢
      cases spoken with
      | unsent closed => exact unsent
      | @sent client reply session called =>
          obtain ⟨server, rfl⟩ := called
          let x : Exchange :=
            ⟨e.client.request .recordEvent [("eventId", entry.eventId)] (some e.client.token),
              reply⟩
          cases taken : reply.value with
          | error err =>
              have refused : ¬ x.Unnamed := by
                rintro ⟨-, root, answer, -⟩
                cases taken.symm.trans answer
              exact ⟨[x], rfl, fun _ => List.forall_mem_singleton.mpr refused, fun _ => linked⟩
          | ok root =>
              have unnamed : x.Unnamed ↔ root.textAt "recordId" = "" := by
                constructor
                · rintro ⟨-, root', answer, none⟩
                  rwa [Except.ok.inj (taken.symm.trans answer)]
                · exact fun none => ⟨rfl, root, taken, none⟩
              refine ⟨[x], rfl, ?_⟩
              rw [List.forall_mem_singleton, unnamed]
              exact Guide.linked_setRecord_iff linked listed _

/-- Calls that have nothing recorded leave the guide as it is. -/
theorem serve_guide {e : Engine} {call : HostCall} (other : .recordEvent ∉ call.asks) :
    (e.serve call).store.guide = e.store.guide := by
  cases call with
  | channels radio => rfl
  | guideOf uid start stop => rfl
  | setMaxDays future past => rfl
  | play what => exact (e.play_gated what).kept.settled.guide
  | addTimer uid start => exact absurd (List.mem_singleton.mpr rfl) other
  | deleteRecording id => exact (e.deleteRecording_called id).2.settled.guide
  | deleteTimer index => exact (e.deleteRecording_called _).2.settled.guide
  | stop => rfl

/-- Whatever happens to an engine whose links are all names, they stay names exactly if no record
was left without a name in it. -/
theorem act_links {e : Engine} (linked : e.store.guide.Linked) (a : Action) :
    Links e (e.act a) := by
  cases a with
  | work job =>
      refine links_of_sends (e.work_sends job) ?_ (linked_work linked job)
      cases job <;> simp [Job.asks]
  | serve call =>
      by_cases asked : Endpoint.recordEvent ∈ call.asks
      · cases call with
        | addTimer uid start => exact addTimer_links linked uid start
        | _ => simp [HostCall.asks] at asked
      · have linked' : (e.serve call).store.guide.Linked := by rwa [serve_guide asked]
        exact links_of_sends (e.serve_sends call) asked linked'
  | meanwhile => exact ⟨[], (List.append_nil _).symm, fun _ => nofun, fun _ => linked⟩

end Engine

namespace Course

/-! ### Runs -/

/-- An engine that was made just now. -/
def begun (settings : Settings) (account : Account) (server : Server) (pairStore : PairStore)
    (host : Host) (clock : Int) : Course :=
  ⟨.create settings { account, server, pairStore } host clock, []⟩

/-- The course after some more actions. -/
def after (s : Course) (actions : List Action) : Course := actions.foldl Course.act s

@[simp] theorem after_concat (s : Course) (actions : List Action) (a : Action) :
    s.after (actions ++ [a]) = (s.after actions).act a := List.foldl_concat ..

theorem Run.after {s : Course} (run : s.Run) (actions : List Action) : (s.after actions).Run := by
  induction actions using List.reverseRecOn with
  | nil => exact run
  | append_singleton actions a ih =>
      rw [after_concat]
      exact ih.act a

/-- Courses are what becomes of an engine that was made just now. -/
theorem run_iff_exists_after {s : Course} : s.Run ↔
    ∃ settings account server pairStore host clock actions,
      s = (begun settings account server pairStore host clock).after actions := by
  constructor
  · intro run
    induction run with
    | start settings account server pairStore host clock =>
        exact ⟨settings, account, server, pairStore, host, clock, [], rfl⟩
    | act run a ih =>
        obtain ⟨settings, account, server, pairStore, host, clock, actions, rfl⟩ := ih
        exact ⟨settings, account, server, pairStore, host, clock, actions ++ [a],
          (after_concat ..).symm⟩
  · rintro ⟨settings, account, server, pairStore, host, clock, actions, rfl⟩
    exact (Run.start ..).after actions

/-- In every run, all links to records have been names up to now exactly if the service named
each record when it took an event for recording. -/
theorem links_named_iff (settings : Settings) (account : Account) (server : Server)
    (pairStore : PairStore) (host : Host) (clock : Int) (actions : List Action) :
    (∀ past, past <+: actions →
        ((begun settings account server pairStore host clock).after
          past).engine.store.guide.Linked) ↔
      ∀ x ∈ ((begun settings account server pairStore host clock).after
        actions).engine.client.exchanges, ¬ x.Unnamed := by
  generalize fresh : begun settings account server pairStore host clock = s
  induction actions using List.reverseRecOn with
  | nil =>
      constructor
      · intro _
        rw [← fresh]
        exact List.forall_mem_nil _
      · intro _ past before
        obtain rfl := List.prefix_nil.mp before
        rw [← fresh]
        exact Guide.every_empty
  | append_singleton actions a ih =>
      simp only [List.prefix_concat_iff, forall_eq_or_imp, ih, after_concat, act_engine]
      constructor
      · rintro ⟨now, named⟩
        have linked := ih.mpr named actions List.prefix_rfl
        obtain ⟨xs, grown, links⟩ := Engine.act_links linked a
        rw [grown]
        exact List.forall_mem_append.mpr ⟨named, links.mp now⟩
      · intro all
        -- Nothing that was sent is forgotten, so all of it was named before this action too.
        obtain ⟨sent, kept, -⟩ := (s.after actions).engine.act_sends a
        have named : ∀ x ∈ (s.after actions).engine.client.exchanges, ¬ x.Unnamed :=
          fun x mem => all x (kept ▸ List.mem_append_left sent mem)
        have linked := ih.mpr named actions List.prefix_rfl
        obtain ⟨xs, grown, links⟩ := Engine.act_links linked a
        refine ⟨links.mpr fun x mem => ?_, named⟩
        exact all x (grown ▸ List.mem_append_right _ mem)

/-- The service of the airing, but it takes an event for recording without a name for the
record. -/
def reticent : Server := airing.reroute "record-event" [.body "\x7b\"status\":1\x7d"]

/-- The worker loads an hour of the guide, and the host has its broadcast recorded. -/
def unnamed : Course :=
  (begun {} default reticent {} {} 1705318200000).after
    [.work (.logIn 0 .launch), .work .loadLineup, .work (.loadChunk (.hour 1705316400)),
      .serve (.addTimer 1 1705316400)]

/-- It is not true that no broadcast is ever linked to a record without a name. -/
theorem not_always_named : ¬ ∀ s : Course, s.Run → s.engine.store.guide.Linked := by
  intro always
  have run : unnamed.Run := (Run.start ..).after _
  have listed : (unnamed.engine.store.guide.view "ct1" 1705316400).map (·.recordId) =
      some (some "") := by
    decide +kernel
  obtain ⟨e, there, none⟩ := Option.map_eq_some_iff.mp listed
  exact always unnamed run "ct1" 1705316400 e there none

end Course

end PvrBackend
