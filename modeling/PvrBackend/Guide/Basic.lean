import PvrBackend.Table

/-!
# The programme guide

The guide keeps, for every channel, its broadcasts by start time. It is a plain
value: an edit gives a new guide, and a guide that someone holds stays what it
is. Each channel carries the revision of its last edit. Revisions are never used
twice, so two guides of one history share a channel exactly when its revision is
the same in both.

Every edit reports its changes, so that a listener can follow.
-/

namespace PvrBackend

/-- A broadcast. -/
structure GuideEntry where
  /-- Start time modulo 2³², the number by which a host names the broadcast. -/
  broadcastId : Nat := 0
  channelUid : Nat := 0
  title : String := ""
  plotOutline : String := ""
  plot : String := ""
  iconPath : String := ""
  genre : String := ""
  eventId : String := ""
  startTime : Int := 0
  endTime : Int := 0
  /-- Whether the broadcast can be played once it is over. -/
  availableTimeshift : Bool := false
  /-- The record made of it, if there is one. -/
  recordId : Option String := none
deriving DecidableEq, Repr, Inhabited

/-- What happened to a broadcast. -/
inductive ChangeKind where
  | created
  | updated
  | deleted
deriving DecidableEq, Repr

structure GuideChange where
  kind : ChangeKind
  entry : GuideEntry
deriving DecidableEq, Repr

/-- The span of time that the guide has to cover, both ends included. -/
structure Window where
  lower : Int
  upper : Int
deriving DecidableEq, Repr, Inhabited

namespace Window

/-- Whether a broadcast ends before the window or starts behind it. -/
def excludes (w : Window) (e : GuideEntry) : Bool := w.upper < e.startTime || e.endTime < w.lower

/-- The least window that contains this one and both times. -/
def widen (w : Window) (start stop : Int) : Window := ⟨min w.lower start, max w.upper stop⟩

end Window

structure ChannelGuide where
  id : String
  /-- Broadcasts by start time. -/
  entries : Table Int GuideEntry := .empty
  /-- The edit that this state comes from. -/
  revision : Nat := 0
deriving DecidableEq, Inhabited

namespace ChannelGuide

/-- Write broadcasts by their start times, one after the other. -/
def write : Table Int GuideEntry → List GuideEntry → List GuideChange × Table Int GuideEntry
  | t, [] => ([], t)
  | t, e :: es =>
    let kind : ChangeKind := if (t.get? e.startTime).isSome then .updated else .created
    let (changes, t) := write (t.insert e.startTime e) es
    (⟨kind, e⟩ :: changes, t)

/-- The broadcasts that overlap a span of time, both ends included. -/
def inRange (c : ChannelGuide) (start stop : Int) : List GuideEntry :=
  c.entries.values.filter (fun e => start ≤ e.endTime && e.startTime ≤ stop)

def outside (c : ChannelGuide) (w : Window) : List GuideEntry := c.entries.values.filter w.excludes

/-- Drop the broadcasts that a window excludes, if there are any. -/
def release (c : ChannelGuide) (w : Window) (revision : Nat) : ChannelGuide :=
  if c.outside w = [] then c
  else { c with entries := c.entries.filter (fun _ e => !w.excludes e), revision }

end ChannelGuide

/-- The guide of all channels, by remote id. -/
structure Guide where
  channels : Table String ChannelGuide := .empty
  /-- The revision of the next edit. -/
  nextRevision : Nat := 0
deriving DecidableEq, Inhabited

namespace Guide

def channel? (g : Guide) (id : String) : Option ChannelGuide := g.channels.get? id

/-- The broadcast of a channel under a start time. -/
def entry? (g : Guide) (id : String) (start : Int) : Option GuideEntry :=
  (g.channel? id).bind (·.entries.get? start)

/-- Put the guide of a channel in place, as a new revision. -/
def put (g : Guide) (id : String) (c : ChannelGuide) : Guide :=
  ⟨g.channels.insert id { c with revision := g.nextRevision }, g.nextRevision + 1⟩

/-- The channel that was put in place is found, as a new revision. -/
@[simp] theorem channel?_put_self (g : Guide) (id : String) (c : ChannelGuide) :
    (g.put id c).channel? id = some { c with revision := g.nextRevision } :=
  Table.get?_insert_self _ _ _

theorem channel?_put_of_ne (g : Guide) {id other : String} (h : other ≠ id) (c : ChannelGuide) :
    (g.put id c).channel? other = g.channel? other :=
  Table.get?_insert_of_ne _ h _

/-- Write broadcasts of one channel; with none nothing is touched. -/
def merge (g : Guide) (id : String) (entries : List GuideEntry) : List GuideChange × Guide :=
  if entries = [] then ([], g)
  else
    let c := (g.channel? id).getD { id }
    let (changes, table) := ChannelGuide.write c.entries entries
    (changes, g.put id { c with entries := table })

@[simp] theorem merge_nil (g : Guide) (id : String) : g.merge id [] = ([], g) := rfl

def mergeAll (g : Guide) : List (String × List GuideEntry) → List GuideChange × Guide
  | [] => ([], g)
  | (id, entries) :: rest =>
    let (changes, g) := g.merge id entries
    let (others, g) := g.mergeAll rest
    (changes ++ others, g)

/-- Drop every broadcast that a window excludes. -/
def release (g : Guide) (w : Window) : List GuideChange × Guide :=
  (g.channels.values.flatMap (fun c => (c.outside w).map (⟨.deleted, ·⟩)),
    ⟨g.channels.mapValues (fun _ c => c.release w g.nextRevision), g.nextRevision + 1⟩)

/-- Note the record of a broadcast. -/
def setRecord (g : Guide) (id : String) (start : Int) (recordId : String) : Guide :=
  match g.channel? id with
  | none => g
  | some c =>
    let entries := c.entries.mapValues (fun key e =>
      if key = start then { e with recordId := some recordId } else e)
    g.put id { c with entries }

/-- Ids of the channels that `held` still shares with this guide. -/
def shared (g held : Guide) : List String :=
  (held.channels.entries.filter (fun (id, c) =>
    (g.channel? id).any (fun d => d.revision == c.revision))).map (·.1)

end Guide

end PvrBackend
