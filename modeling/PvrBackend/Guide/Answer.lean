import PvrBackend.Calendar.Stamp
import PvrBackend.Guide.Basic
import PvrBackend.Json.Basic
import PvrBackend.Lineup.Basic

/-!
# The guide in an answer

An answer lists events by channel. Channels that are not in the lineup are left
out, and so are events without a readable start; an event without a readable end
ends when it starts.
-/

namespace PvrBackend.Guide

/-- What the service says about broadcasts that can be played later. -/
def laterAvailable : List String := ["timeshift", "pvr"]

/-- The broadcast that an event of a channel stands for. -/
def entryOf (channel : Channel) (event : Json) : Option GuideEntry := do
  let startTime ← Calendar.readTime (event.textAt "startTime")
  let recordId := event.textAt "recordId"
  pure {
    broadcastId := (startTime % 0x100000000).toNat
    channelUid := channel.uniqueId
    title := event.textAt "title"
    plotOutline := ""
    plot := event.textAt "description"
    iconPath := event.textAt "poster"
    genre := ""
    eventId := event.textAt "eventId"
    startTime
    endTime := (Calendar.readTime (event.textAt "endTime")).getD startTime
    availableTimeshift := laterAvailable.contains (event.textAt "availability")
    recordId := if recordId = "" then none else some recordId }

def entriesOf (channel : Channel) (events : Json) : List GuideEntry :=
  (events.items?.getD []).filterMap (entryOf channel)

/-- Broadcasts by channel, in ascending order of the remote ids. -/
def ofAnswer (channels : List Channel) (root : Json) : List (String × List GuideEntry) :=
  (((root.get? "channels").bind Json.members?).getD []).filterMap fun (id, events) =>
    (Channel.withId? channels id).map (fun c => (id, entriesOf c events))

end PvrBackend.Guide
