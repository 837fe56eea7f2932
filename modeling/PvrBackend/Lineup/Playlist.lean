import PvrBackend.Json.Basic
import PvrBackend.Lineup.Basic
import PvrBackend.Settings.Basic

/-!
# The lineup in an answer

Channels are numbered by their position in the answer. A locked channel that the
settings hide leaves its number unused, so the number of a channel does not
depend on the settings. Groups hold the shown television channels that name them.
-/

namespace PvrBackend.Lineup

def lockReason (item : Json) (key : String) : String :=
  let reason := item.textAt key
  if reason = "" then Settings.unlocked else reason

def channelOf (item : Json) (position : Nat) : Channel where
  id := item.textAt "id"
  uniqueId := position
  channelNumber := position
  name := item.textAt "name"
  streamUrl := item.textAt "url"
  streamType := item.textAt "streamType"
  groupId := item.textAt "group"
  iconPath := item.textAt "logoUrl"
  isRadio := item.textAt "type" != "tv"
  encryptionSystem := 0
  isPinLocked := lockReason item "locked" == Settings.pinLocked

/-- The channels shown, in the order of the items. -/
def channelsOf (s : Settings) (items : List Json) : List Channel :=
  ((items.zipIdx 1).filter (fun (item, _) => s.shows (lockReason item "locked"))).map
    (fun (item, position) => channelOf item position)

def groupOf (channels : List Channel) (member : String × Json) : ChannelGroup where
  groupId := member.1
  name := match member.2 with
    | .string name => name
    | _ => ""
  isRadio := false
  members := (channels.filter (fun c => c.groupId == member.1 && !c.isRadio)).map (·.uniqueId)

def ofAnswer (s : Settings) (root : Json) : Lineup :=
  let channels := channelsOf s (root.itemsAt "channels")
  let groups := ((root.get? "groups").bind Json.members?).getD []
  ⟨channels, groups.map (groupOf channels)⟩

end PvrBackend.Lineup
