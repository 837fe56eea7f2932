/-!
# The lineup

Channels and channel groups as they are shown to the host, and the streams that
a player is given.
-/

namespace PvrBackend

structure Channel where
  /-- Remote id, by which the guide and the recordings name the channel. -/
  id : String := ""
  /-- Position in the lineup, from 1; it holds for one load of the lineup only. -/
  uniqueId : Nat := 0
  channelNumber : Nat := 0
  name : String := ""
  streamUrl : String := ""
  streamType : String := ""
  groupId : String := ""
  iconPath : String := ""
  isRadio : Bool := false
  encryptionSystem : Nat := 0
  isPinLocked : Bool := false
deriving DecidableEq, Repr, Inhabited

/-- A group of television channels. -/
structure ChannelGroup where
  groupId : String := ""
  name : String := ""
  isRadio : Bool := false
  /-- Unique ids of the members in the order of the lineup. -/
  members : List Nat := []
deriving DecidableEq, Repr, Inhabited

/-- A member of a group, with its number in the group. -/
structure GroupMember where
  channelUid : Nat
  channelNumber : Nat
deriving DecidableEq, Repr

/-- Channels and groups of one load. -/
structure Lineup where
  channels : List Channel := []
  groups : List ChannelGroup := []
deriving DecidableEq, Repr, Inhabited

namespace Channel

/-- The first channel with a remote id. -/
def withId? (channels : List Channel) (id : String) : Option Channel :=
  channels.find? (fun c => c.id == id)

def withUid? (channels : List Channel) (uid : Nat) : Option Channel :=
  channels.find? (fun c => c.uniqueId == uid)

def streamTypeOf (channels : List Channel) (id : String) : String :=
  match withId? channels id with
  | some c => c.streamType
  | none => "unknown"

end Channel

namespace Lineup

/-- The members of the first group with a name that are channels of the lineup,
numbered from 1. -/
def membersOf (l : Lineup) (name : String) : List GroupMember :=
  match l.groups.find? (fun g => g.name == name) with
  | none => []
  | some g =>
    let channels := g.members.filterMap (Channel.withUid? l.channels)
    (channels.zipIdx 1).map (fun (c, number) => ⟨c.uniqueId, number⟩)

end Lineup

structure Stream where
  url : String
  streamType : String
deriving DecidableEq, Repr

namespace Stream

structure Property where
  name : String
  value : String
deriving DecidableEq, Repr

/-- Stream types that the adaptive player takes. -/
def adaptiveTypes : List String := ["mpd", "ism", "hls"]

/-- What the player is told about a stream: its address, the adaptive player
where it is wanted and fits, and whether the stream is live. -/
def properties (s : Stream) (useAdaptive isLive : Bool) : List Property :=
  ⟨"streamurl", s.url⟩ ::
    (if useAdaptive && adaptiveTypes.contains s.streamType then
      [⟨"inputstream", "inputstream.adaptive"⟩,
        ⟨"inputstream.adaptive.manifest_type", s.streamType⟩]
    else []) ++
    (if isLive then [⟨"isrealtimestream", "true"⟩] else [])

end Stream

end PvrBackend
