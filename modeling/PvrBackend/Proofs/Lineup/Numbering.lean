import PvrBackend.Engine.Jobs
import PvrBackend.Engine.Queries
import PvrBackend.Proofs.Json.Values

/-!
# Numbers of channels and members of groups

The position of a channel in the answer is its unique id and its number. Hidden channels leave gaps,
but the ids of a lineup ascend, and a channel is found again by its id alone. Groups come from
another part of the answer. Their members are ids as well, so each of them leads to the channel that
it was taken from, and no channel is a member of two groups, as no two groups share an id in the
answer.

The host asks for the members of a group by its label. It gets all of them, numbered without gaps.
-/

namespace PvrBackend

namespace Lineup

/-! ### Channels -/

/-- The channels are the shown items, each under its position. -/
structure FollowsItems (s : Settings) (items : List Json) (channels : List Channel) : Prop where
  mem_iff : ∀ c, c ∈ channels ↔ ∃ i item, items[i]? = some item ∧
    s.shows (lockReason item "locked") = true ∧ c = channelOf item (i + 1)
  numbers : ∀ c ∈ channels, c.channelNumber = c.uniqueId
  /-- Ids ascend, so the channels stand in the order of the items and no two share one. -/
  ascending : channels.Pairwise fun c d => c.uniqueId < d.uniqueId
  fits : items.length < 0x100000000 → ∀ c ∈ channels, c.uniqueId < 0x100000000

theorem mem_channelsOf {s : Settings} {items : List Json} {c : Channel} :
    c ∈ channelsOf s items ↔ ∃ i item, items[i]? = some item ∧
      s.shows (lockReason item "locked") = true ∧ c = channelOf item (i + 1) := by
  constructor
  · intro shown
    obtain ⟨⟨item, position⟩, listed, rfl⟩ := List.mem_map.mp shown
    obtain ⟨there, shows⟩ := List.mem_filter.mp listed
    obtain ⟨low, found⟩ := List.mk_mem_zipIdx_iff_le_and_getElem?_sub.mp there
    refine ⟨position - 1, item, found, shows, ?_⟩
    rw [Nat.sub_add_cancel low]
  · rintro ⟨i, item, found, shows, rfl⟩
    refine List.mem_map.mpr ⟨(item, i + 1), List.mem_filter.mpr ⟨?_, shows⟩, rfl⟩
    exact List.mk_mem_zipIdx_iff_le_and_getElem?_sub.mpr ⟨Nat.le_add_left 1 i, found⟩

theorem pairwise_channelsOf (s : Settings) (items : List Json) :
    (channelsOf s items).Pairwise fun c d => c.uniqueId < d.uniqueId := by
  have positions : (items.zipIdx 1).Pairwise fun x y => x.2 < y.2 := by
    apply List.pairwise_map.mp
    rw [List.zipIdx_map_snd]
    exact List.pairwise_lt_range'
  exact List.pairwise_map.mpr (positions.filter _)

theorem followsItems_channelsOf (s : Settings) (items : List Json) :
    FollowsItems s items (channelsOf s items) where
  mem_iff _ := mem_channelsOf
  numbers c shown := by
    obtain ⟨i, item, -, -, rfl⟩ := mem_channelsOf.mp shown
    rfl
  ascending := pairwise_channelsOf s items
  fits few c shown := by
    obtain ⟨i, item, found, -, rfl⟩ := mem_channelsOf.mp shown
    obtain ⟨inside, -⟩ := List.getElem?_eq_some_iff.mp found
    exact Nat.lt_of_le_of_lt inside few

theorem pairwise_channels_ofAnswer (s : Settings) (root : Json) :
    (ofAnswer s root).channels.Pairwise fun c d => c.uniqueId < d.uniqueId :=
  pairwise_channelsOf s (root.itemsAt "channels")

/-! ### Ids lead to channels -/

variable {channels : List Channel}
  (ascending : channels.Pairwise fun c d => c.uniqueId < d.uniqueId)

include ascending

theorem eq_of_uniqueId_eq {c d : Channel} (listed : c ∈ channels) (listed' : d ∈ channels)
    (same : c.uniqueId = d.uniqueId) : c = d := by
  have distinct : (channels.map (·.uniqueId)).Nodup :=
    List.pairwise_map.mpr (ascending.imp Nat.ne_of_lt)
  exact List.inj_on_of_nodup_map distinct listed listed' same

theorem withUid?_of_mem {c : Channel} (listed : c ∈ channels) :
    Channel.withUid? channels c.uniqueId = some c := by
  cases found : Channel.withUid? channels c.uniqueId with
  | none =>
      have missed := List.find?_eq_none.mp found c listed
      exact absurd (beq_self_eq_true _) missed
  | some d =>
      rw [Channel.withUid?] at found
      have same := List.find?_some found
      rw [eq_of_uniqueId_eq ascending (List.mem_of_find?_eq_some found) listed (beq_iff_eq.mp same)]

/-! ### Groups -/

omit ascending in
/-- The channels that a group takes its members from. -/
theorem mem_members_groupOf {m : String × Json} {uid : Nat} :
    uid ∈ (groupOf channels m).members ↔
      ∃ c ∈ channels, c.groupId = m.1 ∧ c.isRadio = false ∧ c.uniqueId = uid := by
  simp [groupOf, and_assoc]

theorem pairwise_members_groupOf (m : String × Json) :
    (groupOf channels m).members.Pairwise (· < ·) :=
  List.pairwise_map.mpr (ascending.filter _)

theorem filterMap_withUid? (p : Channel → Bool) :
    ((channels.filter p).map (·.uniqueId)).filterMap (Channel.withUid? channels) =
      channels.filter p := by
  rw [List.filterMap_map]
  calc
    _ = (channels.filter p).filterMap some :=
      List.filterMap_congr fun c listed => withUid?_of_mem ascending (List.mem_filter.mp listed).1
    _ = channels.filter p := List.filterMap_some

theorem disjoint_members_groupOf {m m' : String × Json} (other : m.1 ≠ m'.1) :
    (groupOf channels m).members.Disjoint (groupOf channels m').members := by
  intro uid member member'
  obtain ⟨c, listed, group, -, rfl⟩ := mem_members_groupOf.mp member
  obtain ⟨d, listed', group', -, same⟩ := mem_members_groupOf.mp member'
  obtain rfl := eq_of_uniqueId_eq ascending listed' listed same
  exact other (group.symm.trans group')

omit ascending

/-- The groups that an answer names, by their ids. -/
def named (root : Json) : List (String × Json) := ((root.get? "groups").bind Json.members?).getD []

/-- The groups are those of the answer, with the shown television channels that name them. -/
structure FollowsGroups (root : Json) (l : Lineup) : Prop where
  ids : l.groups.map (·.groupId) = (named root).map Prod.fst
  mem_iff : ∀ g ∈ l.groups, ∀ uid, uid ∈ g.members ↔
    ∃ c ∈ l.channels, c.groupId = g.groupId ∧ c.isRadio = false ∧ c.uniqueId = uid
  /-- Members stand in the order of the channels. -/
  ascending : ∀ g ∈ l.groups, g.members.Pairwise (· < ·)
  resolves : ∀ g ∈ l.groups, ∀ uid ∈ g.members, ∃ c ∈ l.channels,
    Channel.withUid? l.channels uid = some c ∧ c.uniqueId = uid
  disjoint : l.groups.Pairwise fun g h => g.members.Disjoint h.members

theorem followsGroups_ofAnswer (s : Settings) {depth : Nat} {root : Json}
    (readable : root.Readable depth) : FollowsGroups root (ofAnswer s root) := by
  have ascending := pairwise_channels_ofAnswer s root
  have grouped : (ofAnswer s root).groups =
    (named root).map (groupOf (ofAnswer s root).channels) := rfl
  constructor
  case ids =>
    rw [grouped, List.map_map]
    rfl
  case mem_iff =>
    rw [grouped, List.forall_mem_map]
    intro m _ uid
    exact mem_members_groupOf
  case ascending =>
    rw [grouped, List.forall_mem_map]
    intro m _
    exact pairwise_members_groupOf ascending m
  case resolves =>
    rw [grouped, List.forall_mem_map]
    intro m _ uid member
    obtain ⟨c, listed, -, -, rfl⟩ := mem_members_groupOf.mp member
    exact ⟨c, listed, withUid?_of_mem ascending listed, rfl⟩
  case disjoint =>
    rw [grouped, List.pairwise_map]
    refine (readable.ascending_at "groups").imp fun {m m'} below => ?_
    apply disjoint_members_groupOf ascending
    intro same
    have equal : compare m'.1 m'.1 = .eq := Std.ReflCmp.compare_self
    rw [same, equal] at below
    cases below

/-! ### What the host is offered -/

theorem members_groupOf (channels : List Channel) (m : String × Json) :
    (groupOf channels m).members =
      (channels.filter fun c => c.groupId == m.1 && !c.isRadio).map (·.uniqueId) := rfl

/-- A group that is the first with its name is offered with all of its members. -/
theorem membersOf_ofAnswer (s : Settings) (root : Json) {before after : List ChannelGroup}
    {g : ChannelGroup} (split : (ofAnswer s root).groups = before ++ g :: after)
    (first : ∀ h ∈ before, h.name ≠ g.name) :
    (ofAnswer s root).membersOf g.name =
      (g.members.zipIdx 1).map fun (uid, number) => ⟨uid, number⟩ := by
  have found : (ofAnswer s root).groups.find? (fun h => h.name == g.name) = some g := by
    refine List.find?_eq_some_iff_append.mpr ⟨beq_self_eq_true _, before, after, split, ?_⟩
    intro h earlier
    simpa using first h earlier
  obtain ⟨m, -, rfl⟩ : ∃ m ∈ named root, groupOf (ofAnswer s root).channels m = g :=
    List.mem_map.mp (List.mem_of_find?_eq_some found)
  rw [membersOf, found]
  dsimp only
  rw [members_groupOf, filterMap_withUid? (pairwise_channels_ofAnswer s root), List.zipIdx_map,
    List.map_map]
  rfl

end Lineup

namespace Engine

/-- What the host is offered while a lineup is published. -/
structure Offers (e : Engine) (l : Lineup) : Prop where
  /-- The first group with a name has all its members, numbered from 1. -/
  members : ∀ before g after, l.groups = before ++ g :: after → (∀ h ∈ before, h.name ≠ g.name) →
    e.groupMembers g.name = (g.members.zipIdx 1).map fun (uid, number) => ⟨uid, number⟩
  unknown : ∀ name, (∀ g ∈ l.groups, g.name ≠ name) → e.groupMembers name = []
  /-- Television and radio together are all channels. -/
  channels : ((e.channels false).1 ++ ((e.channels false).2.channels true).1).Perm l.channels

theorem publishLineup_lineup (e : Engine) (root : Json) :
    (e.publishLineup root).store.lineup = Lineup.ofAnswer e.settings root := by
  simp only [publishLineup]
  split <;> rfl

theorem offers_ofAnswer {e : Engine} {s : Settings} {root : Json}
    (published : e.store.lineup = Lineup.ofAnswer s root) : e.Offers (Lineup.ofAnswer s root) := by
  constructor
  case members =>
    intro before g after split first
    rw [groupMembers, published]
    exact Lineup.membersOf_ofAnswer s root split first
  case unknown =>
    intro name missing
    have unfound : (Lineup.ofAnswer s root).groups.find? (fun g => g.name == name) = none := by
      refine List.find?_eq_none.mpr fun g listed => ?_
      simpa using missing g listed
    rw [groupMembers, published, Lineup.membersOf, unfound]
  case channels =>
    have radio (c : Channel) : (c.isRadio == true) = !(c.isRadio == false) := by
      cases c.isRadio <;> rfl
    show (e.store.lineup.channels.filter _ ++ e.store.lineup.channels.filter _).Perm _
    rw [published, funext radio]
    exact List.filter_append_perm _ _

end Engine

/-- The lineup of an answer follows it: channels by position, groups by the ids of their members.
Once it is published the host gets every group with all of its members and every channel once. -/
theorem Lineup.lineup_follows_answer (s : Settings) {depth : Nat} {root : Json}
    (readable : root.Readable depth) :
    FollowsItems s (root.itemsAt "channels") (ofAnswer s root).channels ∧
    FollowsGroups root (ofAnswer s root) ∧
    (∀ e : Engine, e.settings = s → (e.publishLineup root).store.lineup = ofAnswer s root) ∧
    ∀ e : Engine, e.store.lineup = ofAnswer s root → e.Offers (ofAnswer s root) := by
  refine ⟨followsItems_channelsOf s _, followsGroups_ofAnswer s readable, ?_, ?_⟩
  · rintro e rfl
    exact e.publishLineup_lineup root
  · intro e published
    exact Engine.offers_ofAnswer published

namespace Lineup

/-- An item of an answer. -/
def plainItem (group id locked type : String) : Json :=
  .object [("group", .string group), ("id", .string id), ("locked", .string locked),
    ("type", .string type)]

theorem readable_plainItem (group id locked type : String) :
    (plainItem group id locked type).Readable 1 := by
  refine .object (by simp [Table.Ascending]; decide) ?_
  simp [Json.Readable.string]

/-- An answer with a channel that is not shown before a radio channel and a locked one. Its two
groups have one label. -/
def gappedAnswer : Json :=
  .object [
    ("channels", .array [plainItem "1" "ct1" "" "tv", plainItem "1" "film" "adult" "tv",
      plainItem "1" "radio1" "none" "radio", plainItem "1" "ct2" "pin" "tv"]),
    ("groups", .object [("1", .string "News"), ("2", .string "News")])]

theorem readable_gappedAnswer : gappedAnswer.Readable 3 := by
  refine .object (by simp [Table.Ascending]; decide) (List.forall_mem_cons.mpr ⟨.array ?_, ?_⟩)
  · simp [readable_plainItem]
  · refine List.forall_mem_singleton.mpr (.object (by simp [Table.Ascending]; decide) ?_)
    simp [Json.Readable.string]

/-- The hidden channel leaves a gap in the ids, and the numbers in the group have none. -/
theorem lineup_follows_gaps :
    gappedAnswer.Readable 3 ∧
    (ofAnswer {} gappedAnswer).channels.map (·.uniqueId) = [1, 3, 4] ∧
    FollowsItems {} (gappedAnswer.itemsAt "channels") (ofAnswer {} gappedAnswer).channels ∧
    FollowsGroups gappedAnswer (ofAnswer {} gappedAnswer) ∧
    ({ (default : Engine) with settings := {} }.publishLineup gappedAnswer).groupMembers "News" =
      [⟨1, 1⟩, ⟨4, 2⟩] := by
  obtain ⟨items, groups, published, offered⟩ := lineup_follows_answer {} readable_gappedAnswer
  refine ⟨readable_gappedAnswer, by decide, items, groups, ?_⟩
  obtain ⟨members, -, -⟩ := offered _ (published { (default : Engine) with settings := {} } rfl)
  exact members [] _ _ rfl (List.forall_mem_nil _)

end Lineup

end PvrBackend
