import Mathlib.Data.Finset.Basic
import Zmq4.ZyrePeers

namespace Zmq4.ZyreGroups

open ByteCodec KeyedMaps
open ZyrePeers (UUID hexString)

structure Peer where
  object : Nat
  uuid : UUID
  deriving DecidableEq

def Peer.key (peer : Peer) : Bytes :=
  hexString peer.uuid

/-- The members of each group by their UUID, and the groups of each peer. -/
structure GroupManager where
  groups : KeyedMap Bytes (KeyedMap Bytes Peer) := ∅
  peerGroups : Peer → Finset Bytes := fun _ => ∅

namespace GroupManager

def setMembers (gm : GroupManager) (name : Bytes) (members : KeyedMap Bytes Peer) :
    GroupManager :=
  { gm with groups := gm.groups.insert name members }

def setPeerGroups (gm : GroupManager) (peer : Peer) (names : Finset Bytes) : GroupManager :=
  { gm with peerGroups := Function.update gm.peerGroups peer names }

/-- The members of a group; none if it is not registered. -/
def members (gm : GroupManager) (name : Bytes) : KeyedMap Bytes Peer :=
  (gm.groups.lookup name).getD ∅

def member (gm : GroupManager) (name peerUUID : Bytes) : Option Peer :=
  (gm.members name).lookup peerUUID

/-- `GetGroup` and `CreateGroup` differ in what they reply. -/
def getGroup (gm : GroupManager) (name : Bytes) : GroupManager :=
  if name ∈ gm.groups then gm else gm.setMembers name ∅

def joinGroup (gm : GroupManager) (name : Bytes) (peer : Peer) : GroupManager :=
  (gm.setMembers name ((gm.members name).insert peer.key peer)).setPeerGroups peer
    (insert name (gm.peerGroups peer))

def removeMember (gm : GroupManager) (name peerUUID : Bytes) : GroupManager :=
  match gm.member name peerUUID with
  | none => gm
  | some peer =>
    (gm.setMembers name ((gm.members name).erase peerUUID)).setPeerGroups peer
      ((gm.peerGroups peer).erase name)

variable {gm : GroupManager} {name peerUUID : Bytes} {peer : Peer}

theorem members_setMembers (members : KeyedMap Bytes Peer) (other : Bytes) :
    (gm.setMembers name members).members other =
      if other = name then members else gm.members other := by
  rw [GroupManager.members, setMembers, lookup_insert_eq]
  split <;> rfl

theorem member_getGroup (other uuid : Bytes) :
    (gm.getGroup name).member other uuid = gm.member other uuid := by
  unfold getGroup
  split_ifs with hregistered
  · rfl
  · rw [member, members_setMembers]
    split_ifs with heq
    · rw [heq, member, members, AList.lookup_eq_none.mpr hregistered]
      rfl
    · rfl

theorem member_joinGroup (other uuid : Bytes) :
    (gm.joinGroup name peer).member other uuid =
      if other = name ∧ uuid = peer.key then some peer else gm.member other uuid := by
  change ((gm.setMembers name _).members other).lookup uuid = _
  rw [members_setMembers, ite_and]
  split_ifs with heq huuid
  · rw [huuid, AList.lookup_insert]
  · rw [AList.lookup_insert_ne huuid, heq]
    rfl
  · rfl

theorem member_removeMember (other uuid : Bytes) :
    (gm.removeMember name peerUUID).member other uuid =
      if other = name ∧ uuid = peerUUID then none else gm.member other uuid := by
  unfold removeMember
  split
  · next hnone =>
      split_ifs with heq
      · rw [heq.1, heq.2, hnone]
      · rfl
  · change ((gm.setMembers name _).members other).lookup uuid = _
    rw [members_setMembers, ite_and]
    split_ifs with heq huuid
    · rw [huuid, AList.lookup_erase]
    · rw [AList.lookup_erase_ne huuid, heq]
      rfl
    · rfl

end GroupManager

end Zmq4.ZyreGroups
