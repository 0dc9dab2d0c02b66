import Mathlib.Data.List.ProdSigma
import Zmq4.ZyreGroups

namespace Zmq4.ZyreExpiration

open ByteCodec ActionRuns KeyedMaps ZyreGroups
open ZyrePeers (UUID hexString)

inductive Check
  | idle
  | testing (peers : List (Bytes × Peer)) (expired : List Bytes)
  /-- The engine holds the mutex of the groups for reading. -/
  | cleaning (members : List (Bytes × Bytes))

/-- `joining` is a join that has found its group.  `due` are the peers that had left the map
when the check began, and `checked` those that had left when an earlier one began. -/
structure Node where
  peers : KeyedMap Bytes Peer := ∅
  objects : Nat := 0
  lastSeen : Peer → Int := fun _ => 0
  groups : GroupManager := {}
  joining : Option (Bytes × Peer) := none
  check : Check := .idle
  departed : List Peer := []
  due : List Peer := []
  checked : List Peer := []

/-- The check will remove the peer with this UUID from the group. -/
def Check.Condemns : Check → Bytes → Bytes → Prop
  | .idle, _, _ => False
  | .testing _ expired, _, uuid => uuid ∈ expired
  | .cleaning members, name, uuid => (name, uuid) ∈ members

inductive Action
  /-- `handleDiscovery`, with the outcome of `Peer.Start`. -/
  | handleDiscovery (uuid : UUID) (port : UInt16) (started : Bool) (now : Int)
  /-- `PeerManager.checkExpiredPeers` looks at one peer. -/
  | checkPeer (uuid : Bytes) (expiration now : Int)
  | updateLastSeen (peer : Peer) (now : Int)
  | joinGroup (name : Bytes) (peer : Peer)
  | addMember
  | getPeers (order : List Bytes)
  | testPeer (peerTimeout now : Int)
  | cleanupExpiredPeers (members : List (Bytes × Bytes))
  | removeMember
  | checkEnds

namespace Node

def isExpired (s : Node) (peer : Peer) (timeout now : Int) : Bool :=
  now - s.lastSeen peer > timeout

def remove (s : Node) (peer : Peer) : Node :=
  { s with
    peers := s.peers.erase peer.key
    departed := s.departed ++ [peer] }

def handleDiscovery (s : Node) (uuid : UUID) (port : UInt16) (started : Bool) (now : Int) : Node :=
  match s.peers.lookup (hexString uuid) with
  | some peer =>
    if port = 0 then s.remove peer
    else { s with lastSeen := Function.update s.lastSeen peer now }
  | none =>
    if port ≠ 0 ∧ started then
      { s with
        peers := s.peers.insert (hexString uuid) ⟨s.objects, uuid⟩
        objects := s.objects + 1
        lastSeen := Function.update s.lastSeen ⟨s.objects, uuid⟩ now }
    else s

/-- A peer that was in the map may join at any time, and the groups are registered while no
cleanup holds the mutex. -/
def step (s : Node) : Action → Option Node
  | .handleDiscovery uuid port started now => some (s.handleDiscovery uuid port started now)
  | .checkPeer uuid expiration now =>
    match s.peers.lookup uuid with
    | some peer => some (if s.isExpired peer expiration now then s.remove peer else s)
    | none => none
  | .updateLastSeen peer now => some { s with lastSeen := Function.update s.lastSeen peer now }
  | .joinGroup name peer =>
    match s.joining, s.check with
    | some _, _ | none, .cleaning _ => none
    | none, .idle | none, .testing _ _ =>
      if peer.object < s.objects then
        some { s with groups := s.groups.getGroup name, joining := some (name, peer) }
      else none
  | .addMember =>
    s.joining.map fun (name, peer) =>
      { s with groups := s.groups.joinGroup name peer, joining := none }
  | .getPeers order =>
    match s.check with
    | .idle => some { s with check := .testing (ranged order s.peers) [], due := s.departed }
    | .testing _ _ | .cleaning _ => none
  | .testPeer peerTimeout now =>
    match s.check with
    | .testing ((uuid, peer) :: rest) expired =>
      let expired := if s.isExpired peer peerTimeout now then expired ++ [uuid] else expired
      some { s with check := .testing rest expired }
    | .testing [] _ | .idle | .cleaning _ => none
  | .cleanupExpiredPeers members =>
    match s.check with
    | .testing [] expired =>
      if expired ≠ [] ∧ members.Perm (s.groups.groups.keys ×ˢ expired) then
        some { s with check := .cleaning members }
      else none
    | .testing (_ :: _) _ | .idle | .cleaning _ => none
  | .removeMember =>
    match s.check with
    | .cleaning ((name, uuid) :: rest) =>
      some { s with groups := s.groups.removeMember name uuid, check := .cleaning rest }
    | .cleaning [] | .idle | .testing _ _ => none
  | .checkEnds =>
    match s.check with
    | .testing [] [] | .cleaning [] =>
      some { s with check := .idle, due := [], checked := s.checked ++ s.due }
    | .testing _ _ | .cleaning _ | .idle => none

def IsMember (s : Node) (peer : Peer) : Prop :=
  ∃ name uuid, s.groups.member name uuid = some peer

/-- The groups have forgotten every peer that left before the last check. -/
def Forgets (s : Node) : Prop :=
  ∀ peer ∈ s.checked, ¬ s.IsMember peer

/-- The peer is about to join no group, and the check under way will remove it from each
group that it is in. -/
def Withdrawn (s : Node) (peer : Peer) : Prop :=
  (∀ name, s.joining ≠ some (name, peer)) ∧
    ∀ name uuid, s.groups.member name uuid = some peer → s.check.Condemns name uuid

/-- A peer leaves the map only when it is withdrawn, and does not join a group after that. -/
def Orderly (s : Node) : Action → Prop
  | .handleDiscovery uuid port _ _ =>
    port = 0 → ∀ peer, s.peers.lookup (hexString uuid) = some peer → s.Withdrawn peer
  | .checkPeer uuid expiration now =>
    ∀ peer, s.peers.lookup uuid = some peer → s.isExpired peer expiration now → s.Withdrawn peer
  | .joinGroup _ peer => peer ∉ s.departed
  | .updateLastSeen _ _ | .addMember | .getPeers _ | .testPeer _ _ | .cleanupExpiredPeers _
  | .removeMember | .checkEnds => True

structure Settled (s : Node) : Prop where
  withdrawn : ∀ peer ∈ s.departed, s.Withdrawn peer
  gone : ∀ peer ∈ s.due ++ s.checked, peer ∈ s.departed ∧ ¬ s.IsMember peer

variable {s s' : Node} {action : Action} {peer : Peer}

theorem mem_keys_of_member {gm : GroupManager} {name uuid : Bytes}
    (hmember : gm.member name uuid = some peer) : name ∈ gm.groups.keys := by
  by_contra hname
  rw [GroupManager.member, GroupManager.members, AList.lookup_eq_none.mpr hname] at hmember
  cases hmember

theorem withdrawn_step (hpeer : s.Withdrawn peer) (hjoin : ∀ name, action ≠ .joinGroup name peer)
    (hstep : s.step action = some s') :
    s'.Withdrawn peer ∧ (s'.IsMember peer → s.IsMember peer) := by
  have ⟨hjoining, hcondemned⟩ := hpeer
  cases action with
  | handleDiscovery uuid port started now =>
    cases hstep
    unfold handleDiscovery
    split <;> split <;> exact ⟨hpeer, id⟩
  | checkPeer uuid expiration now =>
    simp only [step] at hstep
    split at hstep <;> cases hstep
    split <;> exact ⟨hpeer, id⟩
  | updateLastSeen other now =>
    cases hstep
    exact ⟨hpeer, id⟩
  | joinGroup name other =>
    simp only [step] at hstep
    split at hstep
    all_goals first
      | cases hstep
      | obtain ⟨-, ⟨⟩⟩ := Option.ite_none_right_eq_some.mp hstep
        simp only [Withdrawn, IsMember, GroupManager.member_getGroup]
        refine ⟨⟨fun name' heq => ?_, hcondemned⟩, id⟩
        cases heq
        exact hjoin _ rfl
  | addMember =>
    obtain ⟨⟨name, other⟩, hother, rfl⟩ := Option.map_eq_some_iff.mp hstep
    have hmember : ∀ name' uuid, (s.groups.joinGroup name other).member name' uuid = some peer →
        s.groups.member name' uuid = some peer := by
      intro name' uuid hmember
      rw [GroupManager.member_joinGroup] at hmember
      split_ifs at hmember
      · cases hmember
        exact absurd hother (hjoining name)
      · exact hmember
    refine ⟨⟨nofun, fun name' uuid h => hcondemned name' uuid (hmember name' uuid h)⟩, ?_⟩
    exact Exists.imp fun name' => Exists.imp (hmember name')
  | getPeers order =>
    simp only [step] at hstep
    split at hstep <;> cases hstep
    next hcheck =>
      rw [hcheck] at hcondemned
      exact ⟨⟨hjoining, fun name uuid hmember => (hcondemned name uuid hmember).elim⟩, id⟩
  | testPeer peerTimeout now =>
    simp only [step] at hstep
    split at hstep <;> cases hstep
    next hcheck =>
      rw [hcheck] at hcondemned
      refine ⟨⟨hjoining, fun name uuid hmember => ?_⟩, id⟩
      simp only [Check.Condemns]
      split
      · exact List.mem_append_left _ (hcondemned name uuid hmember)
      · exact hcondemned name uuid hmember
  | cleanupExpiredPeers members =>
    simp only [step] at hstep
    split at hstep
    · next hcheck =>
        obtain ⟨⟨-, hmembers⟩, ⟨⟩⟩ := Option.ite_none_right_eq_some.mp hstep
        rw [hcheck] at hcondemned
        refine ⟨⟨hjoining, fun name uuid hmember => hmembers.mem_iff.mpr ?_⟩, id⟩
        exact List.pair_mem_product.mpr
          ⟨mem_keys_of_member hmember, hcondemned name uuid hmember⟩
    all_goals cases hstep
  | removeMember =>
    simp only [step] at hstep
    split at hstep <;> cases hstep
    next hcheck =>
      rw [hcheck] at hcondemned
      simp only [Withdrawn, IsMember, GroupManager.member_removeMember,
        Option.ite_none_left_eq_some]
      refine ⟨⟨hjoining, fun name uuid hmember => ?_⟩, fun ⟨name, uuid, hmember⟩ => ?_⟩
      · refine (List.mem_cons.mp (hcondemned name uuid hmember.2)).resolve_left fun heq => ?_
        exact hmember.1 (Prod.mk.inj heq)
      · exact ⟨name, uuid, hmember.2⟩
  | checkEnds =>
    simp only [step] at hstep
    split at hstep <;> cases hstep
    all_goals
      next hcheck =>
        rw [hcheck] at hcondemned
        exact ⟨⟨hjoining, fun name uuid hmember => nomatch hcondemned name uuid hmember⟩, id⟩

theorem departed_step (horderly : s.Orderly action) (hstep : s.step action = some s') :
    s.departed ⊆ s'.departed ∧ ∀ peer ∈ s'.departed, peer ∈ s.departed ∨
      s.Withdrawn peer ∧ ∀ name, action ≠ .joinGroup name peer := by
  cases action <;> grind [step, handleDiscovery, remove, Orderly, Option.map_eq_some_iff]

theorem gone_step (hstep : s.step action = some s') (hpeer : peer ∈ s'.due ++ s'.checked) :
    peer ∈ s.due ++ s.checked ∨ peer ∈ s.departed ∧ s.check = .idle := by
  cases action <;> grind [step, handleDiscovery, remove, Option.map_eq_some_iff]

theorem settled_step (hs : s.Settled) (horderly : s.Orderly action)
    (hstep : s.step action = some s') : s'.Settled := by
  have ⟨hkept, hnew⟩ := departed_step horderly hstep
  have hold : ∀ peer ∈ s.departed, s'.Withdrawn peer ∧ (s'.IsMember peer → s.IsMember peer) := by
    intro peer hpeer
    refine withdrawn_step (hs.withdrawn peer hpeer) ?_ hstep
    rintro name rfl
    exact horderly hpeer
  constructor
  · intro peer hpeer
    rcases hnew peer hpeer with hpeer | ⟨hwithdrawn, hjoin⟩
    · exact (hold peer hpeer).1
    · exact (withdrawn_step hwithdrawn hjoin hstep).1
  · intro peer hpeer
    rcases gone_step hstep hpeer with hpeer | ⟨hpeer, hcheck⟩
    · obtain ⟨hdeparted, hmember⟩ := hs.gone peer hpeer
      exact ⟨hkept hdeparted, fun h => hmember ((hold peer hdeparted).2 h)⟩
    · refine ⟨hkept hpeer, fun h => ?_⟩
      obtain ⟨name, uuid, hmember⟩ := (hold peer hpeer).2 h
      have hidle := (hs.withdrawn peer hpeer).2 name uuid hmember
      rwa [hcheck] at hidle

/-- In all states of a run in which peers leave the map only when they are withdrawn the groups
have forgotten the peers that left before the last check. -/
theorem always_forgets_of_orderly {actions : List Action}
    (horderly : Throughout step Orderly {} actions) : Always step Forgets {} actions := by
  have hstart : Settled {} := ⟨by simp, by simp⟩
  refine always_of_kept (I := Settled) ?_ ?_ hstart horderly
  · exact fun _ _ _ hs horderly hstep => settled_step hs horderly hstep
  · exact fun s hs peer hpeer => (hs.gone peer (List.mem_append_right _ hpeer)).2

def someone : UUID :=
  ⟨zeros 16, rfl⟩

/-- The peer leaves while the check that has found it expired is under way. -/
def leavesExpired : List Action :=
  [.handleDiscovery someone 5670 true 0, .joinGroup [7] ⟨0, someone⟩, .addMember,
    .getPeers [hexString someone], .testPeer 5 9, .checkPeer (hexString someone) 5 9,
    .cleanupExpiredPeers [([7], hexString someone)], .removeMember, .checkEnds, .getPeers [],
    .checkEnds]

theorem always_forgets_leavesExpired :
    (∃ s, run step {} leavesExpired = some s ∧ ⟨0, someone⟩ ∈ s.checked) ∧
      Always step Forgets {} leavesExpired := by
  refine ⟨⟨_, rfl, by decide +kernel⟩, always_forgets_of_orderly ?_⟩
  refine ⟨fun h => absurd h (by decide), ?_⟩
  rintro _ ⟨⟩
  refine ⟨List.not_mem_nil, ?_⟩
  rintro _ ⟨⟩
  refine ⟨trivial, ?_⟩
  rintro _ ⟨⟩
  refine ⟨trivial, ?_⟩
  rintro _ ⟨⟩
  refine ⟨trivial, ?_⟩
  rintro _ ⟨⟩
  refine ⟨?_, ?_⟩
  · rintro peer - -
    refine ⟨nofun, fun name uuid hmember => ?_⟩
    have hjoined := (GroupManager.member_joinGroup name uuid).symm.trans hmember
    rw [GroupManager.member_getGroup] at hjoined
    split_ifs at hjoined with hname
    · exact List.mem_singleton.mpr hname.2
    · cases hjoined
  · exact fun _ _ => throughout_of_forall (by simp [Orderly]) _

/-- A peer joins a group and leaves; the next check does not find it in the map. -/
theorem departed_member :
    ∃ s, run step {} [.handleDiscovery someone 5670 true 0, .joinGroup [7] ⟨0, someone⟩, .addMember,
        .handleDiscovery someone 0 true 1, .getPeers [], .checkEnds] = some s ∧
      ⟨0, someone⟩ ∈ s.checked ∧ s.IsMember ⟨0, someone⟩ := by
  refine ⟨_, rfl, ?_, [7], hexString someone, ?_⟩
  all_goals decide +kernel

end Node

end Zmq4.ZyreExpiration
