import Zmq4.KeyedMaps
import Zmq4.ZyreEvents

/-!
The peers that a node knows (`PeerManager` in `zyre/peer.go`): discoveries and
expiration checks, and the events they publish.

Both hold the mutex of the manager while they run.  An expiration check looks at one
peer after the other; in between, a heartbeat may move the time a peer was last seen
(`processHeartbeat` in `zyre/discovery.go`), since that needs the mutex of the peer
only.
-/

namespace Zmq4.ZyrePeers

open ByteCodec ActionRuns KeyedMaps ZyreEvents

abbrev UUID := FixedBytes 16

def hexString (uuid : UUID) : Bytes :=
  uuid.bytes.flatMap fun byte => ascii (showHex byte)

/-- Port 0 says that the peer is leaving. -/
structure Discovery where
  uuid : UUID
  port : UInt16
  addr : Bytes

structure Peer where
  uuid : UUID
  name : Bytes := []
  endpoint : Bytes
  headers : List (Bytes × Bytes) := []
  lastSeen : Int

def newPeer (uuid : UUID) (endpoint : Bytes) (now : Int) : Peer where
  uuid := uuid
  endpoint := endpoint
  lastSeen := now

def Peer.updateLastSeen (p : Peer) (now : Int) : Peer :=
  { p with lastSeen := now }

def Peer.isExpired (p : Peer) (timeout now : Int) : Bool :=
  now - p.lastSeen > timeout

/-- `checking` has the peers that a check has still to look at. -/
structure PeerManager where
  peers : KeyedMap Bytes Peer := ∅
  expiration : Int
  checking : Option (List Bytes) := none
  published : List Event := []

def defaultPeerExpiration : Int := 5000000000

def newPeerManager : PeerManager where
  expiration := defaultPeerExpiration

inductive Action
  /-- `handleDiscovery`, with the outcome of `Peer.Start`. -/
  | handleDiscovery (discovery : Discovery) (started : Bool) (now : Int)
  /-- `checkExpiredPeers` gets the mutex. -/
  | checkExpiredPeers (order : List Bytes)
  /-- The check looks at the next peer, or returns. -/
  | checkNext (now : Int)
  | heartbeat (uuid : UUID) (now : Int)

namespace PeerManager

def publish (pm : PeerManager) (event : Event) : PeerManager :=
  { pm with published := pm.published ++ [event] }

def remove (pm : PeerManager) (uuid : Bytes) (peer : Peer) (now : Int) : PeerManager :=
  { pm with peers := pm.peers.erase uuid }.publish
    (newExitEvent uuid peer.name peer.endpoint now)

def endpointOf (discovery : Discovery) : Bytes :=
  ascii "tcp://" ++ discovery.addr ++ ascii (":" ++ toString discovery.port.toNat)

def handleDiscovery (pm : PeerManager) (discovery : Discovery) (started : Bool) (now : Int) :
    PeerManager :=
  let uuid := hexString discovery.uuid
  if discovery.port = 0 then
    match pm.peers.lookup uuid with
    | some peer => pm.remove uuid peer now
    | none => pm
  else
    match pm.peers.lookup uuid with
    | some peer => { pm with peers := pm.peers.insert uuid (peer.updateLastSeen now) }
    | none =>
      let peer := newPeer discovery.uuid (endpointOf discovery) now
      if started then
        { pm with peers := pm.peers.insert uuid peer }.publish
          (newEnterEvent uuid peer.name peer.endpoint peer.headers now)
      else pm

def checkPeer (pm : PeerManager) (uuid : Bytes) (now : Int) : PeerManager :=
  match pm.peers.lookup uuid with
  | some peer => if peer.isExpired pm.expiration now then pm.remove uuid peer now else pm
  | none => pm

def heartbeat (pm : PeerManager) (uuid : UUID) (now : Int) : PeerManager :=
  match pm.peers.lookup (hexString uuid) with
  | some peer => { pm with peers := pm.peers.insert (hexString uuid) (peer.updateLastSeen now) }
  | none => pm

def step (pm : PeerManager) : Action → Option PeerManager
  | .handleDiscovery discovery started now =>
    if pm.checking = none then some (pm.handleDiscovery discovery started now) else none
  | .checkExpiredPeers order =>
    if pm.checking = none then
      some { pm with checking := some ((ranged order pm.peers).map Prod.fst) }
    else none
  | .checkNext now =>
    match pm.checking with
    | none => none
    | some [] => some { pm with checking := none }
    | some (uuid :: rest) => some { pm.checkPeer uuid now with checking := some rest }
  | .heartbeat uuid now => some (pm.heartbeat uuid now)

def eventTypes (pm : PeerManager) (uuid : Bytes) : List EventType :=
  (pm.published.filter fun event => event.peerUUID = uuid).map Event.type

end PeerManager

def lifecycleEvent (i : Nat) : EventType :=
  if i % 2 = 0 then .enter else .exit

def Alternates (types : List EventType) : Prop :=
  types = (List.range types.length).map lifecycleEvent

theorem Alternates.append {types : List EventType} (htypes : Alternates types) {type : EventType}
    (htype : type = lifecycleEvent types.length) : Alternates (types ++ [type]) := by
  rw [Alternates, List.length_append, List.length_singleton, List.range_succ, List.map_append,
    ← htypes, htype]
  rfl

theorem Alternates.getLast?_eq_enter_iff {types : List EventType} (htypes : Alternates types) :
    types.getLast? = some .enter ↔ types.length % 2 = 1 := by
  rw [htypes, List.length_map, List.length_range]
  rcases types.length with _ | n
  · simp
  · rw [List.range_succ, List.map_append, List.map_singleton, List.getLast?_concat]
    rcases Nat.mod_two_eq_zero_or_one n with heven | hodd
    · rw [lifecycleEvent, if_pos heven]
      exact iff_of_true rfl (by omega)
    · rw [lifecycleEvent, if_neg (by omega)]
      exact iff_of_false nofun (by omega)

namespace PeerManager

/-- The events alternate, and the peer is known exactly when the last one is ENTER. -/
def Tracks (pm : PeerManager) (uuid : Bytes) : Prop :=
  Alternates (pm.eventTypes uuid) ∧
    (uuid ∈ pm.peers ↔ (pm.eventTypes uuid).getLast? = some .enter)

variable {pm pm' : PeerManager} {uuid : Bytes}

/-- What one step does: the known peers and the events stay as they are, or one peer
comes with ENTER, or one peer goes with EXIT. -/
inductive Change (pm pm' : PeerManager) : Prop
  | same (hpublished : pm'.published = pm.published)
      (hpeers : ∀ uuid, uuid ∈ pm'.peers ↔ uuid ∈ pm.peers)
  | enter (event : Event) (htype : event.type = .enter) (hnew : event.peerUUID ∉ pm.peers)
      (hpublished : pm'.published = pm.published ++ [event])
      (hpeers : ∀ uuid, uuid ∈ pm'.peers ↔ uuid = event.peerUUID ∨ uuid ∈ pm.peers)
  | exit (event : Event) (htype : event.type = .exit) (hknown : event.peerUUID ∈ pm.peers)
      (hpublished : pm'.published = pm.published ++ [event])
      (hpeers : ∀ uuid, uuid ∈ pm'.peers ↔ uuid ≠ event.peerUUID ∧ uuid ∈ pm.peers)

theorem change_refl (pm : PeerManager) : Change pm pm :=
  .same rfl fun _ => Iff.rfl

theorem mem_of_lookup {peer : Peer} (hpeer : pm.peers.lookup uuid = some peer) :
    uuid ∈ pm.peers :=
  AList.lookup_isSome.mp (by rw [hpeer]; rfl)

theorem change_remove {peer : Peer} (hpeer : pm.peers.lookup uuid = some peer) (now : Int) :
    Change pm (pm.remove uuid peer now) :=
  .exit (newExitEvent uuid peer.name peer.endpoint now) rfl (mem_of_lookup hpeer) rfl
    fun _ => AList.mem_erase

theorem change_update {peer : Peer} (hpeer : pm.peers.lookup uuid = some peer) (peer' : Peer) :
    Change pm { pm with peers := pm.peers.insert uuid peer' } := by
  refine .same rfl fun other => ?_
  rw [AList.mem_insert, or_iff_right_iff_imp]
  rintro rfl
  exact mem_of_lookup hpeer

theorem change_checkPeer (uuid : Bytes) (now : Int) : Change pm (pm.checkPeer uuid now) := by
  unfold checkPeer
  split
  · next peer hpeer =>
      split
      · exact change_remove hpeer now
      · exact change_refl pm
  · exact change_refl pm

theorem change_checking (hchange : Change pm pm') (checking : Option (List Bytes)) :
    Change pm { pm' with checking } := by
  cases hchange with
  | same hpublished hpeers => exact .same hpublished hpeers
  | enter event htype hnew hpublished hpeers => exact .enter event htype hnew hpublished hpeers
  | exit event htype hknown hpublished hpeers => exact .exit event htype hknown hpublished hpeers

theorem change_step {action : Action} (hstep : pm.step action = some pm') : Change pm pm' := by
  cases action with
  | handleDiscovery discovery started now =>
    obtain ⟨-, ⟨⟩⟩ := Option.ite_none_right_eq_some.mp hstep
    unfold handleDiscovery
    dsimp only
    split
    · split
      · next peer hpeer => exact change_remove hpeer now
      · exact change_refl pm
    · split
      · next peer hpeer => exact change_update hpeer _
      · next hnone =>
          split
          · exact .enter (newEnterEvent (hexString discovery.uuid) _ _ _ now) rfl
              (AList.lookup_eq_none.mp hnone) rfl fun _ => AList.mem_insert _
          · exact change_refl pm
  | checkExpiredPeers order =>
    obtain ⟨-, ⟨⟩⟩ := Option.ite_none_right_eq_some.mp hstep
    exact change_checking (change_refl pm) _
  | checkNext now =>
    simp only [step] at hstep
    split at hstep
    · cases hstep
    · cases hstep
      exact change_checking (change_refl pm) none
    · next uuid rest hchecking =>
        cases hstep
        exact change_checking (change_checkPeer uuid now) (some rest)
  | heartbeat uuid now =>
    cases hstep
    unfold heartbeat
    split
    · next peer hpeer => exact change_update hpeer _
    · exact change_refl pm

theorem eventTypes_append {event : Event} (hpublished : pm'.published = pm.published ++ [event]) :
    pm'.eventTypes uuid =
      pm.eventTypes uuid ++ if event.peerUUID = uuid then [event.type] else [] := by
  rw [eventTypes, hpublished, List.filter_append, List.map_append]
  split
  · next heq => simp [eventTypes, heq]
  · next hne => simp [eventTypes, hne]

theorem tracks_of_ne {event : Event} (hpm : pm.Tracks uuid) (hne : event.peerUUID ≠ uuid)
    (hpublished : pm'.published = pm.published ++ [event])
    (hpeers : uuid ∈ pm'.peers ↔ uuid ∈ pm.peers) : pm'.Tracks uuid := by
  rw [Tracks, eventTypes_append hpublished, if_neg hne, List.append_nil, hpeers]
  exact hpm

theorem tracks_change (hpm : pm.Tracks uuid) (hchange : Change pm pm') : pm'.Tracks uuid := by
  have ⟨halternates, hlast⟩ := hpm
  rw [halternates.getLast?_eq_enter_iff] at hlast
  cases hchange with
  | same hpublished hpeers =>
    rw [Tracks, eventTypes, hpublished, hpeers uuid]
    exact hpm
  | enter event htype hnew hpublished hpeers =>
    rcases eq_or_ne event.peerUUID uuid with rfl | hne
    · have heven : (pm.eventTypes event.peerUUID).length % 2 = 0 := by
        rw [hlast] at hnew
        omega
      rw [Tracks, eventTypes_append hpublished, if_pos rfl, htype, List.getLast?_concat]
      refine ⟨halternates.append ?_, iff_of_true ((hpeers _).mpr (Or.inl rfl)) rfl⟩
      rw [lifecycleEvent, if_pos heven]
    · refine tracks_of_ne hpm hne hpublished ((hpeers uuid).trans ?_)
      exact or_iff_right hne.symm
  | exit event htype hknown hpublished hpeers =>
    rcases eq_or_ne event.peerUUID uuid with rfl | hne
    · rw [hlast] at hknown
      rw [Tracks, eventTypes_append hpublished, if_pos rfl, htype, List.getLast?_concat]
      refine ⟨halternates.append ?_, iff_of_false (fun hmem => ((hpeers _).mp hmem).1 rfl) nofun⟩
      rw [lifecycleEvent, if_neg (by omega)]
    · refine tracks_of_ne hpm hne hpublished ((hpeers uuid).trans ?_)
      exact and_iff_right hne.symm

/-- In every state of every run: the events of each peer are ENTER and EXIT in turn,
and the peer is in the map exactly when the last one is ENTER. -/
theorem peer_events_alternate (expiration : Int) (actions : List Action) :
    Always step
      (fun pm => ∀ uuid : UUID, Alternates (pm.eventTypes (hexString uuid)) ∧
        (hexString uuid ∈ pm.peers ↔
          (pm.eventTypes (hexString uuid)).getLast? = some .enter))
      { newPeerManager with expiration } actions := by
  apply always_of_invariant
  · intro pm action pm' hpm hstep uuid
    exact tracks_change (hpm uuid) (change_step hstep)
  · intro uuid
    exact ⟨rfl, iff_of_false (AList.notMem_empty _) nofun⟩

end PeerManager

end Zmq4.ZyrePeers
