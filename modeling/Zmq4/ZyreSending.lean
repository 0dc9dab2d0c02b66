import Zmq4.ZyrePeers

/-!
Sending to peers (`Peer.Stop`, `Peer.Send` and the peer manager in `zyre/peer.go`, the
groups in `zyre/group.go`, the periodic pings in `zyre/discovery.go`).

Pointers to a peer are in the map of the peer manager, in the members of groups, and in
the copies that a broadcast and a round of pings go through.  Peers are numbered in the
order they were made, and a pointer is the number.
-/

namespace Zmq4.ZyreSending

open ByteCodec DuplexProgram ActionRuns KeyedMaps
open ZyrePeers (UUID hexString)

/-- How far `Stop` has come: the context is cancelled, the goroutines have returned,
the channels are closed. -/
inductive Phase
  | started
  | cancelled
  | disconnected
  | closed
  deriving DecidableEq

structure Peer where
  uuid : UUID
  phase : Phase := .started
  outgoing : Nat := 0
  commands : Nat := 0

/-- The case that a `select` takes if both are ready. -/
inductive Ready
  | channel
  | done
  deriving DecidableEq

def sendOnClosed : Stop :=
  .panicked "send on closed channel"

namespace Peer

def connected (p : Peer) : Bool :=
  p.phase = .started || p.phase = .cancelled

/-- The context is done once it is cancelled.  A message that does not fit is dropped. -/
def send (p : Peer) (ready : Ready) : Except Stop Peer :=
  if ready = .done ∧ p.phase ≠ .started then .ok p
  else if p.phase = .closed then .error sendOnClosed
  else if p.outgoing < 100 then .ok { p with outgoing := p.outgoing + 1 }
  else .ok p

def pingCommand (p : Peer) : Except Stop Peer :=
  if p.phase = .closed then .error sendOnClosed
  else if p.commands < 10 then .ok { p with commands := p.commands + 1 }
  else .ok p

end Peer

/-- `sending` has the members that the message loop has still to send to. -/
structure Group where
  members : KeyedMap Bytes Nat := ∅
  messages : Nat := 0
  sending : Option (List Nat) := none
  done : Bool := false

def Group.Holds (g : Group) (peer : Nat) : Prop :=
  (∃ uuid, g.members.lookup uuid = some peer) ∨ peer ∈ g.sending.getD []

/-- `stopping` is the peer that the peer manager stops, with its mutex locked.
`pinging` has the peers that the round of pings has still to come to, and `checked` the
one that it has found connected. -/
structure Network where
  heap : List Peer := []
  peers : KeyedMap Bytes Nat := ∅
  stopping : Option (Bytes × Nat) := none
  groups : KeyedMap Bytes Group := ∅
  pinging : Option (List Nat) := none
  checked : Option Nat := none
  crashed : Bool := false

inductive Action
  /-- `handleDiscovery` with an unknown peer that can be started. -/
  | enter (uuid : UUID)
  /-- `handleDiscovery` with port 0, or `checkExpiredPeers`, calls `Peer.Stop`. -/
  | depart (uuid : Bytes)
  | stopNext
  | joinGroup (group : Bytes) (peer : Nat)
  /-- `LeaveGroup`, or `CleanupExpiredPeers`. -/
  | removeMember (group uuid : Bytes)
  /-- `Group.Stop` cancels the context, and then waits for the loops. -/
  | cancelGroup (group : Bytes)
  | deleteGroup (group : Bytes)
  | sendToGroup (group : Bytes)
  | broadcastMessage (group : Bytes) (order : List Bytes)
  | broadcastNext (group : Bytes) (ready : Ready)
  | sendPeriodicHeartbeats (order : List Bytes)
  | pingCheck
  | pingSend
  /-- The command loop of a peer sends a PING. -/
  | serveCommand (peer : Nat) (ready : Ready)
  /-- The outgoing loop of a peer takes a message. -/
  | takeOutgoing (peer : Nat)

namespace Network

def setPeer (s : Network) (peer : Nat) (p : Peer) : Network :=
  { s with heap := s.heap.set peer p }

def setGroup (s : Network) (name : Bytes) (g : Group) : Network :=
  { s with groups := s.groups.insert name g }

def sends (s : Network) (peer : Nat) (send : Peer → Except Stop Peer) : Network :=
  match s.heap[peer]? with
  | none => s
  | some p =>
    match send p with
    | .error _ => { s with crashed := true }
    | .ok p => s.setPeer peer p

def stopped (s : Network) (uuid : Bytes) : Network :=
  { s with
    peers := s.peers.erase uuid
    stopping := none }

def stopNext (s : Network) (uuid : Bytes) (peer : Nat) (p : Peer) : Network :=
  match p.phase with
  | .started => s.setPeer peer { p with phase := .cancelled }
  | .cancelled => s.setPeer peer { p with phase := .disconnected }
  | .disconnected => (s.setPeer peer { p with phase := .closed }).stopped uuid
  | .closed => s.stopped uuid

def addMember (s : Network) (name : Bytes) (g : Group) (peer : Nat) (p : Peer) : Network :=
  s.setGroup name { g with members := g.members.insert (hexString p.uuid) peer }

def broadcastNext (s : Network) (name : Bytes) (g : Group) (ready : Ready) : List Nat → Network
  | [] => s.setGroup name { g with sending := none }
  | peer :: rest =>
    if g.done then s.setGroup name { g with sending := none }
    else (s.setGroup name { g with sending := some rest }).sends peer (·.send ready)

def pingCheck (s : Network) : List Nat → Network
  | [] => { s with pinging := none }
  | peer :: rest =>
    if (s.heap[peer]?).any Peer.connected then
      { s with
        pinging := some rest
        checked := some peer }
    else { s with pinging := some rest }

def act (s : Network) : Action → Option Network
  | .enter uuid =>
    if s.stopping = none ∧ hexString uuid ∉ s.peers then
      some { s with
        heap := s.heap ++ [{ uuid }]
        peers := s.peers.insert (hexString uuid) s.heap.length }
    else none
  | .depart uuid =>
    if s.stopping = none then
      (s.peers.lookup uuid).map fun peer => { s with stopping := some (uuid, peer) }
    else none
  | .stopNext =>
    s.stopping.bind fun (uuid, peer) => (s.heap[peer]?).map (s.stopNext uuid peer)
  | .joinGroup name peer =>
    (s.heap[peer]?).bind fun p =>
      let g := (s.groups.lookup name).getD {}
      if g.done then none else some (s.addMember name g peer p)
  | .removeMember name uuid =>
    (s.groups.lookup name).map fun g =>
      s.setGroup name { g with members := g.members.erase uuid }
  | .cancelGroup name =>
    (s.groups.lookup name).map fun g => s.setGroup name { g with done := true }
  | .deleteGroup name =>
    (s.groups.lookup name).bind fun g =>
      if g.done ∧ g.sending = none then some { s with groups := s.groups.erase name } else none
  | .sendToGroup name =>
    (s.groups.lookup name).map fun g =>
      if g.messages < 1000 then s.setGroup name { g with messages := g.messages + 1 } else s
  | .broadcastMessage name order =>
    (s.groups.lookup name).bind fun g =>
      if 0 < g.messages ∧ g.sending = none then
        some (s.setGroup name { g with
          messages := g.messages - 1
          sending := some ((ranged order g.members).map Prod.snd) })
      else none
  | .broadcastNext name ready =>
    (s.groups.lookup name).bind fun g => g.sending.map (s.broadcastNext name g ready)
  | .sendPeriodicHeartbeats order =>
    if s.stopping = none ∧ s.pinging = none then
      some { s with pinging := some ((ranged order s.peers).map Prod.snd) }
    else none
  | .pingCheck => if s.checked = none then s.pinging.map s.pingCheck else none
  | .pingSend =>
    s.checked.map fun peer => { s with checked := none }.sends peer Peer.pingCommand
  | .serveCommand peer ready =>
    (s.heap[peer]?).bind fun p =>
      if p.connected ∧ 0 < p.commands then
        some ((s.setPeer peer { p with commands := p.commands - 1 }).sends peer (·.send ready))
      else none
  | .takeOutgoing peer =>
    (s.heap[peer]?).bind fun p =>
      if p.connected ∧ 0 < p.outgoing then
        some (s.setPeer peer { p with outgoing := p.outgoing - 1 })
      else none

def step (s : Network) (action : Action) : Option Network :=
  if s.crashed then none else s.act action

def Closed (s : Network) (peer : Nat) : Prop :=
  ∃ p, s.heap[peer]? = some p ∧ p.phase = .closed

/-- Each peer that is sent to is open, unless the `select` of `Send` takes the case of
the context. -/
def Open (s : Network) : Action → Prop
  | .broadcastNext name ready =>
    ∀ g peer rest, s.groups.lookup name = some g → g.sending = some (peer :: rest) →
      g.done = false → s.Closed peer → ready = .done
  | .pingSend => ∀ peer, s.checked = some peer → ¬ s.Closed peer
  | .enter _ | .depart _ | .stopNext | .joinGroup _ _ | .removeMember _ _ | .cancelGroup _
  | .deleteGroup _ | .sendToGroup _ | .broadcastMessage _ _ | .sendPeriodicHeartbeats _
  | .pingCheck | .serveCommand _ _ | .takeOutgoing _ => True

variable {s s' : Network} {action : Action}

variable {ready : Ready} {left : List Nat}

section Panics

variable {p : Peer}

theorem send_eq_error_iff :
    (∃ stop, p.send ready = .error stop) ↔ p.phase = .closed ∧ ready ≠ .done := by
  unfold Peer.send
  split
  · next hdone =>
      apply iff_of_false
      · rintro ⟨_, herror⟩
        cases herror
      · exact fun hclosed => hclosed.2 hdone.1
  · next hchannel =>
      split
      · next hclosed =>
          refine iff_of_true ⟨_, rfl⟩ ⟨hclosed, fun hdone => hchannel ⟨hdone, ?_⟩⟩
          rw [hclosed]
          exact nofun
      · next hopen =>
          refine iff_of_false ?_ fun hclosed => hopen hclosed.1
          split <;> exact fun ⟨_, herror⟩ => nomatch herror

theorem pingCommand_eq_error_iff : (∃ stop, p.pingCommand = .error stop) ↔ p.phase = .closed := by
  unfold Peer.pingCommand
  split
  · next hclosed => exact iff_of_true ⟨_, rfl⟩ hclosed
  · next hopen =>
      refine iff_of_false ?_ hopen
      split <;> exact fun ⟨_, herror⟩ => nomatch herror

variable {peer : Nat}

theorem crashed_sends_iff {send : Peer → Except Stop Peer} (hs : s.crashed = false) :
    (s.sends peer send).crashed = false ↔
      ∀ p, s.heap[peer]? = some p → ¬ ∃ stop, send p = .error stop := by
  unfold sends
  split
  · next hnone =>
      refine iff_of_true hs fun p hp => ?_
      rw [hnone] at hp
      cases hp
  · next p hp =>
      split
      · next stop herror =>
          refine iff_of_false nofun fun hopen => hopen p hp ⟨stop, herror⟩
      · next p' hok =>
          refine iff_of_true hs ?_
          rintro other hother ⟨stop, herror⟩
          rw [hp] at hother
          cases hother
          rw [hok] at herror
          cases herror

theorem not_closed_of_connected (hconnected : p.connected = true) : p.phase ≠ .closed := by
  intro hclosed
  rw [Peer.connected, hclosed] at hconnected
  cases hconnected

theorem crashed_broadcastNext_iff {name : Bytes} {g : Group} (hs : s.crashed = false)
    (hgroup : s.groups.lookup name = some g) (hsending : g.sending = some left) :
    (s.broadcastNext name g ready left).crashed = false ↔ s.Open (.broadcastNext name ready) := by
  have hopen : s.Open (.broadcastNext name ready) ↔
      ∀ peer rest, left = peer :: rest → g.done = false → s.Closed peer → ready = .done := by
    constructor
    · exact fun hopen peer rest hleft => hopen g peer rest hgroup (hleft ▸ hsending)
    · intro hopen other peer rest hother hleft
      rw [hgroup] at hother
      cases hother
      rw [hsending] at hleft
      exact hopen peer rest (Option.some.inj hleft)
  rw [hopen]
  cases left with
  | nil => exact iff_of_true hs fun _ _ => nofun
  | cons peer rest =>
    unfold broadcastNext
    dsimp only
    split
    · next hdone =>
        refine iff_of_true hs ?_
        rintro _ _ ⟨⟩ hrunning
        rw [hdone] at hrunning
        cases hrunning
    · next hrunning =>
        rw [crashed_sends_iff (s := s.setGroup name { g with sending := some rest }) hs]
        constructor
        · rintro hsafe _ _ ⟨⟩ - ⟨p, hp, hclosed⟩
          by_contra hready
          exact hsafe p hp (send_eq_error_iff.mpr ⟨hclosed, hready⟩)
        · intro hdone p hp herror
          obtain ⟨hclosed, hready⟩ := send_eq_error_iff.mp herror
          exact hready (hdone peer rest rfl (Bool.not_eq_true _ ▸ hrunning) ⟨p, hp, hclosed⟩)

theorem crashed_pingSend_iff (hs : s.crashed = false) (hchecked : s.checked = some peer) :
    ({ s with checked := none }.sends peer Peer.pingCommand).crashed = false ↔
      s.Open .pingSend := by
  rw [crashed_sends_iff (s := { s with checked := none }) hs]
  constructor
  · rintro hsafe other hother ⟨p, hp, hclosed⟩
    rw [hchecked] at hother
    cases hother
    exact hsafe p hp (pingCommand_eq_error_iff.mpr hclosed)
  · intro hopen p hp herror
    exact hopen peer hchecked ⟨p, hp, pingCommand_eq_error_iff.mp herror⟩

theorem crashed_stopNext (uuid : Bytes) (peer : Nat) (p : Peer) :
    (s.stopNext uuid peer p).crashed = s.crashed := by
  unfold stopNext
  split <;> rfl

theorem crashed_pingCheck (left : List Nat) : (s.pingCheck left).crashed = s.crashed := by
  cases left with
  | nil => rfl
  | cons peer rest =>
    unfold pingCheck
    dsimp only
    split <;> rfl

theorem crashed_serveCommand (ready : Ready) (hs : s.crashed = false) (hp : s.heap[peer]? = some p)
    (hconnected : p.connected = true) :
    ((s.setPeer peer { p with commands := p.commands - 1 }).sends peer
      (·.send ready)).crashed = false := by
  rw [crashed_sends_iff (s := s.setPeer peer { p with commands := p.commands - 1 }) hs]
  intro other hother herror
  have hlt := (List.getElem?_eq_some_iff.mp hp).1
  change (s.heap.set peer _)[peer]? = some other at hother
  rw [List.getElem?_set_self hlt] at hother
  cases hother
  exact not_closed_of_connected hconnected (send_eq_error_iff.mp herror).1

theorem crashed_act_iff (hs : s.crashed = false) (hact : s.act action = some s') :
    s'.crashed = false ↔ s.Open action := by
  cases action with
  | enter | sendPeriodicHeartbeats =>
    obtain ⟨-, ⟨⟩⟩ := Option.ite_none_right_eq_some.mp hact
    exact iff_of_true hs trivial
  | depart uuid =>
    obtain ⟨-, hmap⟩ := Option.ite_none_right_eq_some.mp hact
    obtain ⟨peer, -, rfl⟩ := Option.map_eq_some_iff.mp hmap
    exact iff_of_true hs trivial
  | stopNext =>
    obtain ⟨⟨uuid, peer⟩, -, hmap⟩ := Option.bind_eq_some_iff.mp hact
    obtain ⟨p, -, rfl⟩ := Option.map_eq_some_iff.mp hmap
    rw [crashed_stopNext]
    exact iff_of_true hs trivial
  | joinGroup name peer =>
    obtain ⟨p, -, hjoin⟩ := Option.bind_eq_some_iff.mp hact
    obtain ⟨-, ⟨⟩⟩ := Option.ite_none_left_eq_some.mp hjoin
    exact iff_of_true hs trivial
  | removeMember | cancelGroup =>
    obtain ⟨g, -, rfl⟩ := Option.map_eq_some_iff.mp hact
    exact iff_of_true hs trivial
  | deleteGroup name =>
    obtain ⟨g, -, hdelete⟩ := Option.bind_eq_some_iff.mp hact
    obtain ⟨-, ⟨⟩⟩ := Option.ite_none_right_eq_some.mp hdelete
    exact iff_of_true hs trivial
  | sendToGroup name =>
    obtain ⟨g, -, rfl⟩ := Option.map_eq_some_iff.mp hact
    refine iff_of_true ?_ trivial
    split <;> exact hs
  | broadcastMessage name order =>
    obtain ⟨g, -, hbroadcast⟩ := Option.bind_eq_some_iff.mp hact
    obtain ⟨-, ⟨⟩⟩ := Option.ite_none_right_eq_some.mp hbroadcast
    exact iff_of_true hs trivial
  | broadcastNext name ready =>
    obtain ⟨g, hgroup, hmap⟩ := Option.bind_eq_some_iff.mp hact
    obtain ⟨left, hsending, rfl⟩ := Option.map_eq_some_iff.mp hmap
    exact crashed_broadcastNext_iff hs hgroup hsending
  | pingCheck =>
    obtain ⟨-, hmap⟩ := Option.ite_none_right_eq_some.mp hact
    obtain ⟨left, -, rfl⟩ := Option.map_eq_some_iff.mp hmap
    rw [crashed_pingCheck]
    exact iff_of_true hs trivial
  | pingSend =>
    obtain ⟨peer, hchecked, rfl⟩ := Option.map_eq_some_iff.mp hact
    exact crashed_pingSend_iff hs hchecked
  | serveCommand peer ready =>
    obtain ⟨p, hp, hserve⟩ := Option.bind_eq_some_iff.mp hact
    obtain ⟨⟨hconnected, -⟩, ⟨⟩⟩ := Option.ite_none_right_eq_some.mp hserve
    exact iff_of_true (crashed_serveCommand ready hs hp hconnected) trivial
  | takeOutgoing peer =>
    obtain ⟨p, -, htake⟩ := Option.bind_eq_some_iff.mp hact
    obtain ⟨-, ⟨⟩⟩ := Option.ite_none_right_eq_some.mp htake
    exact iff_of_true hs trivial

end Panics

section Discipline

def Used (s : Network) (peer : Nat) : Prop :=
  (∃ name g, s.groups.lookup name = some g ∧ g.Holds peer) ∨ peer ∈ s.pinging.getD [] ∨
    s.checked = some peer

/-- A peer is closed only when nobody may send to it, and it does not join a group
after that. -/
def Kept (s : Network) : Action → Prop
  | .stopNext =>
    ∀ uuid peer p, s.stopping = some (uuid, peer) → s.heap[peer]? = some p →
      p.phase = .disconnected → ¬ s.Used peer
  | .joinGroup _ peer => ¬ s.Closed peer
  | .enter _ | .depart _ | .removeMember _ _ | .cancelGroup _ | .deleteGroup _ | .sendToGroup _
  | .broadcastMessage _ _ | .broadcastNext _ _ | .sendPeriodicHeartbeats _ | .pingCheck
  | .pingSend | .serveCommand _ _ | .takeOutgoing _ => True

/-- No pointer leads to a peer that is closed. -/
structure Sound (s : Network) : Prop where
  used : ∀ peer, s.Used peer → ¬ s.Closed peer
  known : ∀ uuid peer, s.peers.lookup uuid = some peer → ¬ s.Closed peer
  keyed : ∀ uuid peer, s.peers.lookup uuid = some peer →
    ∃ p, s.heap[peer]? = some p ∧ hexString p.uuid = uuid
  stopping : ∀ uuid peer, s.stopping = some (uuid, peer) → s.peers.lookup uuid = some peer

/-- No peer is closed, and the peer manager has the same peers. -/
structure Follows (s s' : Network) : Prop where
  closed : ∀ peer, s'.Closed peer → s.Closed peer
  uuid : ∀ (peer : Nat) (p : Peer), s.heap[peer]? = some p →
    ∃ p' : Peer, s'.heap[peer]? = some p' ∧ p'.uuid = p.uuid
  peers : s'.peers = s.peers
  stopping : s'.stopping = s.stopping

theorem follows_of_heap (hheap : s'.heap = s.heap) (hpeers : s'.peers = s.peers)
    (hstopping : s'.stopping = s.stopping) : Follows s s' where
  closed := by
    intro peer hclosed
    rw [Closed, hheap] at hclosed
    exact hclosed
  uuid := by
    intro peer p hp
    exact ⟨p, hheap ▸ hp, rfl⟩
  peers := hpeers
  stopping := hstopping

theorem Follows.trans {t : Network} (hfirst : Follows s s') (hsecond : Follows s' t) :
    Follows s t where
  closed := fun peer hclosed => hfirst.closed peer (hsecond.closed peer hclosed)
  uuid := by
    intro peer p hp
    obtain ⟨p', hp', huuid'⟩ := hfirst.uuid peer p hp
    obtain ⟨p'', hp'', huuid''⟩ := hsecond.uuid peer p' hp'
    exact ⟨p'', hp'', huuid''.trans huuid'⟩
  peers := hsecond.peers.trans hfirst.peers
  stopping := hsecond.stopping.trans hfirst.stopping

variable {peer : Nat} {p : Peer} {send : Peer → Except Stop Peer} {name uuid : Bytes} {g : Group}
  {p' : Peer}

theorem follows_setPeer (hp : s.heap[peer]? = some p)
    (hphase : p'.phase = .closed → p.phase = .closed) (huuid : p'.uuid = p.uuid) :
    Follows s (s.setPeer peer p') where
  closed := by
    rintro other ⟨q, hq, hclosed⟩
    change (s.heap.set peer p')[other]? = some q at hq
    rcases eq_or_ne peer other with rfl | hne
    · rw [List.getElem?_set_self (List.getElem?_eq_some_iff.mp hp).1] at hq
      cases hq
      exact ⟨p, hp, hphase hclosed⟩
    · rw [List.getElem?_set_ne hne] at hq
      exact ⟨q, hq, hclosed⟩
  uuid := by
    intro other q hq
    change ∃ q', (s.heap.set peer p')[other]? = some q' ∧ q'.uuid = q.uuid
    rcases eq_or_ne peer other with rfl | hne
    · rw [hp] at hq
      cases hq
      exact ⟨p', List.getElem?_set_self (List.getElem?_eq_some_iff.mp hp).1, huuid⟩
    · exact ⟨q, (List.getElem?_set_ne hne).trans hq, rfl⟩
  peers := rfl
  stopping := rfl

theorem send_eq_ok (hsend : p.send ready = .ok p') : p'.phase = p.phase ∧ p'.uuid = p.uuid := by
  unfold Peer.send at hsend
  split at hsend
  · cases hsend
    exact ⟨rfl, rfl⟩
  · split at hsend
    · cases hsend
    · split at hsend <;> cases hsend <;> exact ⟨rfl, rfl⟩

theorem pingCommand_eq_ok (hsend : p.pingCommand = .ok p') :
    p'.phase = p.phase ∧ p'.uuid = p.uuid := by
  unfold Peer.pingCommand at hsend
  split at hsend
  · cases hsend
  · split at hsend <;> cases hsend <;> exact ⟨rfl, rfl⟩

theorem follows_sends (hsend : ∀ p p', send p = .ok p' → p'.phase = p.phase ∧ p'.uuid = p.uuid) :
    Follows s (s.sends peer send) := by
  unfold sends
  split
  · exact follows_of_heap rfl rfl rfl
  · next p hp =>
      split
      · exact follows_of_heap rfl rfl rfl
      · next p' hok =>
          obtain ⟨hphase, huuid⟩ := hsend p p' hok
          exact follows_setPeer hp (fun hclosed => hphase ▸ hclosed) huuid

theorem used_sends {other : Nat} (hused : (s.sends peer send).Used other) : s.Used other := by
  unfold sends at hused
  split at hused
  · exact hused
  · split at hused <;> exact hused

theorem used_setGroup (hused : (s.setGroup name g).Used peer) : s.Used peer ∨ g.Holds peer := by
  rcases hused with ⟨other, held, hlookup, hholds⟩ | hping
  · change (s.groups.insert name g).lookup other = some held at hlookup
    rw [lookup_insert_eq] at hlookup
    split at hlookup
    · cases hlookup
      exact Or.inr hholds
    · exact Or.inl (Or.inl ⟨other, held, hlookup, hholds⟩)
  · exact Or.inl (Or.inr hping)

theorem Sound.of_follows (hs : s.Sound) (hfollows : Follows s s')
    (hused : ∀ peer, s'.Used peer → ¬ s.Closed peer) : s'.Sound where
  used := fun peer hpeer hclosed => hused peer hpeer (hfollows.closed peer hclosed)
  known := by
    intro uuid peer hpeer hclosed
    rw [hfollows.peers] at hpeer
    exact hs.known uuid peer hpeer (hfollows.closed peer hclosed)
  keyed := by
    intro uuid peer hpeer
    rw [hfollows.peers] at hpeer
    obtain ⟨p, hp, huuid⟩ := hs.keyed uuid peer hpeer
    obtain ⟨p', hp', huuid'⟩ := hfollows.uuid peer p hp
    exact ⟨p', hp', huuid' ▸ huuid⟩
  stopping := by
    intro uuid peer hpeer
    rw [hfollows.stopping] at hpeer
    rw [hfollows.peers]
    exact hs.stopping uuid peer hpeer

theorem Sound.of_group {g' : Group} (hs : s.Sound) (hgroup : s.groups.lookup name = some g)
    (hless : ∀ peer, g'.Holds peer → g.Holds peer) :
    (s.setGroup name g').Sound :=
  hs.of_follows (follows_of_heap rfl rfl rfl) fun peer hused =>
    hs.used peer ((used_setGroup hused).elim id fun hholds =>
      Or.inl ⟨name, g, hgroup, hless peer hholds⟩)

theorem Sound.of_pings (hs : s.Sound) {pinging : Option (List Nat)} {checked : Option Nat}
    (hpinging : ∀ peer ∈ pinging.getD [], ¬ s.Closed peer)
    (hchecked : ∀ peer, checked = some peer → ¬ s.Closed peer) :
    Sound { s with pinging, checked } := by
  refine hs.of_follows (follows_of_heap rfl rfl rfl) ?_
  rintro peer (hgroup | hping | hcheck)
  · exact hs.used peer (Or.inl hgroup)
  · exact hpinging peer hping
  · exact hchecked peer hcheck

theorem sound_enter (hs : s.Sound) (hstopping : s.stopping = none) (uuid : UUID) :
    Sound { s with
      heap := s.heap ++ [{ uuid }]
      peers := s.peers.insert (hexString uuid) s.heap.length } := by
  have hclosed : ∀ peer, Closed { s with
      heap := s.heap ++ [{ uuid }]
      peers := s.peers.insert (hexString uuid) s.heap.length } peer →
      s.Closed peer ∧ peer < s.heap.length := by
    rintro peer ⟨p, hp, hclosed⟩
    dsimp only at hp
    rw [List.getElem?_append] at hp
    split at hp
    · next hlt => exact ⟨⟨p, hp, hclosed⟩, hlt⟩
    · rw [List.getElem?_singleton] at hp
      obtain ⟨-, ⟨⟩⟩ := Option.ite_none_right_eq_some.mp hp
      cases hclosed
  refine ⟨fun peer hused hbad => hs.used peer hused (hclosed peer hbad).1, ?_, ?_, ?_⟩
  · intro other peer hpeer hbad
    dsimp only at hpeer
    rw [lookup_insert_eq] at hpeer
    split at hpeer
    · cases hpeer
      exact lt_irrefl _ (hclosed _ hbad).2
    · exact hs.known other peer hpeer (hclosed peer hbad).1
  · intro other peer hpeer
    dsimp only at hpeer ⊢
    rw [lookup_insert_eq] at hpeer
    split at hpeer
    · next heq =>
        cases hpeer
        exact ⟨{ uuid }, List.getElem?_concat_length, heq.symm⟩
    · obtain ⟨p, hp, huuid⟩ := hs.keyed other peer hpeer
      have hlt := (List.getElem?_eq_some_iff.mp hp).1
      exact ⟨p, (List.getElem?_append_left hlt).trans hp, huuid⟩
  · intro other peer hpeer
    dsimp only at hpeer
    rw [hstopping] at hpeer
    cases hpeer

theorem lookup_stopped {other : Bytes} (hpeer : (s.stopped uuid).peers.lookup other = some peer) :
    other ≠ uuid ∧ s.peers.lookup other = some peer := by
  change (s.peers.erase uuid).lookup other = some peer at hpeer
  rw [lookup_erase_eq] at hpeer
  exact Option.ite_none_left_eq_some.mp hpeer

theorem sound_close (hs : s.Sound) (hpeer : s.peers.lookup uuid = some peer)
    (hp : s.heap[peer]? = some p) (hunused : ¬ s.Used peer) :
    ((s.setPeer peer { p with phase := .closed }).stopped uuid).Sound := by
  have hlt := (List.getElem?_eq_some_iff.mp hp).1
  have hclosed : ∀ other, Closed ((s.setPeer peer { p with phase := .closed }).stopped uuid) other →
      other = peer ∨ s.Closed other := by
    rintro other ⟨q, hq, hphase⟩
    change (s.heap.set peer _)[other]? = some q at hq
    rcases eq_or_ne peer other with rfl | hne
    · exact Or.inl rfl
    · rw [List.getElem?_set_ne hne] at hq
      exact Or.inr ⟨q, hq, hphase⟩
  have hname : ∀ other, s.peers.lookup other = some peer → other = uuid := by
    intro other hother
    obtain ⟨q, hq, rfl⟩ := hs.keyed other peer hother
    obtain ⟨q', hq', rfl⟩ := hs.keyed uuid peer hpeer
    rw [hq] at hq'
    cases hq'
    rfl
  refine ⟨?_, ?_, ?_, nofun⟩
  · intro other hused hbad
    rcases hclosed other hbad with rfl | hbad'
    · exact hunused hused
    · exact hs.used other hused hbad'
  · intro other known hknown hbad
    obtain ⟨hne, hlookup⟩ := lookup_stopped hknown
    rcases hclosed known hbad with rfl | hbad'
    · exact hne (hname other hlookup)
    · exact hs.known other known hlookup hbad'
  · intro other known hknown
    obtain ⟨hne, hlookup⟩ := lookup_stopped hknown
    obtain ⟨q, hq, huuid⟩ := hs.keyed other known hlookup
    have hother : peer ≠ known := by
      rintro rfl
      exact hne (hname other hlookup)
    exact ⟨q, (List.getElem?_set_ne hother).trans hq, huuid⟩

theorem sound_stopNext (hs : s.Sound) (hkept : s.Kept .stopNext)
    (hstopping : s.stopping = some (uuid, peer)) (hp : s.heap[peer]? = some p) :
    (s.stopNext uuid peer p).Sound := by
  unfold stopNext
  split
  · exact hs.of_follows (follows_setPeer hp nofun rfl) hs.used
  · exact hs.of_follows (follows_setPeer hp nofun rfl) hs.used
  · next hphase =>
      have hunused := hkept uuid peer p hstopping hp hphase
      exact sound_close hs (hs.stopping uuid peer hstopping) hp hunused
  · exact
      { used := hs.used
        known := fun other peer hpeer => hs.known other peer (lookup_stopped hpeer).2
        keyed := fun other peer hpeer => hs.keyed other peer (lookup_stopped hpeer).2
        stopping := nofun }

theorem sound_joinGroup (hs : s.Sound) (hopen : ¬ s.Closed peer) (p : Peer) :
    (s.addMember name ((s.groups.lookup name).getD {}) peer p).Sound := by
  refine hs.of_follows (follows_of_heap rfl rfl rfl) ?_
  intro other hused
  rcases used_setGroup hused with hbefore | ⟨uuid, hmember⟩ | hsending
  · exact hs.used other hbefore
  · dsimp only at hmember
    rw [lookup_insert_eq] at hmember
    split at hmember
    · cases hmember
      exact hopen
    · rcases hgroup : s.groups.lookup name with _ | g
      · rw [hgroup] at hmember
        cases hmember
      · rw [hgroup] at hmember
        exact hs.used other (Or.inl ⟨name, g, hgroup, Or.inl ⟨uuid, hmember⟩⟩)
  · rcases hgroup : s.groups.lookup name with _ | g
    · rw [hgroup] at hsending
      cases hsending
    · rw [hgroup] at hsending
      exact hs.used other (Or.inl ⟨name, g, hgroup, Or.inr hsending⟩)

theorem sound_broadcastNext (hs : s.Sound) (hgroup : s.groups.lookup name = some g)
    (hsending : g.sending = some left) :
    (s.broadcastNext name g ready left).Sound := by
  have hdrop : (s.setGroup name { g with sending := none }).Sound :=
    hs.of_group hgroup fun peer hholds => Or.inl (hholds.resolve_right List.not_mem_nil)
  cases left with
  | nil => exact hdrop
  | cons peer rest =>
    unfold broadcastNext
    dsimp only
    split
    · exact hdrop
    · have hrest : (s.setGroup name { g with sending := some rest }).Sound := by
        refine hs.of_group hgroup fun other hholds => hholds.imp_right fun hmem => ?_
        rw [hsending]
        exact List.mem_cons_of_mem peer hmem
      exact hrest.of_follows (follows_sends fun _ _ => send_eq_ok) fun other hused =>
        hrest.used other (used_sends hused)

theorem sound_pingCheck (hs : s.Sound) (hpinging : s.pinging = some left) :
    (s.pingCheck left).Sound := by
  have hmem : ∀ peer ∈ left, ¬ s.Closed peer := by
    intro peer hpeer
    apply hs.used peer (Or.inr (Or.inl _))
    rw [hpinging]
    exact hpeer
  have hchecked : ∀ peer, s.checked = some peer → ¬ s.Closed peer := fun peer hcheck =>
    hs.used peer (Or.inr (Or.inr hcheck))
  cases left with
  | nil => exact hs.of_pings nofun hchecked
  | cons peer rest =>
    have hrest : ∀ other ∈ rest, ¬ s.Closed other := fun other hother =>
      hmem other (List.mem_cons_of_mem peer hother)
    unfold pingCheck
    dsimp only
    split
    · refine hs.of_pings hrest ?_
      rintro other ⟨⟩
      exact hmem peer List.mem_cons_self
    · exact hs.of_pings hrest hchecked

theorem sound_act (hs : s.Sound) (hkept : s.Kept action) (hact : s.act action = some s') :
    s'.Sound := by
  cases action with
  | enter uuid =>
    obtain ⟨⟨hstopping, -⟩, ⟨⟩⟩ := Option.ite_none_right_eq_some.mp hact
    exact sound_enter hs hstopping uuid
  | depart uuid =>
    obtain ⟨-, hmap⟩ := Option.ite_none_right_eq_some.mp hact
    obtain ⟨peer, hpeer, rfl⟩ := Option.map_eq_some_iff.mp hmap
    refine ⟨hs.used, hs.known, hs.keyed, ?_⟩
    rintro other known ⟨⟩
    exact hpeer
  | stopNext =>
    obtain ⟨⟨uuid, peer⟩, hstopping, hmap⟩ := Option.bind_eq_some_iff.mp hact
    obtain ⟨p, hp, rfl⟩ := Option.map_eq_some_iff.mp hmap
    exact sound_stopNext hs hkept hstopping hp
  | joinGroup name peer =>
    obtain ⟨p, -, hjoin⟩ := Option.bind_eq_some_iff.mp hact
    obtain ⟨-, ⟨⟩⟩ := Option.ite_none_left_eq_some.mp hjoin
    exact sound_joinGroup hs hkept p
  | removeMember name uuid =>
    obtain ⟨g, hgroup, rfl⟩ := Option.map_eq_some_iff.mp hact
    refine hs.of_group hgroup fun peer hholds => hholds.imp_left ?_
    rintro ⟨other, hother⟩
    dsimp only at hother
    rw [lookup_erase_eq] at hother
    exact ⟨other, (Option.ite_none_left_eq_some.mp hother).2⟩
  | cancelGroup name =>
    obtain ⟨g, hgroup, rfl⟩ := Option.map_eq_some_iff.mp hact
    exact hs.of_group hgroup fun peer hholds => hholds
  | deleteGroup name =>
    obtain ⟨g, -, hdelete⟩ := Option.bind_eq_some_iff.mp hact
    obtain ⟨-, ⟨⟩⟩ := Option.ite_none_right_eq_some.mp hdelete
    refine hs.of_follows (follows_of_heap rfl rfl rfl) ?_
    rintro peer (⟨other, held, hlookup, hholds⟩ | hping)
    · dsimp only at hlookup
      rw [lookup_erase_eq] at hlookup
      have hheld := (Option.ite_none_left_eq_some.mp hlookup).2
      exact hs.used peer (Or.inl ⟨other, held, hheld, hholds⟩)
    · exact hs.used peer (Or.inr hping)
  | sendToGroup name =>
    obtain ⟨g, hgroup, rfl⟩ := Option.map_eq_some_iff.mp hact
    split
    · exact hs.of_group hgroup fun peer hholds => hholds
    · exact hs
  | broadcastMessage name order =>
    obtain ⟨g, hgroup, hbroadcast⟩ := Option.bind_eq_some_iff.mp hact
    obtain ⟨-, ⟨⟩⟩ := Option.ite_none_right_eq_some.mp hbroadcast
    refine hs.of_group hgroup fun peer hholds => Or.inl ?_
    rcases hholds with hmember | hsnapshot
    · exact hmember
    · obtain ⟨⟨uuid, _⟩, hmem, rfl⟩ := List.mem_map.mp hsnapshot
      exact ⟨uuid, mem_ranged_iff.mp hmem⟩
  | broadcastNext name ready =>
    obtain ⟨g, hgroup, hmap⟩ := Option.bind_eq_some_iff.mp hact
    obtain ⟨left, hsending, rfl⟩ := Option.map_eq_some_iff.mp hmap
    exact sound_broadcastNext hs hgroup hsending
  | sendPeriodicHeartbeats order =>
    obtain ⟨-, ⟨⟩⟩ := Option.ite_none_right_eq_some.mp hact
    apply hs.of_pings
    · intro peer hping
      obtain ⟨⟨uuid, _⟩, hmem, rfl⟩ := List.mem_map.mp hping
      exact hs.known uuid _ (mem_ranged_iff.mp hmem)
    · exact fun peer hchecked => hs.used peer (Or.inr (Or.inr hchecked))
  | pingCheck =>
    obtain ⟨-, hmap⟩ := Option.ite_none_right_eq_some.mp hact
    obtain ⟨left, hpinging, rfl⟩ := Option.map_eq_some_iff.mp hmap
    exact sound_pingCheck hs hpinging
  | pingSend =>
    obtain ⟨peer, -, rfl⟩ := Option.map_eq_some_iff.mp hact
    have hidle : Follows s { s with checked := none } := follows_of_heap rfl rfl rfl
    refine hs.of_follows (hidle.trans (follows_sends fun _ _ => pingCommand_eq_ok)) ?_
    intro other hused
    rcases used_sends hused with hgroup | hping | hchecked
    · exact hs.used other (Or.inl hgroup)
    · exact hs.used other (Or.inr (Or.inl hping))
    · cases hchecked
  | serveCommand peer ready =>
    obtain ⟨p, hp, hserve⟩ := Option.bind_eq_some_iff.mp hact
    obtain ⟨-, ⟨⟩⟩ := Option.ite_none_right_eq_some.mp hserve
    have hserved : (s.setPeer peer { p with commands := p.commands - 1 }).Sound :=
      hs.of_follows (follows_setPeer hp id rfl) hs.used
    exact hserved.of_follows (follows_sends fun _ _ => send_eq_ok) fun other hused =>
      hserved.used other (used_sends hused)
  | takeOutgoing peer =>
    obtain ⟨p, hp, htake⟩ := Option.bind_eq_some_iff.mp hact
    obtain ⟨-, ⟨⟩⟩ := Option.ite_none_right_eq_some.mp htake
    exact hs.of_follows (follows_setPeer hp id rfl) hs.used

theorem open_of_sound (hs : s.Sound) (action : Action) : s.Open action := by
  cases action with
  | broadcastNext name ready =>
    intro g peer rest hgroup hsending _ hclosed
    refine absurd hclosed (hs.used peer (Or.inl ⟨name, g, hgroup, Or.inr ?_⟩))
    rw [hsending]
    exact List.mem_cons_self
  | pingSend =>
    intro peer hchecked
    exact hs.used peer (Or.inr (Or.inr hchecked))
  | enter _ | depart _ | stopNext | joinGroup _ _ | removeMember _ _ | cancelGroup _
  | deleteGroup _ | sendToGroup _ | broadcastMessage _ _ | sendPeriodicHeartbeats _
  | pingCheck | serveCommand _ _ | takeOutgoing _ => exact trivial

end Discipline

/-- No send of a run panics if and only if each peer that is sent to is open, or the
`select` of `Send` takes the case of the context.  That is so if each peer is out of the
groups, the broadcasts and the pings when it is closed, and stays out of the groups. -/
theorem sends_open_iff (actions : List Action) {t : Network} (hrun : run step {} actions = some t) :
    (Always step (fun s => s.crashed = false) {} actions ↔ Throughout step Open {} actions) ∧
      (Throughout step Kept {} actions → Throughout step Open {} actions) := by
  constructor
  · refine always_iff_throughout (J := fun _ => True) ?_ ?_ trivial rfl hrun
    · exact fun _ _ _ _ _ _ => trivial
    exact fun s action s' _ hs hstep => crashed_act_iff hs (Option.ite_none_left_eq_some.mp hstep).2
  · apply throughout_of_kept (I := Sound)
    · exact fun s action s' hs hkept hstep =>
        sound_act hs hkept (Option.ite_none_left_eq_some.mp hstep).2
    · exact fun s action hs _ => open_of_sound hs action
    · refine ⟨?_, nofun, nofun, nofun⟩
      rintro peer (⟨name, g, hgroup, -⟩ | hping | hchecked)
      · cases hgroup
      · cases hping
      · cases hchecked

end Network

section Example

def peerUUID : UUID where
  bytes := List.replicate 16 1
  length_eq := rfl

def departed : List Action :=
  [.enter peerUUID, .joinGroup [7] 0, .depart (hexString peerUUID), .stopNext, .stopNext, .stopNext]

theorem departed_open_iff :
    (Always Network.step (fun s => s.crashed = false) {} departed ↔
        Throughout Network.step Network.Open {} departed) ∧
      (Throughout Network.step Network.Kept {} departed →
        Throughout Network.step Network.Open {} departed) :=
  Network.sends_open_iff departed rfl

/-- Its group still has it as a member, so the next message to the group panics.  A
ping panics if the peer leaves after it was found connected. -/
theorem departed_peer_panics :
    (∃ s, run Network.step {}
        (departed ++ [.sendToGroup [7], .broadcastMessage [7] [], .broadcastNext [7] .channel]) =
          some s ∧ s.crashed = true) ∧
      ∃ s, run Network.step {}
        [.enter peerUUID, .sendPeriodicHeartbeats [], .pingCheck, .depart (hexString peerUUID),
          .stopNext, .stopNext, .stopNext, .pingSend] = some s ∧ s.crashed = true :=
  ⟨⟨_, rfl, rfl⟩, ⟨_, rfl, rfl⟩⟩

end Example

end Zmq4.ZyreSending
