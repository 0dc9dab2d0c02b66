import Mathlib.Data.List.AList
import Zmq4.ActionRuns
import Zmq4.SocketReaders

namespace Zmq4.Heartbeats

open ByteCodec ZmtpMessage ZmtpMetadata Connection SocketReaders ActionRuns

/-- `Time.Sub` on nanoseconds since the zero time: the difference saturates. -/
def timeSub (t u : Int) : Int :=
  max (-2 ^ 63) (min (2 ^ 63 - 1) (t - u))

structure Options where
  heartbeatIvl : Int
  heartbeatTtl : Int
  heartbeatTimeout : Int

inductive UpdateType where
  | connected
  | disconnected
  | pingSent
  | pongReceived
  | timeout
  | activityDetected
  deriving DecidableEq

structure Update (δ : Type) where
  updateType : UpdateType
  connID : δ
  timestamp : Int
  deriving DecidableEq

structure ConnState where
  lastActivity : Int
  lastPingSent : Int
  waitingForPong : Bool
  connected : Bool
  deriving DecidableEq

/-- A connection of the socket, with the messages its reader has taken, the times
at which it was sent a PING and what its peer has put on the wire when. -/
structure Peer (δ σ : Type) where
  connID : δ
  endpoint : Endpoint σ
  received : List Msg
  pings : List Int
  arrivals : List (Int × Bytes)

/-- `served` are the updates the manager has taken from its channel, and `calls`
the calls of `handleHeartbeatTimeout`. -/
structure Socket (δ σ : Type) where
  now : Int
  conns : List (Peer δ σ)
  heartbeatUpdateCh : List (Update δ)
  connections : AList fun _ : δ => ConnState
  served : List (Update δ)
  calls : List δ

def Socket.start (δ σ : Type) (now : Int) : Socket δ σ where
  now := now
  conns := []
  heartbeatUpdateCh := []
  connections := ∅
  served := []
  calls := []

inductive Action (δ σ : Type) where
  | addConn (connID : δ) (endpoint : Endpoint σ)
  | rmConn (i : Nat)
  /-- The peer puts bytes on the wire. -/
  | arrive (i : Nat) (bytes : Bytes)
  /-- The reader of a connection takes a message. -/
  | listen (i : Nat)
  /-- The manager takes an update from its channel. -/
  | serve
  /-- The ticker of the manager fires; `order` is that of the map iteration. -/
  | tick (order : List δ)
  | elapse (nanoseconds : Nat)

section Manager

variable {δ σ : Type}

def updateHeartbeatState (s : Socket δ σ) (updateType : UpdateType) (connID : δ) : Socket δ σ :=
  { s with
    heartbeatUpdateCh := s.heartbeatUpdateCh ++
      [{ updateType := updateType, connID := connID, timestamp := s.now }] }

variable [DecidableEq δ]

def applyUpdate (connections : AList fun _ : δ => ConnState) (update : Update δ) :
    AList fun _ : δ => ConnState :=
  let state := (connections.lookup update.connID).getD
    { lastActivity := update.timestamp, lastPingSent := 0, waitingForPong := false
      connected := true }
  match update.updateType with
  | .connected =>
    connections.insert update.connID
      { state with
        connected := true, lastActivity := update.timestamp, waitingForPong := false }
  | .disconnected => connections.erase update.connID
  | .pingSent =>
    connections.insert update.connID
      { state with lastPingSent := update.timestamp, waitingForPong := true }
  | .pongReceived =>
    connections.insert update.connID
      { state with waitingForPong := false, lastActivity := update.timestamp }
  | .activityDetected =>
    connections.insert update.connID { state with lastActivity := update.timestamp }
  | .timeout => connections.insert update.connID state

def onFirst (connID : δ) (change : Peer δ σ → Peer δ σ) : List (Peer δ σ) → List (Peer δ σ)
  | [] => []
  | peer :: rest =>
    if peer.connID = connID then change peer :: rest else peer :: onFirst connID change rest

/-- The time to live in tenths of a second, as sixteen bits. -/
def pingTtl (ttl : Int) : Nat :=
  (ttl.tdiv (100 * 1000000) % 2 ^ 16).toNat

variable (S : Security σ) (o : Options)

/-- A PING that cannot be written is reported as a `heartbeatTimeout`, for which
the manager has no case. -/
def sendHeartbeatPing (connID : δ) (s : Socket δ σ) : Option (Socket δ σ) :=
  match s.conns.find? fun peer => peer.connID = connID with
  | none => some s
  | some target =>
    if target.endpoint.conn.closed then some s
    else
      match (sendCmd S cmdPing (bigEndian 2 (pingTtl o.heartbeatTtl))).run target.endpoint with
      | .ok _ endpoint =>
        some (updateHeartbeatState
          { s with
            conns := onFirst connID
              (fun peer => { peer with endpoint := endpoint, pings := peer.pings ++ [s.now] })
              s.conns }
          .pingSent connID)
      | .error (.fail _) endpoint =>
        some (updateHeartbeatState
          { s with
            conns := onFirst connID (fun peer => { peer with endpoint := endpoint }) s.conns }
          .timeout connID)
      | .error _ _ => none

def overdue (now : Int) (state : ConnState) : Bool :=
  state.waitingForPong && 0 < o.heartbeatTimeout &&
    o.heartbeatTimeout < timeSub now state.lastPingSent

def needsPing (now : Int) (state : ConnState) : Bool :=
  o.heartbeatIvl < timeSub now state.lastActivity || o.heartbeatIvl < timeSub now state.lastPingSent

def examine (acc : Socket δ σ × List δ) (connID : δ) : Option (Socket δ σ × List δ) :=
  match acc.1.connections.lookup connID with
  | none => some acc
  | some state =>
    if state.connected = false then some acc
    else if overdue o acc.1.now state then some (acc.1, acc.2 ++ [connID])
    else if needsPing o acc.1.now state && !state.waitingForPong then
      (sendHeartbeatPing S o connID acc.1).map fun s => (s, acc.2)
    else some acc

/-- `handleHeartbeatTimeout` closes the connection; the reaper then removes it. -/
def handleHeartbeatTimeout (s : Socket δ σ) (connID : δ) : Socket δ σ :=
  { s with
    conns := onFirst connID (fun peer => { peer with endpoint := peer.endpoint.setClosed }) s.conns
    calls := s.calls ++ [connID] }

def expire (s : Socket δ σ) (connID : δ) : Socket δ σ :=
  let s := handleHeartbeatTimeout s connID
  { s with connections := s.connections.erase connID }

def tick (s : Socket δ σ) (order : List δ) : Option (Socket δ σ) :=
  if order.isPerm s.connections.keys then
    (order.foldlM (examine S o) (s, [])).map fun (s', timeoutConns) => timeoutConns.foldl expire s'
  else none

def serve (s : Socket δ σ) : Option (Socket δ σ) :=
  match s.heartbeatUpdateCh with
  | [] => none
  | update :: rest =>
    some { s with
      heartbeatUpdateCh := rest
      connections := applyUpdate s.connections update
      served := s.served ++ [update] }

end Manager

section Steps

variable {δ σ : Type} [DecidableEq δ] (S : Security σ) (o : Options)

def addConn (s : Socket δ σ) (connID : δ) (endpoint : Endpoint σ) : Socket δ σ :=
  updateHeartbeatState
    { s with
      conns := s.conns ++
        [{ connID := connID, endpoint := endpoint, received := [], pings := [], arrivals := [] }] }
    .connected connID

def rmConn (s : Socket δ σ) (i : Nat) : Option (Socket δ σ) :=
  s.conns[i]?.bind fun peer =>
    if peer.endpoint.conn.closed then
      some (updateHeartbeatState { s with conns := s.conns.eraseIdx i } .disconnected peer.connID)
    else none

def arrive (s : Socket δ σ) (i : Nat) (bytes : Bytes) : Option (Socket δ σ) :=
  s.conns[i]?.map fun peer =>
    let rw := peer.endpoint.conn.rw
    let conn := { peer.endpoint.conn with rw := { rw with input := rw.input ++ bytes } }
    { s with
      conns := s.conns.set i
        { peer with
          endpoint := { peer.endpoint with conn := conn }
          arrivals := peer.arrivals ++ [(s.now, bytes)] } }

/-- The listener takes a message with `Conn.read`, which reports nothing to the
manager.  It ends at an error and closes the connection. -/
def listenOnce (s : Socket δ σ) (i : Nat) : Option (Socket δ σ) :=
  s.conns[i]?.bind fun peer =>
    if peer.endpoint.conn.closed then none
    else
      match (read S).run peer.endpoint with
      | .error _ _ => none
      | .ok msg endpoint =>
        some { s with
          conns := s.conns.set i
            { peer with
              endpoint := if msg.err.isSome then endpoint.setClosed else endpoint
              received := peer.received ++ [msg] } }

def step (s : Socket δ σ) : Action δ σ → Option (Socket δ σ)
  | .addConn connID endpoint => some (addConn s connID endpoint)
  | .rmConn i => rmConn s i
  | .arrive i bytes => arrive s i bytes
  | .listen i => listenOnce S s i
  | .serve => serve s
  | .tick order => tick S o s order
  | .elapse nanoseconds => some { s with now := s.now + nanoseconds }

/-- The time of the latest PING among the updates, unless the connection has come
or gone since. -/
def lastPing (connID : δ) (pinged : Option Int) (update : Update δ) : Option Int :=
  if update.connID = connID then
    match update.updateType with
    | .connected | .disconnected => none
    | .pingSent => some update.timestamp
    | _ => pinged
  else pinged

def pingedSince (connID : δ) (served : List (Update δ)) : Option Int :=
  served.foldl (lastPing connID) none

/-- No tick comes later than the timeout after a PING that the manager knows
of. -/
def TicksInTime (connID : δ) (s : Socket δ σ) : Action δ σ → Prop
  | .tick _ =>
    ∀ pinged, pingedSince connID s.served = some pinged →
      timeSub s.now pinged ≤ o.heartbeatTimeout
  | _ => True

/-- What the manager knows of a connection, from the updates it has served. -/
def Tracks (state : Option ConnState) (pinged : Option Int) : Prop :=
  match state with
  | none => pinged = none
  | some state =>
    state.connected = true ∧
      pinged = if state.waitingForPong then some state.lastPingSent else none

/-- No update reports a PONG, and the manager has the updates it served in its
map. -/
structure Tracking (connID : δ) (s : Socket δ σ) : Prop where
  noPong : ∀ update ∈ s.heartbeatUpdateCh, update.updateType ≠ .pongReceived
  tracks : connID ∉ s.calls → Tracks (s.connections.lookup connID) (pingedSince connID s.served)

structure Pinging (s s' : Socket δ σ) : Prop where
  now_eq : s'.now = s.now
  connections_eq : s'.connections = s.connections
  served_eq : s'.served = s.served
  calls_eq : s'.calls = s.calls
  noPong : (∀ update ∈ s.heartbeatUpdateCh, update.updateType ≠ .pongReceived) →
    ∀ update ∈ s'.heartbeatUpdateCh, update.updateType ≠ .pongReceived

omit [DecidableEq δ] in
theorem Pinging.refl (s : Socket δ σ) : Pinging s s :=
  ⟨rfl, rfl, rfl, rfl, id⟩

omit [DecidableEq δ] in
theorem Pinging.trans {s s' s'' : Socket δ σ} (hfirst : Pinging s s') (hsecond : Pinging s' s'') :
    Pinging s s'' :=
  ⟨hsecond.now_eq.trans hfirst.now_eq, hsecond.connections_eq.trans hfirst.connections_eq,
    hsecond.served_eq.trans hfirst.served_eq, hsecond.calls_eq.trans hfirst.calls_eq,
    fun h => hsecond.noPong (hfirst.noPong h)⟩

omit [DecidableEq δ] in
theorem noPong_update {s : Socket δ σ} {updateType : UpdateType} {connID : δ}
    (htype : updateType ≠ .pongReceived)
    (hs : ∀ update ∈ s.heartbeatUpdateCh, update.updateType ≠ .pongReceived) :
    ∀ update ∈ (updateHeartbeatState s updateType connID).heartbeatUpdateCh,
      update.updateType ≠ .pongReceived := by
  exact List.forall_mem_append.mpr ⟨hs, List.forall_mem_singleton.mpr htype⟩

variable {s s' : Socket δ σ} {connID : δ}

theorem sendHeartbeatPing_pinging (hsend : sendHeartbeatPing S o connID s = some s') :
    Pinging s s' := by
  rw [sendHeartbeatPing] at hsend
  split at hsend
  · obtain rfl := Option.some.inj hsend
    exact .refl s
  · split at hsend
    · obtain rfl := Option.some.inj hsend
      exact .refl s
    · split at hsend
      · obtain rfl := Option.some.inj hsend
        exact ⟨rfl, rfl, rfl, rfl, noPong_update (by decide)⟩
      · obtain rfl := Option.some.inj hsend
        exact ⟨rfl, rfl, rfl, rfl, noPong_update (by decide)⟩
      · cases hsend

def overdueAt (s : Socket δ σ) (connID : δ) : Bool :=
  match s.connections.lookup connID with
  | none => false
  | some state => state.connected && overdue o s.now state

theorem examine_eq_some {ids ids' : List δ}
    (hexamine : examine S o (s, ids) connID = some (s', ids')) :
    Pinging s s' ∧ ids' = ids ++ if overdueAt o s connID then [connID] else [] := by
  rcases hlookup : s.connections.lookup connID with _ | state
  · simp only [examine, hlookup, Option.some.injEq, Prod.mk.injEq] at hexamine
    obtain ⟨rfl, rfl⟩ := hexamine
    simp [overdueAt, hlookup, Pinging.refl]
  · simp only [examine, hlookup] at hexamine
    split at hexamine
    · rename_i hgone
      obtain ⟨rfl, rfl⟩ := Prod.mk.inj (Option.some.inj hexamine)
      simp [overdueAt, hlookup, hgone, Pinging.refl]
    · rename_i hconnected
      split at hexamine
      · rename_i hlate
        obtain ⟨rfl, rfl⟩ := Prod.mk.inj (Option.some.inj hexamine)
        simp [overdueAt, hlookup, hconnected, hlate, Pinging.refl]
      · rename_i hlate
        have hids : ids = ids ++ if overdueAt o s connID then [connID] else [] := by
          simp [overdueAt, hlookup, hlate]
        split at hexamine
        · obtain ⟨t, hsend, heq⟩ := Option.map_eq_some_iff.mp hexamine
          obtain ⟨rfl, rfl⟩ := Prod.mk.inj heq
          exact ⟨sendHeartbeatPing_pinging S o hsend, hids⟩
        · obtain ⟨rfl, rfl⟩ := Prod.mk.inj (Option.some.inj hexamine)
          exact ⟨.refl s, hids⟩

theorem Pinging.overdueAt_eq (hping : Pinging s s') : overdueAt o s' = overdueAt o s := by
  funext connID
  simp only [overdueAt, hping.connections_eq, hping.now_eq]

theorem foldlM_examine_eq_some {order : List δ} {ids ids' : List δ}
    (hfold : order.foldlM (examine S o) (s, ids) = some (s', ids')) :
    Pinging s s' ∧ ids' = ids ++ order.filter (overdueAt o s) := by
  induction order generalizing s ids with
  | nil =>
    obtain ⟨rfl, rfl⟩ := Prod.mk.inj (Option.some.inj hfold)
    simp [Pinging.refl]
  | cons connID rest ih =>
    obtain ⟨⟨t, idsMid⟩, hexamine, hrest⟩ := Option.bind_eq_some_iff.mp hfold
    obtain ⟨hfirst, rfl⟩ := examine_eq_some S o hexamine
    obtain ⟨hsecond, rfl⟩ := ih hrest
    refine ⟨hfirst.trans hsecond, ?_⟩
    rw [List.append_assoc, List.filter_cons, hfirst.overdueAt_eq]
    split <;> simp

theorem foldl_expire (ids : List δ) (s : Socket δ σ) :
    (ids.foldl expire s).calls = s.calls ++ ids ∧
      (ids.foldl expire s).served = s.served ∧
      (ids.foldl expire s).heartbeatUpdateCh = s.heartbeatUpdateCh ∧
      ∀ connID ∉ ids,
        (ids.foldl expire s).connections.lookup connID = s.connections.lookup connID := by
  induction ids generalizing s with
  | nil => simp
  | cons first rest ih =>
    obtain ⟨hcalls, hserved, hupdates, hlookup⟩ := ih (expire s first)
    rw [List.foldl_cons]
    refine ⟨?_, hserved, hupdates, fun connID hmem => ?_⟩
    · rw [hcalls]
      simp [expire, handleHeartbeatTimeout]
    · rw [List.mem_cons, not_or] at hmem
      rw [hlookup connID hmem.2]
      exact AList.lookup_erase_ne hmem.1

theorem tick_eq_some {order : List δ} (htick : tick S o s order = some s') :
    (∀ connID, connID ∈ s'.calls ↔ connID ∈ s.calls ∨ overdueAt o s connID = true) ∧
      s'.served = s.served ∧
      ((∀ update ∈ s.heartbeatUpdateCh, update.updateType ≠ .pongReceived) →
        ∀ update ∈ s'.heartbeatUpdateCh, update.updateType ≠ .pongReceived) ∧
      ∀ connID, overdueAt o s connID = false →
        s'.connections.lookup connID = s.connections.lookup connID := by
  rw [tick] at htick
  split at htick
  · rename_i hperm
    obtain ⟨⟨t, ids⟩, hfold, rfl⟩ := Option.map_eq_some_iff.mp htick
    obtain ⟨hping, rfl⟩ := foldlM_examine_eq_some S o hfold
    obtain ⟨hcalls, hserved, hupdates, hlookup⟩ := foldl_expire ([] ++ order.filter (overdueAt o s)) t
    rw [List.nil_append] at hcalls hserved hupdates hlookup ⊢
    refine ⟨fun connID => ?_, hserved.trans hping.served_eq, ?_, fun connID hlate => ?_⟩
    · rw [hcalls, List.mem_append, hping.calls_eq, List.mem_filter]
      refine or_congr_right (and_iff_right_of_imp fun hlate => ?_)
      rw [(List.isPerm_iff.mp hperm).mem_iff, ← AList.mem_keys, ← AList.lookup_isSome]
      rw [overdueAt] at hlate
      split at hlate
      · cases hlate
      · rename_i hsome
        simp [hsome]
    · rw [hupdates]
      exact hping.noPong
    · rw [hlookup connID (by simp [hlate]), hping.connections_eq]
  · cases htick

variable {connections : AList fun _ : δ => ConnState}

theorem lookup_applyUpdate_ne {update : Update δ} (hne : connID ≠ update.connID) :
    (applyUpdate connections update).lookup connID = connections.lookup connID := by
  rw [applyUpdate]
  split <;> first
    | exact AList.lookup_insert_ne hne
    | exact AList.lookup_erase_ne hne

theorem tracks_applyUpdate {update : Update δ} {pinged : Option Int}
    (htype : update.updateType ≠ .pongReceived)
    (htracks : Tracks (connections.lookup connID) pinged) :
    Tracks ((applyUpdate connections update).lookup connID) (lastPing connID pinged update) := by
  rcases eq_or_ne update.connID connID with rfl | hne
  · rw [lastPing, if_pos rfl, applyUpdate]
    generalize hstate : (connections.lookup update.connID).getD
      { lastActivity := update.timestamp, lastPingSent := 0, waitingForPong := false
        connected := true } = state
    have hkept : state.connected = true ∧
        pinged = if state.waitingForPong then some state.lastPingSent else none := by
      rcases hlookup : connections.lookup update.connID with _ | old
      · rw [hlookup] at htracks hstate
        rw [← hstate]
        exact ⟨rfl, htracks⟩
      · rw [hlookup] at htracks hstate
        rw [← hstate]
        exact htracks
    rcases hupdate : update.updateType
    · simp [Tracks]
    · simp [Tracks]
    · simp [Tracks, hkept.1]
    · exact absurd hupdate htype
    · simpa [Tracks] using hkept
    · simpa [Tracks] using hkept
  · rw [lookup_applyUpdate_ne hne.symm, lastPing, if_neg hne]
    exact htracks

variable {S o}

theorem overdueAt_iff (htimeout : 0 < o.heartbeatTimeout)
    (htracks : Tracks (s.connections.lookup connID) (pingedSince connID s.served)) :
    overdueAt o s connID = true ↔
      ∃ pinged, pingedSince connID s.served = some pinged ∧
        o.heartbeatTimeout < timeSub s.now pinged := by
  rw [overdueAt]
  split
  · rename_i hlookup
    rw [hlookup] at htracks
    simp [show pingedSince connID s.served = none from htracks]
  · rename_i state hlookup
    rw [hlookup] at htracks
    obtain ⟨hconnected, hpinged⟩ := htracks
    rw [hpinged]
    by_cases hwaiting : state.waitingForPong = true
    · simp [overdue, hconnected, hwaiting, htimeout]
    · simp [overdue, hwaiting]

variable {action : Action δ σ}

theorem tracking_step (hs : Tracking connID s) (hstep : step S o s action = some s') :
    Tracking connID s' ∧ ((∀ order, action ≠ .tick order) → s'.calls = s.calls) := by
  cases action with
  | addConn newID endpoint =>
    obtain rfl := Option.some.inj hstep
    exact ⟨⟨noPong_update (by decide) hs.noPong, hs.tracks⟩, fun _ => rfl⟩
  | rmConn i =>
    obtain ⟨peer, -, hpeer⟩ := Option.bind_eq_some_iff.mp hstep
    split at hpeer
    · obtain rfl := Option.some.inj hpeer
      exact ⟨⟨noPong_update (by decide) hs.noPong, hs.tracks⟩, fun _ => rfl⟩
    · cases hpeer
  | arrive i bytes =>
    obtain ⟨peer, -, rfl⟩ := Option.map_eq_some_iff.mp hstep
    exact ⟨⟨hs.noPong, hs.tracks⟩, fun _ => rfl⟩
  | listen i =>
    obtain ⟨peer, -, hpeer⟩ := Option.bind_eq_some_iff.mp hstep
    split at hpeer
    · cases hpeer
    · split at hpeer
      · cases hpeer
      · obtain rfl := Option.some.inj hpeer
        exact ⟨⟨hs.noPong, hs.tracks⟩, fun _ => rfl⟩
  | serve =>
    rw [step, Heartbeats.serve] at hstep
    split at hstep
    · cases hstep
    · rename_i update rest hch
      obtain rfl := Option.some.inj hstep
      have hupdates := hs.noPong
      rw [hch, List.forall_mem_cons] at hupdates
      refine ⟨⟨hupdates.2, fun hcalls => ?_⟩, fun _ => rfl⟩
      rw [pingedSince, List.foldl_append]
      exact tracks_applyUpdate hupdates.1 (hs.tracks hcalls)
  | tick order =>
    obtain ⟨hcalls, hserved, hupdates, hlookup⟩ := tick_eq_some S o hstep
    refine ⟨⟨hupdates hs.noPong, fun hmem => ?_⟩, fun hno => absurd rfl (hno order)⟩
    rw [hcalls, not_or, Bool.not_eq_true] at hmem
    rw [hserved, hlookup connID hmem.2]
    exact hs.tracks hmem.1
  | elapse nanoseconds =>
    obtain rfl := Option.some.inj hstep
    exact ⟨⟨hs.noPong, hs.tracks⟩, fun _ => rfl⟩

theorem step_spared_iff (htimeout : 0 < o.heartbeatTimeout) (hs : Tracking connID s)
    (hspared : connID ∉ s.calls) (hstep : step S o s action = some s') :
    connID ∉ s'.calls ↔ TicksInTime o connID s action := by
  by_cases htick : ∃ order, action = .tick order
  · obtain ⟨order, rfl⟩ := htick
    obtain ⟨hcalls, -⟩ := tick_eq_some S o hstep
    rw [hcalls, overdueAt_iff htimeout (hs.tracks hspared)]
    simp [TicksInTime, hspared]
  · have hcalls := (tracking_step hs hstep).2 fun order h => htick ⟨order, h⟩
    rw [hcalls]
    refine iff_of_true hspared ?_
    cases action with
    | tick order => exact absurd ⟨order, rfl⟩ htick
    | _ => trivial

/-- `handleHeartbeatTimeout` is never called for a connection, whatever its peer
answers, if and only if no tick comes later than the timeout after a PING. -/
theorem spared_iff_ticksInTime (htimeout : 0 < o.heartbeatTimeout) (connID : δ) (now : Int)
    {actions : List (Action δ σ)} {s : Socket δ σ}
    (hrun : run (step S o) (Socket.start δ σ now) actions = some s) :
    Always (step S o) (fun s => connID ∉ s.calls) (Socket.start δ σ now) actions ↔
      Throughout (step S o) (TicksInTime o connID) (Socket.start δ σ now) actions :=
  always_iff_throughout (fun _ _ _ hs _ hstep => (tracking_step hs hstep).1)
    (fun _ _ _ hs hspared hstep => step_spared_iff htimeout hs hspared hstep)
    ⟨fun _ hupdate => absurd hupdate List.not_mem_nil, fun _ => rfl⟩ List.not_mem_nil hrun

end Steps

section Healthy

def openEndpoint : Endpoint Unit where
  sec := ()
  conn :=
    { Conn.fresh Metadata.empty with
      rw := { input := [], closedByPeer := false, output := [], writeErr := none } }

def tenToFive : Options where
  heartbeatIvl := 10
  heartbeatTtl := 0
  heartbeatTimeout := 5

def pongBytes : Bytes := [4, 5, 4, 80, 79, 78, 71]

def answered : List (Action Nat Unit) :=
  [.addConn 0 openEndpoint, .serve, .elapse 10, .tick [0], .arrive 0 pongBytes, .listen 0, .serve,
    .elapse 10, .tick [0]]

theorem spared_iff_ticksInTime_answered :
    0 < tenToFive.heartbeatTimeout ∧
      (∃ s, run (step nullSecurity tenToFive) (Socket.start Nat Unit 1000) answered = some s) ∧
      (Always (step nullSecurity tenToFive) (fun s => 0 ∉ s.calls) (Socket.start Nat Unit 1000)
          answered ↔
        Throughout (step nullSecurity tenToFive) (TicksInTime tenToFive 0)
          (Socket.start Nat Unit 1000) answered) :=
  ⟨by decide, ⟨_, rfl⟩, spared_iff_ticksInTime (by decide) 0 1000 rfl⟩

/-- The peer has answered the only PING at the time it was sent, and yet the
connection is given up. -/
theorem answered_timed_out :
    (∃ w', (sendCmd nullSecurity cmdPong []).run openEndpoint = .ok () w' ∧
        w'.conn.rw.output.flatten = pongBytes) ∧
      ∃ s peer, run (step nullSecurity tenToFive) (Socket.start Nat Unit 1000) answered = some s ∧
        s.conns = [peer] ∧ peer.pings = [1010] ∧ peer.arrivals = [(1010, pongBytes)] ∧
        peer.received.map Msg.frames = [[4 :: cmdPong]] ∧ s.calls = [0] :=
  ⟨⟨_, rfl, rfl⟩, _, _, rfl, rfl, rfl, rfl, rfl, rfl⟩

end Healthy

end Zmq4.Heartbeats
