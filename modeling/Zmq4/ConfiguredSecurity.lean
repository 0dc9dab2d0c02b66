import Zmq4.ActionRuns
import Zmq4.HandshakeAgreement

namespace Zmq4.ConfiguredSecurity

open ByteCodec DuplexProgram ZmtpMetadata Connection OpenHandshake HandshakeAgreement ActionRuns

structure CurveKeys where
  publicKey : Bytes
  secretKey : Bytes
  serverKey : Bytes

inductive Sec
  | null
  | plain (credentials : PlainSecurity)
  | curve (keys : CurveKeys)

def Sec.type : Sec → SecurityType
  | .null => .nullSecurity
  | .plain _ => .plainSecurity
  | .curve _ => .curveSecurity

/-- What is left open: how CURVE handshakes end, and which keys
`curve.NewSecurityClient` refuses. -/
structure Network where
  platform : Platform
  curveOpens : CurveKeys → Bool → SocketType → Bytes → Bytes → Bool
  newSecurityClient : CurveKeys → Except Err Unit

def opened {σ : Type} (M : Mechanism σ) (sec : σ) (server : Bool) (typ : SocketType)
    (id input : Bytes) : Bool :=
  let conn := Conn.fresh (openMetadata typ id)
  match (openConn M server typ).run { sec, conn := { conn with rw := { conn.rw with input } } } with
  | .ok _ _ => true
  | .error _ _ => false

def Network.opens (N : Network) (server : Bool) (typ : SocketType) (id input : Bytes) :
    Sec → Bool
  | .null => opened (nullMechanism N.platform "zmq4") () server typ id input
  | .plain credentials => opened (plainMechanism N.platform) credentials server typ id input
  | .curve keys => N.curveOpens keys server typ id input

inductive OptionName
  | heartbeatIVL
  | heartbeatTTL
  | heartbeatTimeout
  | identity
  | securityMechanism
  | plainUsername
  | plainPassword
  | curvePublicKey
  | curveSecretKey
  | curveServerKey
  deriving DecidableEq

inductive OptionValue
  | duration (nanoseconds : Int)
  | text (value : Bytes)
  | mechanism (type : SecurityType)

structure Socket where
  typ : SocketType
  id : Bytes
  sec : Sec := .null
  heartbeatIVL : Int := 0
  heartbeatTTL : Int := 0
  heartbeatTimeout : Int := 0
  heartbeatStarted : Bool := false
  props : List (OptionName × OptionValue) := []

def newSocket (typ : SocketType) (id : Bytes) : Socket where
  typ := typ
  id := id

def maxTTL : Int := 65535 * 100 * 1000000

variable {s : Socket}

namespace Socket

def store (s : Socket) (name : OptionName) (value : OptionValue) : Socket :=
  { s with props := (name, value) :: s.props.filter fun prop => prop.1 ≠ name }

def setOption (s : Socket) (name : OptionName) (value : OptionValue) : Except Err Socket :=
  match name, value with
  | .heartbeatIVL, .duration duration =>
    .ok ({ s with
      heartbeatIVL := duration
      heartbeatStarted := s.heartbeatStarted || duration > 0 }.store name value)
  | .heartbeatTTL, .duration duration =>
    if duration > maxTTL then
      .error (.text "zmq4: heartbeat TTL exceeds maximum of 1h49m13.5s")
    else .ok ({ s with heartbeatTTL := duration }.store name value)
  | .heartbeatTimeout, .duration duration =>
    .ok ({ s with heartbeatTimeout := duration }.store name value)
  | _, _ => .ok (s.store name value)

/-- The result of `SetOption` is not looked at. -/
def withOption (s : Socket) (name : OptionName) (value : OptionValue) : Socket :=
  match s.setOption name value with
  | .ok s' => s'
  | .error _ => s

theorem sec_setOption {s' : Socket} {name : OptionName} {value : OptionValue}
    (hset : s.setOption name value = .ok s') : s'.sec = s.sec := by
  unfold setOption at hset
  split at hset
  · cases hset
    rfl
  · split at hset
    · cases hset
    · cases hset
      rfl
  · cases hset
    rfl
  · cases hset
    rfl

theorem sec_withOption (s : Socket) (name : OptionName) (value : OptionValue) :
    (s.withOption name value).sec = s.sec := by
  unfold withOption
  split
  · next hset => exact sec_setOption hset
  · rfl

end Socket

structure Opening where
  mechanism : SecurityType
  configured : SecurityType

def Socket.opening (N : Network) (configured : SecurityType) (s : Socket) (server : Bool)
    (input : Bytes) : List Opening :=
  if N.opens server s.typ s.id input s.sec then [⟨s.sec.type, configured⟩] else []

/-- Connections opened under PLAIN or CURVE are opened with it. -/
def Enforced (conns : List Opening) : Prop :=
  ∀ conn ∈ conns, conn.configured ≠ .nullSecurity → conn.mechanism = conn.configured

def UsesNull (socket : Option Socket) : Prop :=
  ∀ s, socket = some s → s.sec = .null

variable {conns : List Opening}

theorem enforced_append_iff {conn : Opening} (hconns : Enforced conns) :
    Enforced (conns ++ [conn]) ↔
      (conn.configured ≠ .nullSecurity → conn.mechanism = conn.configured) := by
  rw [Enforced, List.forall_mem_append, List.forall_mem_singleton]
  exact and_iff_right hconns

theorem opening_eq {N : Network} {configured : SecurityType} (hsec : s.sec = .null) (server : Bool)
    (input : Bytes) :
    s.opening N configured server input =
      if N.opens server s.typ s.id input .null then [⟨.nullSecurity, configured⟩] else [] := by
  rw [Socket.opening, hsec]
  rfl

theorem enforced_opening_iff {N : Network} {configured : SecurityType} (hconns : Enforced conns)
    (hsec : s.sec = .null) (server : Bool) (input : Bytes) :
    Enforced (conns ++ s.opening N configured server input) ↔
      (configured ≠ .nullSecurity → N.opens server s.typ s.id input .null = false) := by
  rw [opening_eq hsec]
  split
  · next hopens =>
      rw [enforced_append_iff hconns, hopens]
      exact ⟨fun himp hne => absurd (himp hne).symm hne, fun himp hne => nomatch himp hne⟩
  · next hopens =>
      rw [List.append_nil]
      exact iff_of_true hconns fun _ => Bool.not_eq_true _ ▸ hopens

namespace Zyre

structure SecurityConfig where
  type : SecurityType := .nullSecurity
  username : Bytes := []
  password : Bytes := []
  publicKey : Bytes := []
  secretKey : Bytes := []
  serverKey : Bytes := []

def SecurityConfig.curveKeys (config : SecurityConfig) : CurveKeys :=
  ⟨config.publicKey, config.secretKey, config.serverKey⟩

structure SecurityManager where
  config : SecurityConfig
  plain : Option Sec
  curve : Option Sec

def newSecurityManager (N : Network) (config : Option SecurityConfig) :
    Except Err SecurityManager :=
  let config := config.getD {}
  let plain :=
    if config.username ≠ [] ∧ config.password ≠ [] then
      some (.plain { user := config.username, pass := config.password })
    else none
  if config.publicKey ≠ [] ∧ config.secretKey ≠ [] then
    match N.newSecurityClient config.curveKeys with
    | .error err =>
      .error (.wrap "failed to initialize security mechanisms"
        (.wrap "failed to create CURVE client security" err))
    | .ok _ => .ok { config, plain, curve := some (.curve config.curveKeys) }
  else .ok { config, plain, curve := none }

def SecurityManager.getSecurityMechanism (sm : SecurityManager) : Option Sec :=
  match sm.config.type with
  | .plainSecurity => sm.plain
  | .curveSecurity => sm.curve
  | .nullSecurity => some .null

structure SecureSocket where
  socket : Socket
  security : Option Sec

def SecurityManager.setOptions (sm : SecurityManager) (socket : Socket) : Socket :=
  match sm.config.type with
  | .plainSecurity =>
    ((socket.withOption .securityMechanism (.mechanism .plainSecurity)).withOption
      .plainUsername (.text sm.config.username)).withOption
      .plainPassword (.text sm.config.password)
  | .curveSecurity =>
    let keyed := ((socket.withOption .securityMechanism (.mechanism .curveSecurity)).withOption
      .curvePublicKey (.text sm.config.publicKey)).withOption
      .curveSecretKey (.text sm.config.secretKey)
    if sm.config.serverKey ≠ [] then
      keyed.withOption .curveServerKey (.text sm.config.serverKey)
    else keyed
  | .nullSecurity => socket.withOption .securityMechanism (.mechanism .nullSecurity)

def SecurityManager.secureSocket (sm : SecurityManager) (typ : SocketType) (id : Bytes) :
    Except Err SecureSocket :=
  match typ with
  | .router | .dealer | .pub | .sub =>
    .ok { socket := sm.setOptions (newSocket typ id), security := sm.getSecurityMechanism }
  | .pair | .req | .rep | .pull | .push | .xpub | .xsub =>
    .error (.text ("unsupported socket type: " ++ showBytes typ.name))

theorem sec_setOptions (sm : SecurityManager) (socket : Socket) :
    (sm.setOptions socket).sec = socket.sec := by
  unfold SecurityManager.setOptions
  split
  · simp only [Socket.sec_withOption]
  · dsimp only
    split <;> simp only [Socket.sec_withOption]
  · exact Socket.sec_withOption _ _ _

variable {secure : SecureSocket}

theorem sec_secureSocket {sm : SecurityManager} {typ : SocketType} {id : Bytes}
    (hsecure : sm.secureSocket typ id = .ok secure) :
    secure.socket.sec = .null := by
  cases typ <;> cases hsecure <;> exact sec_setOptions sm _

inductive NodeState
  | stopped
  | starting
  | running
  deriving DecidableEq

/-- `Start` or `Stop`, which has the mutex and waits for the beacon to confirm its
port. -/
inductive Call
  | start
  | stop
  deriving DecidableEq

/-- `done` is set once the context of the node is cancelled; it stays cancelled. -/
structure Node where
  uuid : Bytes
  securityMgr : SecurityManager
  state : NodeState := .stopped
  waiting : Option Call := none
  beaconRunning : Bool := false
  socket : Option SecureSocket := none
  listening : Bool := false
  peers : List Bytes := []
  done : Bool := false
  conns : List Opening := []

inductive Action
  /-- `Start` up to `SetPort`, with the identity of the new socket and whether the
  socket could be bound. -/
  | start (id : Bytes) (bound : Bool)
  /-- The command loop of the beacon answers `SetPort`.  If `Start` then starts the
  beacon, it may succeed. -/
  | portSet (started : Bool)
  /-- A peer connects to the ROUTER socket and sends the given bytes. -/
  | accept (input : Bytes)
  /-- A beacon of a peer arrives.  If its endpoint can be dialled, it sends the given
  bytes. -/
  | discovered (uuid id : Bytes) (input : Option Bytes)
  | expired (uuid : Bytes)
  | setSecurity (config : Option SecurityConfig)
  | stop

namespace Node

def start (n : Node) (id : Bytes) (bound : Bool) : Node :=
  if n.state = .stopped then
    match n.securityMgr.secureSocket .router id with
    | .error _ => { n with state := .starting }
    | .ok secure =>
      { n with
        state := .starting
        waiting := if bound then some .start else none
        socket := some { secure with
          socket := secure.socket.withOption .identity (.text n.uuid) }
        listening := bound }
  else n

def portSet (n : Node) (started : Bool) : Call → Node
  | .start =>
    if n.beaconRunning ∨ started = false then { n with waiting := none }
    else { n with state := .running, waiting := none, beaconRunning := true }
  | .stop =>
    { n with
      state := .stopped
      waiting := none
      beaconRunning := false
      listening := false
      done := true }

def peerSocket (uuid id : Bytes) : Socket :=
  (newSocket .dealer id).withOption .identity (.text uuid)

def discovered (N : Network) (n : Node) (uuid id : Bytes) : Option Bytes → Node
  | none => n
  | some input =>
    if uuid ∈ n.peers then n
    else
      match (peerSocket uuid id).opening N n.securityMgr.config.type false input with
      | [] => n
      | conn :: _ => { n with peers := uuid :: n.peers, conns := n.conns ++ [conn] }

def setSecurity (N : Network) (n : Node) (config : Option SecurityConfig) : Node :=
  match newSecurityManager N config with
  | .error _ => n
  | .ok securityMgr => { n with securityMgr }

def step (N : Network) (n : Node) : Action → Option Node
  | .start id bound => if n.waiting = none then some (n.start id bound) else none
  | .portSet started =>
    -- the command loop runs from the start of the beacon on
    if n.beaconRunning then n.waiting.map (n.portSet started) else none
  | .accept input =>
    match n.socket with
    | none => none
    | some secure =>
      if n.listening ∧ n.done = false then
        some { n with
          conns := n.conns ++ secure.socket.opening N n.securityMgr.config.type true input }
      else none
  | .discovered uuid id input =>
    if n.state = .running ∧ n.done = false then some (n.discovered N uuid id input) else none
  | .expired uuid => some { n with peers := n.peers.filter (· ≠ uuid) }
  | .setSecurity config => if n.waiting = none then some (n.setSecurity N config) else none
  | .stop =>
    if n.waiting = none then
      some (if n.state = .stopped then n else { n with waiting := some .stop })
    else none

/-- While PLAIN or CURVE is configured, no peer that connects or is dialled
completes the NULL handshake. -/
def Refuses (N : Network) (n : Node) : Action → Prop
  | .accept input =>
    ∀ secure, n.socket = some secure → n.securityMgr.config.type ≠ .nullSecurity →
      N.opens true secure.socket.typ secure.socket.id input .null = false
  | .discovered uuid id input =>
    ∀ data, input = some data → uuid ∉ n.peers → n.securityMgr.config.type ≠ .nullSecurity →
      N.opens false .dealer id data .null = false
  | .start _ _ | .portSet _ | .expired _ | .setSecurity _ | .stop => True

def Unsecured (n : Node) : Prop :=
  UsesNull (n.socket.map SecureSocket.socket)

variable {N : Network} {n n' : Node} {action : Action}

theorem sec_peerSocket (uuid id : Bytes) : (peerSocket uuid id).sec = .null :=
  Socket.sec_withOption _ _ _

theorem Unsecured.of_socket_eq (hn : n.Unsecured) (hsocket : n'.socket = n.socket) :
    n'.Unsecured := by
  rw [Unsecured, hsocket]
  exact hn

theorem portSet_same (started : Bool) (call : Call) :
    (n.portSet started call).socket = n.socket ∧ (n.portSet started call).conns = n.conns := by
  cases call with
  | start =>
    unfold portSet
    dsimp only
    split <;> exact ⟨rfl, rfl⟩
  | stop => exact ⟨rfl, rfl⟩

theorem socket_discovered (uuid id : Bytes) (input : Option Bytes) :
    (n.discovered N uuid id input).socket = n.socket := by
  cases input with
  | none => rfl
  | some data =>
    unfold discovered
    dsimp only
    split
    · rfl
    · split <;> rfl

theorem accept_eq_some {input : Bytes} (hstep : n.step N (.accept input) = some n') :
    ∃ secure, n.socket = some secure ∧
      n' = { n with
        conns := n.conns ++ secure.socket.opening N n.securityMgr.config.type true input } := by
  simp only [step] at hstep
  split at hstep
  · cases hstep
  · next secure hsocket =>
      exact ⟨secure, hsocket, (Option.some.inj (Option.ite_none_right_eq_some.mp hstep).2).symm⟩

theorem unsecured_step (hn : n.Unsecured) (hstep : n.step N action = some n') :
    n'.Unsecured := by
  cases action with
  | start id bound =>
    obtain ⟨-, ⟨⟩⟩ := Option.ite_none_right_eq_some.mp hstep
    unfold start
    split
    · split
      · exact hn
      · next secure hsecure =>
          rintro socket ⟨⟩
          exact (Socket.sec_withOption _ _ _).trans (sec_secureSocket hsecure)
    · exact hn
  | portSet started =>
    obtain ⟨-, hset⟩ := Option.ite_none_right_eq_some.mp hstep
    obtain ⟨call, -, rfl⟩ := Option.map_eq_some_iff.mp hset
    exact hn.of_socket_eq (portSet_same started call).1
  | accept input =>
    obtain ⟨secure, -, rfl⟩ := accept_eq_some hstep
    exact hn
  | discovered uuid id input =>
    obtain ⟨-, ⟨⟩⟩ := Option.ite_none_right_eq_some.mp hstep
    exact hn.of_socket_eq (socket_discovered uuid id input)
  | expired uuid =>
    cases hstep
    exact hn
  | setSecurity config =>
    obtain ⟨-, ⟨⟩⟩ := Option.ite_none_right_eq_some.mp hstep
    unfold setSecurity
    split <;> exact hn
  | stop =>
    obtain ⟨-, ⟨⟩⟩ := Option.ite_none_right_eq_some.mp hstep
    split <;> exact hn

theorem enforced_discovered_iff (hn : Enforced n.conns) (uuid id : Bytes)
    (input : Option Bytes) :
    Enforced (n.discovered N uuid id input).conns ↔ n.Refuses N (.discovered uuid id input) := by
  cases input with
  | none => exact iff_of_true hn fun _ => nofun
  | some data =>
    unfold discovered Refuses
    dsimp only
    split
    · next hknown => exact iff_of_true hn fun _ _ hnew => absurd hknown hnew
    · next hnew =>
        have hconns : Enforced (n.conns ++
              (peerSocket uuid id).opening N n.securityMgr.config.type false data) ↔
            ∀ data', some data = some data' → uuid ∉ n.peers →
              n.securityMgr.config.type ≠ .nullSecurity →
                N.opens false .dealer id data' .null = false := by
          rw [enforced_opening_iff hn (sec_peerSocket uuid id)]
          constructor
          · rintro himp data' ⟨⟩ _ hne
            exact himp hne
          · exact fun himp hne => himp data rfl hnew hne
        rw [← hconns, opening_eq (sec_peerSocket uuid id)]
        split
        · next hnone =>
            rw [hnone, List.append_nil]
        · next conn rest hsome =>
            rw [hsome]
            split at hsome
            · cases hsome
              exact Iff.rfl
            · cases hsome

theorem enforced_step_iff (hnull : n.Unsecured) (hn : Enforced n.conns)
    (hstep : n.step N action = some n') : Enforced n'.conns ↔ n.Refuses N action := by
  cases action with
  | start id bound =>
    obtain ⟨-, ⟨⟩⟩ := Option.ite_none_right_eq_some.mp hstep
    refine iff_of_true ?_ trivial
    unfold start
    split
    · split <;> exact hn
    · exact hn
  | portSet started =>
    obtain ⟨-, hset⟩ := Option.ite_none_right_eq_some.mp hstep
    obtain ⟨call, -, rfl⟩ := Option.map_eq_some_iff.mp hset
    rw [(portSet_same started call).2]
    exact iff_of_true hn trivial
  | accept input =>
    obtain ⟨secure, hsocket, rfl⟩ := accept_eq_some hstep
    rw [enforced_opening_iff hn (hnull secure.socket (by rw [hsocket]; rfl))]
    constructor
    · intro himp secure' hsocket' hne
      rw [hsocket] at hsocket'
      cases hsocket'
      exact himp hne
    · exact fun hrefuses => hrefuses secure hsocket
  | discovered uuid id input =>
    obtain ⟨-, ⟨⟩⟩ := Option.ite_none_right_eq_some.mp hstep
    exact enforced_discovered_iff hn uuid id input
  | expired uuid =>
    cases hstep
    exact iff_of_true hn trivial
  | setSecurity config =>
    obtain ⟨-, ⟨⟩⟩ := Option.ite_none_right_eq_some.mp hstep
    refine iff_of_true ?_ trivial
    unfold setSecurity
    split <;> exact hn
  | stop =>
    obtain ⟨-, ⟨⟩⟩ := Option.ite_none_right_eq_some.mp hstep
    refine iff_of_true ?_ trivial
    split <;> exact hn

end Node

end Zyre

namespace Malamute

inductive SecurityMechanism
  | null
  | plain (username password : Bytes)
  | curve (keys : CurveKeys)

def SecurityMechanism.getMechanism : SecurityMechanism → SecurityType
  | .null => .nullSecurity
  | .plain _ _ => .plainSecurity
  | .curve _ => .curveSecurity

def nilDereference : Stop :=
  .panicked "runtime error: invalid memory address or nil pointer dereference"

def setOption (text : String) (name : OptionName) (value : Bytes) :
    Option Socket → Except Stop (Option Socket)
  | none => .error nilDereference
  | some socket =>
    match socket.setOption name (.text value) with
    | .error err => .error (.fail (.wrap text err))
    | .ok socket => .ok (some socket)

def SecurityMechanism.apply (socket : Option Socket) :
    SecurityMechanism → Except Stop (Option Socket)
  | .null => .ok socket
  | .plain username password => do
      let socket ← setOption "failed to set PLAIN username" .plainUsername username socket
      setOption "failed to set PLAIN password" .plainPassword password socket
  | .curve keys => do
      let socket ← setOption "failed to set CURVE server key" .curveServerKey keys.serverKey socket
      let socket ← setOption "failed to set CURVE public key" .curvePublicKey keys.publicKey socket
      setOption "failed to set CURVE secret key" .curveSecretKey keys.secretKey socket

/-- `ApplyToSocket`: the mechanism may be nil, too. -/
def applyToSocket (mechanism : Option SecurityMechanism) (socket : Option Socket) :
    Except Stop (Option Socket) :=
  match mechanism with
  | none => .error (.fail (.text "no security mechanism configured"))
  | some mechanism => mechanism.apply socket

variable {mechanism : SecurityMechanism}

theorem exceptBind_eq_ok {ε α β : Type} {x : Except ε α} {f : α → Except ε β} {b : β}
    (hbind : (x >>= f) = .ok b) : ∃ a, x = .ok a ∧ f a = .ok b := by
  cases x with
  | error err => cases hbind
  | ok a => exact ⟨a, rfl, hbind⟩

variable {socket socket' : Option Socket}

theorem usesNull_setOption {text : String} {name : OptionName} {value : Bytes}
    (hsocket : UsesNull socket) (hset : setOption text name value socket = .ok socket') :
    UsesNull socket' := by
  cases socket with
  | none => cases hset
  | some s =>
    simp only [setOption] at hset
    split at hset
    · cases hset
    · next s' hstored =>
        cases hset
        rintro t ⟨⟩
        exact (Socket.sec_setOption hstored).trans (hsocket s rfl)

theorem usesNull_applyToSocket {mechanism : Option SecurityMechanism} (hsocket : UsesNull socket)
    (happly : applyToSocket mechanism socket = .ok socket') : UsesNull socket' := by
  cases mechanism with
  | none => cases happly
  | some mechanism =>
    cases mechanism with
    | null =>
      cases happly
      exact hsocket
    | plain username password =>
      obtain ⟨first, hfirst, hsecond⟩ := exceptBind_eq_ok happly
      exact usesNull_setOption (usesNull_setOption hsocket hfirst) hsecond
    | curve keys =>
      obtain ⟨first, hfirst, hrest⟩ := exceptBind_eq_ok happly
      obtain ⟨second, hsecond, hthird⟩ := exceptBind_eq_ok hrest
      exact usesNull_setOption
        (usesNull_setOption (usesNull_setOption hsocket hfirst) hsecond) hthird

/-- A secure broker or client.  `socket` is nil until the component has been started,
`idle` says that its state is 0, and `done` that its context is cancelled. -/
structure Component where
  security : Option SecurityMechanism
  idle : Bool := true
  socket : Option Socket := none
  listening : Bool := false
  done : Bool := false
  conns : List Opening := []

namespace Component

def configured (c : Component) : SecurityType :=
  (c.security.map SecurityMechanism.getMechanism).getD .nullSecurity

def brokerStart (c : Component) (id : Bytes) (bound : Bool) : Component :=
  if c.idle then
    { c with idle := false, socket := some (newSocket .router id), listening := bound }
  else c

def clientConnect (N : Network) (c : Component) (id : Bytes) (input : Option Bytes) :
    Component :=
  if c.idle then
    { c with
      idle := false
      socket := some (newSocket .dealer id)
      conns := c.conns ++ input.elim [] ((newSocket .dealer id).opening N c.configured false) }
  else c

/-- `SecureBroker.Start` and `SecureClient.Connect` apply the security to the socket
that is there before they go on.  After a panic or an error nothing has changed. -/
def secured (c : Component) (next : Component → Component) : Component :=
  match applyToSocket c.security c.socket with
  | .error _ => c
  | .ok socket => next { c with socket }

end Component

inductive BrokerAction
  | start (id : Bytes) (bound : Bool)
  | embeddedStart (id : Bytes) (bound : Bool)
  | accept (input : Bytes)
  | stop

def brokerStep (N : Network) (c : Component) : BrokerAction → Option Component
  | .start id bound => some (c.secured fun c => c.brokerStart id bound)
  | .embeddedStart id bound => some (c.brokerStart id bound)
  | .accept input =>
    match c.socket with
    | none => none
    | some socket =>
      if c.listening ∧ c.done = false then
        some { c with conns := c.conns ++ socket.opening N c.configured true input }
      else none
  | .stop =>
    if c.idle then some c else some { c with idle := true, listening := false, done := true }

inductive ClientAction
  | connect (id : Bytes) (input : Option Bytes)
  | embeddedConnect (id : Bytes) (input : Option Bytes)

def clientStep (N : Network) (c : Component) : ClientAction → Option Component
  | .connect id input => some (c.secured fun c => c.clientConnect N id input)
  | .embeddedConnect id input => some (c.clientConnect N id input)

def BrokerRefuses (N : Network) (c : Component) : BrokerAction → Prop
  | .accept input =>
    ∀ socket, c.socket = some socket → c.configured ≠ .nullSecurity →
      N.opens true socket.typ socket.id input .null = false
  | .start _ _ | .embeddedStart _ _ | .stop => True

def DialRefuses (N : Network) (c : Component) (id : Bytes) (input : Option Bytes) : Prop :=
  ∀ data, input = some data → c.idle = true → c.configured ≠ .nullSecurity →
    N.opens false .dealer id data .null = false

def ClientRefuses (N : Network) (c : Component) : ClientAction → Prop
  | .connect id input =>
    ∀ socket, applyToSocket c.security c.socket = .ok socket → DialRefuses N c id input
  | .embeddedConnect id input => DialRefuses N c id input

section Steps

variable {N : Network} {c c' : Component}

theorem usesNull_brokerStart (hc : UsesNull c.socket) (id : Bytes) (bound : Bool) :
    UsesNull (c.brokerStart id bound).socket := by
  unfold Component.brokerStart
  split
  · rintro socket ⟨⟩
    rfl
  · exact hc

theorem conns_brokerStart (id : Bytes) (bound : Bool) :
    (c.brokerStart id bound).conns = c.conns := by
  unfold Component.brokerStart
  split <;> rfl

theorem accept_eq_some {input : Bytes} (hstep : brokerStep N c (.accept input) = some c') :
    ∃ socket, c.socket = some socket ∧
      c' = { c with conns := c.conns ++ socket.opening N c.configured true input } := by
  simp only [brokerStep] at hstep
  split at hstep
  · cases hstep
  · next socket hsocket =>
      exact ⟨socket, hsocket, (Option.some.inj (Option.ite_none_right_eq_some.mp hstep).2).symm⟩

variable {action : BrokerAction}

theorem usesNull_brokerStep (hc : UsesNull c.socket) (hstep : brokerStep N c action = some c') :
    UsesNull c'.socket := by
  cases action with
  | start id bound =>
    cases hstep
    unfold Component.secured
    split
    · exact hc
    · next socket happly => exact usesNull_brokerStart (usesNull_applyToSocket hc happly) id bound
  | embeddedStart id bound =>
    cases hstep
    exact usesNull_brokerStart hc id bound
  | accept input =>
    obtain ⟨socket, -, rfl⟩ := accept_eq_some hstep
    exact hc
  | stop =>
    simp only [brokerStep] at hstep
    split at hstep <;> cases hstep <;> exact hc

theorem enforced_brokerStep_iff (hnull : UsesNull c.socket) (hc : Enforced c.conns)
    (hstep : brokerStep N c action = some c') :
    Enforced c'.conns ↔ BrokerRefuses N c action := by
  cases action with
  | start id bound =>
    cases hstep
    refine iff_of_true ?_ trivial
    unfold Component.secured
    split
    · exact hc
    · rw [conns_brokerStart]
      exact hc
  | embeddedStart id bound =>
    cases hstep
    rw [conns_brokerStart]
    exact iff_of_true hc trivial
  | accept input =>
    obtain ⟨socket, hsocket, rfl⟩ := accept_eq_some hstep
    rw [enforced_opening_iff hc (hnull socket hsocket)]
    constructor
    · intro himp other hother hne
      rw [hsocket] at hother
      cases hother
      exact himp hne
    · exact fun hrefuses => hrefuses socket hsocket
  | stop =>
    simp only [brokerStep] at hstep
    split at hstep <;> cases hstep <;> exact iff_of_true hc trivial

theorem enforced_clientConnect_iff (hc : Enforced c.conns) (id : Bytes) (input : Option Bytes) :
    Enforced (c.clientConnect N id input).conns ↔ DialRefuses N c id input := by
  unfold Component.clientConnect
  split
  · next hidle =>
      cases input with
      | none =>
        dsimp only [Option.elim]
        rw [List.append_nil]
        exact iff_of_true hc fun _ => nofun
      | some data =>
        have hnew : (newSocket .dealer id).sec = .null := rfl
        dsimp only [Option.elim]
        rw [enforced_opening_iff hc hnew]
        constructor
        · rintro himp other ⟨⟩ _ hne
          exact himp hne
        · exact fun hrefuses => hrefuses data rfl hidle
  · next hbusy => exact iff_of_true hc fun _ _ hidle => absurd hidle hbusy

theorem enforced_clientStep_iff (hc : Enforced c.conns) {action : ClientAction}
    (hstep : clientStep N c action = some c') : Enforced c'.conns ↔ ClientRefuses N c action := by
  cases action with
  | connect id input =>
    cases hstep
    unfold Component.secured ClientRefuses
    split
    · next err herror =>
        refine iff_of_true hc fun socket happly => ?_
        rw [herror] at happly
        cases happly
    · next socket happly =>
        have hiff : Enforced (Component.clientConnect N { c with socket } id input).conns ↔
            DialRefuses N { c with socket } id input :=
          enforced_clientConnect_iff (c := { c with socket }) hc id input
        rw [hiff]
        exact ⟨fun hrefuses _ _ => hrefuses, fun hrefuses => hrefuses socket happly⟩
  | embeddedConnect id input =>
    cases hstep
    exact enforced_clientConnect_iff hc id input

end Steps

end Malamute

/-- A Zyre node, a Malamute broker and a Malamute client keep to their configuration
throughout a run if and only if, while PLAIN or CURVE is configured, no peer
completes the NULL handshake with them. -/
theorem configured_security_iff (N : Network) (uuid : Bytes) (sm : Zyre.SecurityManager)
    (security : Option Malamute.SecurityMechanism) (actions : List Zyre.Action)
    (brokerActions : List Malamute.BrokerAction) (clientActions : List Malamute.ClientAction)
    {n : Zyre.Node} {broker client : Malamute.Component}
    (hnode : run (Zyre.Node.step N) { uuid, securityMgr := sm } actions = some n)
    (hbroker : run (Malamute.brokerStep N) { security } brokerActions = some broker)
    (hclient : run (Malamute.clientStep N) { security } clientActions = some client) :
    (Always (Zyre.Node.step N) (fun n => Enforced n.conns) { uuid, securityMgr := sm } actions ↔
        Throughout (Zyre.Node.step N) (Zyre.Node.Refuses N) { uuid, securityMgr := sm } actions) ∧
      (Always (Malamute.brokerStep N) (fun c => Enforced c.conns) { security } brokerActions ↔
        Throughout (Malamute.brokerStep N) (Malamute.BrokerRefuses N) { security }
          brokerActions) ∧
      (Always (Malamute.clientStep N) (fun c => Enforced c.conns) { security } clientActions ↔
        Throughout (Malamute.clientStep N) (Malamute.ClientRefuses N) { security }
          clientActions) := by
  refine ⟨?_, ?_, ?_⟩
  · apply always_iff_throughout (J := Zyre.Node.Unsecured) _ _ _ _ hnode
    · exact fun n action n' hn _ hstep => Zyre.Node.unsecured_step hn hstep
    · exact fun n action n' hnull hn hstep => Zyre.Node.enforced_step_iff hnull hn hstep
    · exact fun _ => nofun
    · exact fun _ => nofun
  · apply always_iff_throughout (J := fun c : Malamute.Component => UsesNull c.socket) _ _ _ _
      hbroker
    · exact fun c action c' hc _ hstep => Malamute.usesNull_brokerStep hc hstep
    · exact fun c action c' hnull hc hstep => Malamute.enforced_brokerStep_iff hnull hc hstep
    · exact fun _ => nofun
    · exact fun _ => nofun
  · apply always_iff_throughout (J := fun _ => True) _ _ trivial _ hclient
    · exact fun _ _ _ _ _ _ => trivial
    · exact fun c action c' _ hc hstep => Malamute.enforced_clientStep_iff hc hstep
    · exact fun _ => nofun

section Example

def plainNetwork : Network where
  platform := plainPlatform
  curveOpens _ _ _ _ _ := false
  newSecurityClient _ := .ok ()

def nullPeer : Bytes :=
  greetingWire nullSecurity ++
    match (openMetadata .dealer [7]).marshalZmtp plainPlatform with
    | .ok own => readyWire own
    | .error _ => []

def credentials : Zyre.SecurityConfig where
  type := .plainSecurity
  username := ascii "user"
  password := ascii "pass"

def guardedManager : Zyre.SecurityManager where
  config := credentials
  plain := some (.plain { user := ascii "user", pass := ascii "pass" })
  curve := none

theorem silentPeer_configured_iff :
    (Always (Zyre.Node.step plainNetwork) (fun n => Enforced n.conns)
        { uuid := [1], securityMgr := guardedManager } [.start [9] true, .accept []] ↔
      Throughout (Zyre.Node.step plainNetwork) (Zyre.Node.Refuses plainNetwork)
        { uuid := [1], securityMgr := guardedManager } [.start [9] true, .accept []]) ∧
      (Always (Malamute.brokerStep plainNetwork) (fun c => Enforced c.conns)
          { security := some (.plain (ascii "user") (ascii "pass")) } [.start [9] true] ↔
        Throughout (Malamute.brokerStep plainNetwork) (Malamute.BrokerRefuses plainNetwork)
          { security := some (.plain (ascii "user") (ascii "pass")) } [.start [9] true]) ∧
      (Always (Malamute.clientStep plainNetwork) (fun c => Enforced c.conns)
          { security := some (.plain (ascii "user") (ascii "pass")) } [.connect [9] (some [])] ↔
        Throughout (Malamute.clientStep plainNetwork) (Malamute.ClientRefuses plainNetwork)
          { security := some (.plain (ascii "user") (ascii "pass")) } [.connect [9] (some [])]) :=
  configured_security_iff plainNetwork [1] guardedManager _ _ _ _ rfl rfl rfl

def guardedSocket : Socket :=
  (guardedManager.setOptions (newSocket .router [9])).withOption .identity (.text [1])

def guardedNode : Zyre.Node where
  uuid := [1]
  securityMgr := guardedManager
  state := .starting
  waiting := some .start
  socket := some { socket := guardedSocket, security := guardedManager.getSecurityMechanism }
  listening := true

theorem guardedSocket_opening :
    guardedSocket.opening plainNetwork .plainSecurity true nullPeer =
      [⟨.nullSecurity, .plainSecurity⟩] := by
  have hsec : guardedSocket.sec = .null :=
    (Socket.sec_withOption _ _ _).trans (Zyre.sec_setOptions _ _)
  have hopens :
      plainNetwork.opens true guardedSocket.typ guardedSocket.id nullPeer .null = true := by
    decide +kernel
  rw [opening_eq hsec, if_pos hopens]

theorem nullPeer_accepted :
    Zyre.newSecurityManager plainNetwork (some credentials) = .ok guardedManager ∧
      ∃ n, run (Zyre.Node.step plainNetwork) { uuid := [1], securityMgr := guardedManager }
          [.start [9] true, .accept nullPeer] = some n ∧
        n.conns = [⟨.nullSecurity, .plainSecurity⟩] ∧ ¬ Enforced n.conns := by
  refine ⟨rfl, { guardedNode with conns := [⟨.nullSecurity, .plainSecurity⟩] }, ?_, rfl, ?_⟩
  · refine run_cons_eq_some_iff.mpr ⟨guardedNode, rfl, run_cons_eq_some_iff.mpr ⟨_, ?_, rfl⟩⟩
    exact congrArg (fun conns => some { guardedNode with conns := [] ++ conns }) guardedSocket_opening
  · intro henforced
    exact nomatch henforced _ List.mem_cons_self nofun

end Example

end Zmq4.ConfiguredSecurity
