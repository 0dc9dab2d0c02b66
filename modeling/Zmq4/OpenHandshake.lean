import Zmq4.ConnectionStreams
import Zmq4.FramingRoundTrip
import Zmq4.MetadataRoundTrip

namespace Zmq4.OpenHandshake

open ByteCodec DuplexProgram ProgramStreams ZmtpMessage ZmtpMetadata
  MetadataRoundTrip Connection FrameStream FramingRoundTrip CommandStream ConnectionStreams

def errGreeting : Err := .text "zmq4: invalid greeting received"
def errSecMech : Err := .text "zmq4: invalid security mechanism"
def errBadSec : Err := .text "zmq4: invalid or unsupported security mechanism"
def errBoolCnv : Err := .text "zmq4: invalid byte to bool conversion"

def sigHeader : UInt8 := 0xFF
def sigFooter : UInt8 := 0x7F

def zmtpMsgLen : Nat := 64

def defaultVersion : UInt8 × UInt8 := (3, 0)

def cmdError : Bytes := ascii "ERROR"

def securityName : SecurityType → Bytes
  | .nullSecurity => ascii "NULL"
  | .plainSecurity => ascii "PLAIN"
  | .curveSecurity => ascii "CURVE"

def asString (bytes : Bytes) : Bytes :=
  bytes.takeWhile (· ≠ 0)

def asBool (byte : UInt8) : Except Stop Bool :=
  if byte = 0 then .ok false
  else if byte = 1 then .ok true
  else .error (.fail errBoolCnv)

structure Greeting where
  header : UInt8
  footer : UInt8
  version : UInt8 × UInt8
  mechanism : FixedBytes 20
  server : UInt8
  deriving DecidableEq

namespace Greeting

def marshal (g : Greeting) : Bytes :=
  (g.header :: zeros 8 ++ [g.footer, g.version.1, g.version.2]) ++
    (g.mechanism.bytes ++ (g.server :: zeros 31))

def unmarshal (data : Bytes) : Greeting where
  header := data.getD 0 0
  footer := data.getD 9 0
  version := (data.getD 10 0, data.getD 11 0)
  mechanism := FixedBytes.ofCopy 20 (slice data 12 32)
  server := data.getD 32 0

/-- Versions above the reference are accepted as they are. -/
def validate (g : Greeting) (ref : UInt8 × UInt8) : Bool :=
  g.version = ref || g.version.1 > ref.1 || (g.version.1 = ref.1 && g.version.2 > ref.2)

def versionText (version : UInt8 × UInt8) : String :=
  s!"[{version.1} {version.2}]"

def read : Program Duplex Greeting := do
  let data ← wrapping "could not read ZMTP greeting" (readFull zmtpMsgLen)
  let g := unmarshal data
  require (g.header = sigHeader) (.wrap "invalid ZMTP signature header" errGreeting)
  require (g.footer = sigFooter) (.wrap "invalid ZMTP signature footer" errGreeting)
  require (g.validate defaultVersion = true)
    (.wrap ("invalid ZMTP version (got=" ++ versionText g.version ++ ", want=" ++
      versionText defaultVersion ++ ")") errGreeting)
  pure g

/-- The greeting a connection sends.  The server byte stays zero on both
sides. -/
def ours (kind : Bytes) : Greeting where
  header := sigHeader
  footer := sigFooter
  version := defaultVersion
  mechanism := FixedBytes.ofCopy 20 kind
  server := 0

theorem marshal_length (g : Greeting) : g.marshal.length = zmtpMsgLen := by
  simp [marshal, zmtpMsgLen]

theorem unmarshal_marshal (g : Greeting) : unmarshal g.marshal = g := by
  obtain ⟨header, footer, version, mechanism, server⟩ := g
  have hfield : slice (marshal ⟨header, footer, version, mechanism, server⟩) 12 32 =
      mechanism.bytes := slice_append rfl (by simp)
  have hserver : (marshal ⟨header, footer, version, mechanism, server⟩).getD 32 0 = server := by
    simp [marshal, zeros]
  rw [unmarshal, hfield, hserver, FixedBytes.ofCopy_self]
  rfl

end Greeting

section Programs

variable {σ : Type}

def recvGreeting (kind : Bytes) : ConnM σ Unit := do
  let recv ← wrapping "zmq4: could not recv greeting" (checked (onRw Greeting.read))
  require (asString recv.mechanism.bytes = kind) errBadSec
  let _ ← wrapping "zmq4: could not get peer server flag" (fromExcept (asBool recv.server))
  pure ()

def greet (S : Security σ) : ConnM σ Unit :=
  let kind := securityName S.securityType
  if kind.length > 20 then failWith errSecMech
  else do
    wrapping "zmq4: could not send greeting" (checked (onRw (write (Greeting.ours kind).marshal)))
    recvGreeting kind

/-- A mechanism as `Open` uses it: with its handshake, which is told whether
this side is the server. -/
structure Mechanism (σ : Type) where
  security : Security σ
  handshake : Bool → ConnM σ Unit

def SocketType.ofName (name : Bytes) : Option SocketType :=
  [SocketType.pair, .pub, .sub, .req, .rep, .dealer, .router, .pull, .push, .xpub, .xsub].find?
    fun sockType => sockType.name = name

def checkPeerType (typ : SocketType) : ConnM σ Unit := do
  let name := (← get).conn.peerMeta.get sysSockType
  match SocketType.ofName name with
  | none => panicWith ("unknown socket-type: \"" ++ showBytes name ++ "\"")
  | some peer =>
    require (peer.isCompatible typ = true)
      (.text ("zmq4: peer=\"" ++ showBytes peer.name ++ "\" not compatible with \"" ++
        showBytes typ.name ++ "\""))

def init (M : Mechanism σ) (server : Bool) (typ : SocketType) : ConnM σ Unit := do
  wrapping "zmq4: could not exchange greetings" (greet M.security)
  wrapping "zmq4: could not perform security handshake" (M.handshake server)
  checkPeerType typ

def openConn (M : Mechanism σ) (server : Bool) (typ : SocketType) : ConnM σ Unit :=
  wrapping "zmq4: could not initialize ZMTP connection" (init M server typ)

variable (P : Platform)

def marshalOwn : ConnM σ Bytes := do
  let w ← get
  fromExcept (w.conn.metadata.marshalZmtp P)

def unmarshalPeer (data : Bytes) : ConnM σ Unit :=
  zoom (fun w => w.conn.peerMeta)
    (fun w peerMeta => { w with conn := { w.conn with peerMeta := peerMeta } })
    (unmarshalZmtp P data)

def nullSendReady (origin : String) : ConnM Unit Unit := do
  let raw ← wrapping (origin ++ ": could not marshal metadata") (marshalOwn P)
  wrapping (origin ++ ": could not send metadata to peer") (sendCmd nullSecurity cmdReady raw)

def nullRecvReady (origin : String) : ConnM Unit Unit := do
  let cmd ← wrapping (origin ++ ": could not recv metadata from peer") (recvCmd nullSecurity)
  require (cmd.name = cmdReady) errBadCmd
  wrapping (origin ++ ": could not unmarshal peer metadata") (unmarshalPeer P cmd.body)

/-- The NULL handshake.  It exists twice, with the same steps and its own name
in the errors. -/
def nullHandshake (origin : String) : ConnM Unit Unit := do
  nullSendReady P origin
  nullRecvReady P origin

def nullMechanism (origin : String) : Mechanism Unit where
  security := nullSecurity
  handshake _ := nullHandshake P origin

/-- No credentials are checked. -/
def validateHello (_ : Bytes) : Except Stop Unit :=
  .ok ()

/-- Tell the peer and fail.  Whether the peer can be told does not matter. -/
def refuse {α : Type} (reason : String) (err : Err) : ConnM PlainSecurity α := do
  rescue (sendCmd plainSecurity cmdError (ascii reason)) fun _ => pure ()
  failWith err

/-! The server side: HELLO is answered by WELCOME, INITIATE by READY. -/

def plainServerWelcome : ConnM PlainSecurity Unit := do
  let cmd ← wrapping "security/plain: could not receive HELLO from client" (recvCmd plainSecurity)
  require (cmd.name = cmdHello) (.text "security/plain: expected HELLO command")
  rescue (fromExcept (validateHello cmd.body)) fun err =>
    refuse "invalid" (.wrap "security/plain: could not authenticate client" err)
  wrapping "security/plain: could not send WELCOME to client" (sendCmd plainSecurity cmdWelcome [])

/-- The name of the second command is not looked at. -/
def plainServerReady : ConnM PlainSecurity Unit := do
  let cmd ← wrapping "security/plain: could not receive INITIATE from client"
    (recvCmd plainSecurity)
  wrapping "security/plain: could not unmarshal peer metadata" (unmarshalPeer P cmd.body)
  let raw ← rescue (marshalOwn P) fun err =>
    refuse "invalid" (.wrap "security/plain: could not serialize metadata" err)
  wrapping "security/plain: could not send READY to client" (sendCmd plainSecurity cmdReady raw)

def plainServerHandshake : ConnM PlainSecurity Unit := do
  plainServerWelcome
  plainServerReady P

/-! The client side. -/

def helloBody (sec : PlainSecurity) : Bytes :=
  UInt8.ofNat sec.user.length :: sec.user ++ UInt8.ofNat sec.pass.length :: sec.pass

def expectReply (name : Bytes) (text : String) (cmd : Cmd) : ConnM PlainSecurity Unit :=
  if cmd.name = name then pure ()
  else refuse "invalid command" (.text (text ++ ": %!w(<nil>)"))

def plainClientHello : ConnM PlainSecurity Unit := do
  let w ← get
  wrapping "security/plain: could not send HELLO to server"
    (sendCmd plainSecurity cmdHello (helloBody w.sec))

def plainClientInitiate : ConnM PlainSecurity Unit := do
  let cmd ← wrapping "security/plain: could not receive WELCOME from server"
    (recvCmd plainSecurity)
  expectReply cmdWelcome "security/plain: expected a WELCOME command from server" cmd
  let raw ← rescue (marshalOwn P) fun err =>
    refuse "internal error" (.wrap "security/plain: could not serialize metadata" err)
  wrapping "security/plain: could not send INITIATE to server"
    (sendCmd plainSecurity cmdInitiate raw)

def plainClientReady : ConnM PlainSecurity Unit := do
  let cmd ← wrapping "security/plain: could not receive READY from server" (recvCmd plainSecurity)
  expectReply cmdReady "security/plain: expected a READY command from server" cmd
  wrapping "security/plain: could not unmarshal peer metadata" (unmarshalPeer P cmd.body)
  onSec (modify fun _ => { user := [], pass := [] })

def plainClientHandshake : ConnM PlainSecurity Unit := do
  plainClientHello
  plainClientInitiate P
  plainClientReady P

def plainMechanism : Mechanism PlainSecurity where
  security := plainSecurity
  handshake server := if server then plainServerHandshake P else plainClientHandshake P

end Programs

section Streaming

variable {σ : Type} (P : Platform)

theorem greetingRead_streams : Streams duplexFeed Greeting.read := by
  apply Streams.bind (.wrapping (readFull_streams zmtpMsgLen))
  intro data
  apply Streams.bind (.require _)
  intro _
  apply Streams.bind (.require _)
  intro _
  exact .bind (.require _) fun _ => .pure _

theorem recvGreeting_streams (kind : Bytes) : Streams (endpointFeed σ) (recvGreeting kind) := by
  apply Streams.bind (.wrapping (checked_streams (onRw_streams greetingRead_streams)))
  intro recv
  apply Streams.bind (.require _)
  intro _
  exact .bind (.wrapping (.fromExcept _)) fun _ => .pure ()

theorem greet_streams (S : Security σ) : Streams (endpointFeed σ) (greet S) := by
  unfold greet
  dsimp only
  split
  · exact .failWith _
  apply Streams.bind (.wrapping (checkedWrite_streams _))
  intro _
  exact recvGreeting_streams _

theorem checkPeerType_streams (typ : SocketType) :
    Streams (endpointFeed σ) (checkPeerType typ) := by
  apply Streams.get_bind (fun _ _ => rfl)
  intro w
  dsimp only
  split
  · exact .panicWith _
  · exact .require _

theorem marshalOwn_streams : Streams (endpointFeed σ) (marshalOwn P) := by
  apply Streams.get_bind (fun _ _ => rfl)
  intro w
  exact .fromExcept _

theorem unmarshalPeer_streams (data : Bytes) : Streams (endpointFeed σ) (unmarshalPeer P data) :=
  Streams.zoom_other _ (fun _ _ => rfl) (fun _ _ _ => rfl) (fun _ _ => rfl)

theorem nullSendReady_streams (origin : String) :
    Streams (endpointFeed Unit) (nullSendReady P origin) := by
  apply Streams.bind (.wrapping (marshalOwn_streams P))
  intro raw
  exact .wrapping (sendCmd_streams _ _ _)

theorem nullRecvReady_streams (origin : String) :
    Streams (endpointFeed Unit) (nullRecvReady P origin) := by
  apply Streams.bind (.wrapping (recvCmd_streams _))
  intro cmd
  apply Streams.bind (.require _)
  intro _
  exact .wrapping (unmarshalPeer_streams P _)

theorem refuse_streams {α : Type} (reason : String) (err : Err) :
    Streams (endpointFeed PlainSecurity) (refuse reason err : ConnM PlainSecurity α) := by
  apply Streams.bind (.rescue (sendCmd_streams _ _ _) fun _ => .pure ())
  intro _
  exact .failWith err

theorem expectReply_streams (name : Bytes) (text : String) (cmd : Cmd) :
    Streams (endpointFeed PlainSecurity) (expectReply name text cmd) := by
  unfold expectReply
  split
  · exact .pure ()
  · exact refuse_streams _ _

theorem plainServerWelcome_streams :
    Streams (endpointFeed PlainSecurity) plainServerWelcome := by
  apply Streams.bind (.wrapping (recvCmd_streams _))
  intro cmd
  apply Streams.bind (.require _)
  intro _
  apply Streams.bind (.rescue (.fromExcept _) fun _ => refuse_streams _ _)
  intro _
  exact .wrapping (sendCmd_streams _ _ _)

theorem plainServerReady_streams :
    Streams (endpointFeed PlainSecurity) (plainServerReady P) := by
  apply Streams.bind (.wrapping (recvCmd_streams _))
  intro cmd
  apply Streams.bind (.wrapping (unmarshalPeer_streams P _))
  intro _
  apply Streams.bind (.rescue (marshalOwn_streams P) fun _ => refuse_streams _ _)
  intro raw
  exact .wrapping (sendCmd_streams _ _ _)

theorem plainClientHello_streams : Streams (endpointFeed PlainSecurity) plainClientHello := by
  apply Streams.get_bind (fun _ _ => rfl)
  intro w
  exact .wrapping (sendCmd_streams _ _ _)

theorem plainClientInitiate_streams :
    Streams (endpointFeed PlainSecurity) (plainClientInitiate P) := by
  apply Streams.bind (.wrapping (recvCmd_streams _))
  intro cmd
  apply Streams.bind (expectReply_streams _ _ _)
  intro _
  apply Streams.bind (.rescue (marshalOwn_streams P) fun _ => refuse_streams _ _)
  intro raw
  exact .wrapping (sendCmd_streams _ _ _)

theorem plainClientReady_streams :
    Streams (endpointFeed PlainSecurity) (plainClientReady P) := by
  apply Streams.bind (.wrapping (recvCmd_streams _))
  intro cmd
  apply Streams.bind (expectReply_streams _ _ _)
  intro _
  apply Streams.bind (.wrapping (unmarshalPeer_streams P _))
  intro _
  exact onSec_streams _

theorem openConn_streams {M : Mechanism σ} {server : Bool}
    (hhandshake : Streams (endpointFeed σ) (M.handshake server)) (typ : SocketType) :
    Streams (endpointFeed σ) (openConn M server typ) := by
  apply Streams.wrapping
  apply Streams.bind (.wrapping (greet_streams M.security))
  intro _
  apply Streams.bind (.wrapping hhandshake)
  intro _
  exact checkPeerType_streams typ

theorem nullMechanism_streams (origin : String) (server : Bool) :
    Streams (endpointFeed Unit) ((nullMechanism P origin).handshake server) :=
  Streams.bind (nullSendReady_streams P origin) fun _ => nullRecvReady_streams P origin

theorem plainMechanism_streams (server : Bool) :
    Streams (endpointFeed PlainSecurity) ((plainMechanism P).handshake server) := by
  cases server with
  | true =>
    exact .bind plainServerWelcome_streams fun _ => plainServerReady_streams P
  | false =>
    apply Streams.bind plainClientHello_streams
    intro _
    exact .bind (plainClientInitiate_streams P) fun _ => plainClientReady_streams P

end Streaming

section Runs

variable {σ : Type} {S : Security σ} {w : Endpoint σ}

def greetingWire (S : Security σ) : Bytes :=
  (Greeting.ours (securityName S.securityType)).marshal

theorem Greeting.read_run {rw : Duplex} {kind rest : Bytes}
    (hinput : rw.input = (Greeting.ours kind).marshal ++ rest) :
    Greeting.read.run rw = .ok (Greeting.ours kind) { rw with input := rest } := by
  have hread := readFull_append hinput (Greeting.ours kind).marshal_length
  have hsame := (Greeting.ours kind).unmarshal_marshal
  have hheader : (Greeting.unmarshal (Greeting.ours kind).marshal).header = sigHeader :=
    congrArg Greeting.header hsame
  have hfooter : (Greeting.unmarshal (Greeting.ours kind).marshal).footer = sigFooter :=
    congrArg Greeting.footer hsame
  have hvalid : (Greeting.unmarshal (Greeting.ours kind).marshal).validate defaultVersion = true := by
    rw [hsame]
    simp [Greeting.validate, Greeting.ours]
  rw [Greeting.read, bind_ok (wrapping_ok hread)]
  dsimp only
  rw [bind_ok (require_ok _ hheader), bind_ok (require_ok _ hfooter),
    bind_ok (require_ok _ hvalid), hsame]
  rfl

theorem asString_ours (kind : SecurityType) :
    asString (Greeting.ours (securityName kind)).mechanism.bytes = securityName kind := by
  cases kind <;> decide

theorem greet_eq (hw : w.Healthy) :
    (greet S).run w =
      (recvGreeting (securityName S.securityType)).run (w.wrote [greetingWire S]) := by
  have hkind : ¬ (securityName S.securityType).length > 20 := by
    cases S.securityType <;> decide
  have hwrite : (checked (onRw (write (Greeting.ours (securityName S.securityType)).marshal))).run w =
      .ok () (w.wrote [greetingWire S]) := write_run hw _
  unfold greet
  dsimp only
  rw [if_neg hkind, bind_ok (wrapping_ok hwrite)]

theorem greet_run (hw : w.Healthy) {rest : Bytes}
    (hinput : w.conn.rw.input = greetingWire S ++ rest) :
    (greet S).run w = .ok () ((w.wrote [greetingWire S]).withInput rest) := by
  have hrecv : (checked (onRw Greeting.read)).run (w.wrote [greetingWire S]) =
      .ok (Greeting.ours (securityName S.securityType))
        ((w.wrote [greetingWire S]).withInput rest) :=
    checked_ok (zoom_ok (Greeting.read_run hinput))
  have hserver : (fromExcept (asBool (Greeting.ours (securityName S.securityType)).server)).run
      ((w.wrote [greetingWire S]).withInput rest) =
        .ok false ((w.wrote [greetingWire S]).withInput rest) := fromExcept_ok _ rfl
  rw [greet_eq hw, recvGreeting, bind_ok (wrapping_ok hrecv),
    bind_ok (require_ok _ (asString_ours S.securityType)), bind_ok (wrapping_ok hserver)]
  rfl

theorem sendCmd_transparent (hS : Transparent S) (hw : w.Healthy) {name : Bytes}
    (hname : name.length ≤ 255) (body : Bytes) :
    ∃ buffers, (sendCmd S name body).run w = .ok () (w.wrote buffers) ∧
      buffers.flatten = commandWire { name := name, body := body } := by
  have hopen : ¬ w.conn.closed = true := by simp [hw.notClosed]
  have hcurve : ¬ (S.securityType = .curveSecurity ∧ isCurveHandshakeCommand name = true) :=
    fun h => hS.notCurve h.1
  let wire := UInt8.ofNat name.length :: (name ++ body)
  have hmarshal : Cmd.marshalZmtp { name := name, body := body } = .ok wire :=
    (@Cmd.unmarshal_marshal { name := name, body := body } hname).1
  have hne : wire ≠ [] := by simp [wire]
  have hsend := hS.send_run hw true wire 0
  rw [if_neg hne] at hsend
  refine ⟨[frameHeader (frameFlag S true wire 0) wire.length, wire], ?_, ?_⟩
  · rw [sendCmd, bind_ok (EStateM.run_get w), if_neg hopen, if_neg hcurve, marshalAndSend,
      hmarshal]
    exact hsend
  · simp [frameFlag, hS.frameSize_eq, commandWire, wire]

theorem plainCommands_transparent (hS : Transparent S) (sec : σ) : PlainCommands S sec := by
  intro body w _
  have hcurve : isCurveHandshake S w = false := by simp [isCurveHandshake, hS.notCurve]
  have hframe : (openFrame S body).run w.sec = .ok body w.sec := by
    unfold openFrame
    split
    · rfl
    · exact hS.decrypt_run body w.sec
  rw [frameContent, bind_ok (EStateM.run_get w), hcurve]
  exact onSec_ok hframe

theorem SocketType.ofName_name (sockType : SocketType) :
    SocketType.ofName sockType.name = some sockType := by
  cases sockType <;> decide

def withPeer (w : Endpoint σ) (peerMeta : Metadata) : Endpoint σ :=
  { w with conn := { w.conn with peerMeta := peerMeta } }

theorem unmarshalPeer_run {P : Platform} {data : Bytes} {peerMeta : Metadata}
    (hdata : (unmarshalZmtp P data).run w.conn.peerMeta = .ok () peerMeta) :
    (unmarshalPeer P data).run w = .ok () (withPeer w peerMeta) :=
  zoom_ok hdata

theorem marshalOwn_run {P : Platform} {own : Bytes}
    (hown : w.conn.metadata.marshalZmtp P = .ok own) : (marshalOwn P).run w = .ok own w := by
  rw [marshalOwn, bind_ok (EStateM.run_get w)]
  exact fromExcept_ok w hown

structure Sendable (name body : Bytes) : Prop where
  name_le : name.length ≤ 255
  size_le : 1 + name.length + body.length ≤ maxInt64

theorem recvCmd_transparent (hS : Transparent S) (hw : w.Healthy) {name body rest : Bytes}
    (hcmd : Sendable name body)
    (hinput : w.conn.rw.input = commandWire { name := name, body := body } ++ rest) :
    (recvCmd S).run w = .ok { name := name, body := body } (w.withInput rest) :=
  CommandStream.recvCmd_run (plainCommands_transparent hS w.sec) hw.notClosed hcmd.name_le hcmd.size_le hinput

end Runs

section Stages

variable {P : Platform} {own peerOwn : Bytes} (rest : Bytes) {peerMeta : Metadata}

section Null

variable {w : Endpoint Unit} (origin : String)

theorem nullSendReady_run (hw : w.Healthy) (hown : w.conn.metadata.marshalZmtp P = .ok own) :
    ∃ buffers, (nullSendReady P origin).run w = .ok () (w.wrote buffers) ∧
      buffers.flatten = commandWire { name := cmdReady, body := own } := by
  obtain ⟨buffers, hsend, hflatten⟩ :=
    sendCmd_transparent transparent_nullSecurity hw (show cmdReady.length ≤ 255 by decide) own
  refine ⟨buffers, ?_, hflatten⟩
  rw [nullSendReady, bind_ok (wrapping_ok (marshalOwn_run hown))]
  exact wrapping_ok hsend

theorem nullRecvReady_run (hw : w.Healthy) (hcmd : Sendable cmdReady peerOwn)
    (hpeer : (unmarshalZmtp P peerOwn).run w.conn.peerMeta = .ok () peerMeta)
    (hinput : w.conn.rw.input = commandWire { name := cmdReady, body := peerOwn } ++ rest) :
    (nullRecvReady P origin).run w = .ok () (withPeer (w.withInput rest) peerMeta) := by
  rw [nullRecvReady,
    bind_ok (wrapping_ok (recvCmd_transparent transparent_nullSecurity hw hcmd hinput)),
    bind_ok (require_ok _ rfl)]
  exact wrapping_ok (unmarshalPeer_run hpeer)

end Null

section Plain

variable {w : Endpoint PlainSecurity}

theorem plainServerWelcome_run (hw : w.Healthy) {body : Bytes} (hcmd : Sendable cmdHello body)
    (hinput : w.conn.rw.input = commandWire { name := cmdHello, body := body } ++ rest) :
    ∃ buffers, plainServerWelcome.run w = .ok () ((w.withInput rest).wrote buffers) ∧
      buffers.flatten = commandWire { name := cmdWelcome, body := [] } := by
  have hw' : (w.withInput rest).Healthy := ⟨hw.notClosed, hw.writable⟩
  obtain ⟨buffers, hsend, hflatten⟩ :=
    sendCmd_transparent transparent_plainSecurity hw' (show cmdWelcome.length ≤ 255 by decide) []
  refine ⟨buffers, ?_, hflatten⟩
  have hvalidate : (fromExcept (validateHello body)).run (w.withInput rest) =
      .ok () (w.withInput rest) := rfl
  rw [plainServerWelcome,
    bind_ok (wrapping_ok (recvCmd_transparent transparent_plainSecurity hw hcmd hinput)),
    bind_ok (require_ok _ rfl), bind_ok (rescue_ok hvalidate)]
  exact wrapping_ok hsend

theorem plainServerReady_run (hw : w.Healthy) (hcmd : Sendable cmdInitiate peerOwn)
    (hown : w.conn.metadata.marshalZmtp P = .ok own)
    (hpeer : (unmarshalZmtp P peerOwn).run w.conn.peerMeta = .ok () peerMeta)
    (hinput : w.conn.rw.input = commandWire { name := cmdInitiate, body := peerOwn } ++ rest) :
    ∃ buffers, (plainServerReady P).run w =
        .ok () ((withPeer (w.withInput rest) peerMeta).wrote buffers) ∧
      buffers.flatten = commandWire { name := cmdReady, body := own } := by
  have hw' : (withPeer (w.withInput rest) peerMeta).Healthy := ⟨hw.notClosed, hw.writable⟩
  obtain ⟨buffers, hsend, hflatten⟩ :=
    sendCmd_transparent transparent_plainSecurity hw' (show cmdReady.length ≤ 255 by decide) own
  refine ⟨buffers, ?_, hflatten⟩
  have hunmarshal : (unmarshalPeer P peerOwn).run (w.withInput rest) =
      .ok () (withPeer (w.withInput rest) peerMeta) := unmarshalPeer_run hpeer
  have hmarshal : (marshalOwn P).run (withPeer (w.withInput rest) peerMeta) =
      .ok own (withPeer (w.withInput rest) peerMeta) := marshalOwn_run hown
  rw [plainServerReady,
    bind_ok (wrapping_ok (recvCmd_transparent transparent_plainSecurity hw hcmd hinput)),
    bind_ok (wrapping_ok hunmarshal), bind_ok (rescue_ok hmarshal)]
  exact wrapping_ok hsend

theorem plainClientHello_run (hw : w.Healthy) :
    ∃ buffers, plainClientHello.run w = .ok () (w.wrote buffers) ∧
      buffers.flatten = commandWire { name := cmdHello, body := helloBody w.sec } := by
  obtain ⟨buffers, hsend, hflatten⟩ :=
    sendCmd_transparent transparent_plainSecurity hw (show cmdHello.length ≤ 255 by decide)
      (helloBody w.sec)
  refine ⟨buffers, ?_, hflatten⟩
  rw [plainClientHello, bind_ok (EStateM.run_get w)]
  exact wrapping_ok hsend

theorem plainClientInitiate_run (hw : w.Healthy)
    (hown : w.conn.metadata.marshalZmtp P = .ok own)
    (hinput : w.conn.rw.input = commandWire { name := cmdWelcome, body := [] } ++ rest) :
    ∃ buffers, (plainClientInitiate P).run w = .ok () ((w.withInput rest).wrote buffers) ∧
      buffers.flatten = commandWire { name := cmdInitiate, body := own } := by
  have hw' : (w.withInput rest).Healthy := ⟨hw.notClosed, hw.writable⟩
  obtain ⟨buffers, hsend, hflatten⟩ :=
    sendCmd_transparent transparent_plainSecurity hw' (show cmdInitiate.length ≤ 255 by decide)
      own
  refine ⟨buffers, ?_, hflatten⟩
  have hcmd : Sendable cmdWelcome [] := ⟨by decide, by decide⟩
  have hmarshal : (marshalOwn P).run (w.withInput rest) = .ok own (w.withInput rest) :=
    marshalOwn_run hown
  rw [plainClientInitiate,
    bind_ok (wrapping_ok (recvCmd_transparent transparent_plainSecurity hw hcmd hinput)),
    expectReply, if_pos rfl, pure_bind, bind_ok (rescue_ok hmarshal)]
  exact wrapping_ok hsend

theorem plainClientReady_run (hw : w.Healthy) (hcmd : Sendable cmdReady peerOwn)
    (hpeer : (unmarshalZmtp P peerOwn).run w.conn.peerMeta = .ok () peerMeta)
    (hinput : w.conn.rw.input = commandWire { name := cmdReady, body := peerOwn } ++ rest) :
    (plainClientReady P).run w =
      .ok () ((withPeer (w.withInput rest) peerMeta).withSec { user := [], pass := [] }) := by
  have hunmarshal : (unmarshalPeer P peerOwn).run (w.withInput rest) =
      .ok () (withPeer (w.withInput rest) peerMeta) := unmarshalPeer_run hpeer
  rw [plainClientReady,
    bind_ok (wrapping_ok (recvCmd_transparent transparent_plainSecurity hw hcmd hinput)),
    expectReply, if_pos rfl, pure_bind, bind_ok (wrapping_ok hunmarshal)]
  rfl

end Plain

end Stages

end Zmq4.OpenHandshake
