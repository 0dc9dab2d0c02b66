import Zmq4.CurveMechanism

/-!
The four commands of the CURVE handshake and the two sides that exchange them
(`security/curve/handshake.go`).

What the handshake takes from its surroundings is an argument: the outcome of
generating the transient key pair and the two readings of the clock.  Checks of
the source that no argument can fail, such as the length of a buffer just
allocated with that length, are left out.
-/

namespace Zmq4.CurveHandshake

open ByteCodec DuplexProgram ZmtpMessage ZmtpMetadata Connection BoxScheme CurveMechanism

def helloBodySize : Nat := 200
def welcomeBodySize : Nat := 168
def initiateBodySize : Nat := 256
def vouchBoxSize : Nat := 48

def handshakeNonce (text : String) : Nonce :=
  FixedBytes.ofCopy nonceSize (ascii text)

def helloNonce : Nonce := handshakeNonce "CurveZMQHELLO---"
def cookieNonce : Nonce := handshakeNonce "CurveZMQCOOKIE--"
def initiateNonce : Nonce := handshakeNonce "CurveZMQINITIATE"
def vouchNonce : Nonce := handshakeNonce "CurveZMQVOUCH---"
def readyNonce : Nonce := handshakeNonce "CurveZMQREADY---"

abbrev CurveM (α : Type) := ConnM CurveSecurity α

def getSec : CurveM CurveSecurity := do
  let w ← get
  pure w.sec

def setState (state : HandshakeState) : CurveM Unit :=
  onSec (modify fun s => { s with handshakeState := state })

def deref (pointer : Option KeyPair) : CurveM KeyPair :=
  match pointer with
  | some pair => pure pair
  | none => panicWith "invalid memory address or nil pointer dereference"

def onPeerMeta {α : Type} (x : Program Metadata α) : CurveM α :=
  zoom (fun w => w.conn.peerMeta)
    (fun w peerMeta => { w with conn := { w.conn with peerMeta := peerMeta } }) x

def keyOf (field : Bytes) : Key :=
  FixedBytes.ofCopy keySize field

def publicOnly (publicKey : Key) : KeyPair where
  publicKey := publicKey
  secretKey := zeroKey

section Checks

variable {σ : Type}

def expectCommand (name : Bytes) (cmd : Cmd) : Program σ Unit :=
  require (cmd.name = name)
    (.text ("curve: expected " ++ showBytes name ++ ", got " ++ showBytes cmd.name))

def expectBodySize (name : Bytes) (size : Nat) (body : Bytes) : Program σ Unit :=
  require (body.length = size)
    (.text ("curve: invalid " ++ showBytes name ++
      s!" body size: got {body.length}, want {size}"))

def firstNonzero (body : Bytes) (low high : Nat) : Option Nat :=
  (List.range' low (high - low)).find? fun index => body.getD index 0 != 0

def expectZeros (field : String) (body : Bytes) (low high : Nat) : Program σ Unit :=
  match firstNonzero body low high with
  | none => pure ()
  | some index =>
    failWith (.text ("curve: invalid " ++ field ++
      s!" at byte {index}: got {(body.getD index 0).toNat}, want 0"))

end Checks

variable (B : NaclBox) (P : Platform)

/-- The result of a key generation goes to a field; a failed one leaves nil. -/
def generateKeyPair (assign : Option KeyPair → CurveSecurity → CurveSecurity) (failure : String)
    (generated : Except Err KeyPair) : CurveM Unit :=
  match generated with
  | .ok pair => onSec (modify (assign (some pair)))
  | .error err => do
      onSec (modify (assign none))
      failWith (.wrap failure err)

def marshalMetadata : CurveM Bytes := do
  let w ← get
  wrapping "curve: could not serialize metadata" (fromExcept (w.conn.metadata.marshalZmtp P))

def unmarshalPeerMetadata (metadata : Bytes) : CurveM Unit :=
  wrapping "curve: could not unmarshal peer metadata" (onPeerMeta (unmarshalZmtp P metadata))

/-! HELLO, from the client to the server. -/

def helloBody (clientTransient : Key) (signatureBox : Bytes) : Bytes :=
  zeros 64 ++ (clientTransient.bytes ++ (zeros 64 ++ signatureBox.take 40))

def sendHello : CurveM Unit := do
  let s ← getSec
  let client ← deref s.clientTransient
  let signatureBox ← onSec (sealMessage B (zeros 64) helloNonce s.serverKey client.secretKey)
  require (signatureBox.length = 80)
    (.text s!"curve: invalid signature box size: got {signatureBox.length}, want 80")
  sendCmd (curveSecurity B) cmdHello (helloBody client.publicKey signatureBox)

/-- The signature box of a HELLO is not looked at. -/
def acceptHello (cmd : Cmd) : CurveM Unit := do
  expectCommand cmdHello cmd
  expectBodySize cmdHello helloBodySize cmd.body
  expectZeros "HELLO signature" cmd.body 0 64
  -- the key is stored before the padding is checked
  onSec (modify fun s =>
    { s with clientTransient := some (publicOnly (keyOf (slice cmd.body 64 96))) })
  expectZeros "HELLO padding" cmd.body 96 160

def recvHello : CurveM Unit := do
  let cmd ← wrapping "curve: could not receive HELLO" (recvCmd (curveSecurity B))
  acceptHello cmd

/-! WELCOME, from the server to the client. -/

def cookiePlain (clientTransient serverSecret : Key) (timestamp : Int64) : Bytes :=
  clientTransient.bytes ++ (serverSecret.bytes ++ bigEndian 8 timestamp.toUInt64.toNat)

def welcomeBody (serverTransient : Key) (cookie : Bytes) : Bytes :=
  serverTransient.bytes ++ ((cookie ++ zeros 8) ++ zeros 40)

def sendWelcome (now : Int64) : CurveM Unit := do
  let s ← getSec
  let server ← deref s.serverTransient
  let client ← deref s.clientTransient
  let cookie ← onSec (sealMessage B (cookiePlain client.publicKey server.secretKey now)
    cookieNonce s.keyPair.publicKey s.keyPair.secretKey)
  require (cookie.length = 88)
    (.text s!"curve: invalid cookie size: got {cookie.length}, want 88")
  sendCmd (curveSecurity B) cmdWelcome (welcomeBody server.publicKey cookie)

def acceptWelcome (cmd : Cmd) : CurveM Unit := do
  expectCommand cmdWelcome cmd
  expectBodySize cmdWelcome welcomeBodySize cmd.body
  onSec (modify fun s =>
    { s with
      serverTransient := some (publicOnly (keyOf (slice cmd.body 0 32)))
      cookie := some (slice cmd.body 32 128) })
  expectZeros "WELCOME padding" cmd.body 128 168

def recvWelcome : CurveM Unit := do
  let cmd ← wrapping "curve: could not receive WELCOME" (recvCmd (curveSecurity B))
  acceptWelcome cmd

/-! INITIATE, from the client to the server. -/

def initiateBody (cookie : Bytes) (clientTransient : Key) (metadataBox vouchBox : Bytes) :
    Bytes :=
  cookie ++ (clientTransient.bytes ++ (metadataBox ++ vouchBox))

def metadataPlain (serverTransient clientPermanent : Key) (metadata : Bytes) : Bytes :=
  serverTransient.bytes ++ (clientPermanent.bytes ++ metadata)

def storedCookie (s : CurveSecurity) : CurveM Bytes := do
  let cookie ← orFail s.cookie (.text "curve: no valid cookie available for INITIATE")
  require (cookie.length = 96) (.text "curve: no valid cookie available for INITIATE")
  pure cookie

/-- Both boxes are sealed with the transient secret of the client. -/
def sendInitiate : CurveM Unit := do
  let s ← getSec
  let cookie ← storedCookie s
  let metadata ← marshalMetadata P
  let client ← deref s.clientTransient
  let server ← deref s.serverTransient
  let metadataBox ← onSec (sealMessage B
    (metadataPlain server.publicKey s.keyPair.publicKey metadata) initiateNonce
    server.publicKey client.secretKey)
  let vouchBox ← onSec (sealMessage B s.keyPair.publicKey.bytes vouchNonce s.serverKey
    client.secretKey)
  require (vouchBox.length = vouchBoxSize)
    (.text s!"curve: invalid vouch box size: got {vouchBox.length}, want {vouchBoxSize}")
  sendCmd (curveSecurity B) cmdInitiate
    (initiateBody cookie client.publicKey metadataBox vouchBox)

def cookieTimestamp (cookie : Bytes) : Int64 :=
  (UInt64.ofNat (bigEndianValue (slice cookie 64 72))).toInt64

def restoreCookie (now : Int64) (body : Bytes) : CurveM Key := do
  let s ← getSec
  let opened ← onSec (openMessage B (slice body 0 88) cookieNonce s.keyPair.publicKey
    s.keyPair.secretKey)
  let cookie ← orFail opened (.text "curve: failed to decrypt cookie - invalid or expired")
  require (cookie.length = 72)
    (.text s!"curve: invalid cookie content size: got {cookie.length}, want 72")
  let server ← deref s.serverTransient
  onSec (modify fun s =>
    { s with serverTransient := some { server with secretKey := keyOf (slice cookie 32 64) } })
  require (now - cookieTimestamp cookie ≤ 60) (.text "curve: cookie expired")
  pure (keyOf (slice cookie 0 32))

def checkTransient (fromCookie : Key) (body : Bytes) : CurveM Unit := do
  require (fromCookie = keyOf (slice body 96 128))
    (.text "curve: client transient key mismatch between cookie and message")
  let s ← getSec
  let client ← deref s.clientTransient
  require (keyOf (slice body 96 128) = client.publicKey)
    (.text "curve: client transient key mismatch with HELLO")

def acceptMetadata (body : Bytes) : CurveM Key := do
  let s ← getSec
  let client ← deref s.clientTransient
  let server ← deref s.serverTransient
  let opened ← onSec (openMessage B (slice body 128 (body.length - vouchBoxSize)) initiateNonce
    client.publicKey server.secretKey)
  let plain ← orFail opened (.text "curve: failed to decrypt INITIATE metadata box")
  require (2 * keySize ≤ plain.length) (.text "curve: invalid metadata box content: too short")
  require (slice plain 0 32 = server.publicKey.bytes)
    (.text "curve: server transient key mismatch in INITIATE")
  unmarshalPeerMetadata P (plain.drop 64)
  pure (keyOf (slice plain 32 64))

def acceptVouch (body : Bytes) (clientPermanent : Key) : CurveM Unit := do
  let s ← getSec
  let client ← deref s.clientTransient
  let opened ← onSec (openMessage B (body.drop (body.length - vouchBoxSize)) vouchNonce
    client.publicKey s.keyPair.secretKey)
  let plain ← orFail opened (.text "curve: failed to verify vouch box")
  require (plain.length = keySize)
    (.text s!"curve: invalid vouch content size: got {plain.length}, want {keySize}")
  require (plain = clientPermanent.bytes)
    (.text "curve: vouch verification failed - key mismatch")

def acceptInitiate (now : Int64) (cmd : Cmd) : CurveM Unit := do
  expectCommand cmdInitiate cmd
  require (initiateBodySize ≤ cmd.body.length)
    (.text s!"curve: INITIATE body too small: got {cmd.body.length}, want at least {initiateBodySize}")
  let fromCookie ← restoreCookie B now cmd.body
  checkTransient fromCookie cmd.body
  let clientPermanent ← acceptMetadata B P cmd.body
  acceptVouch B cmd.body clientPermanent
  -- the field for the server's key holds the client's key on the server
  onSec (modify fun s => { s with serverKey := clientPermanent })

def recvInitiate (now : Int64) : CurveM Unit := do
  let cmd ← wrapping "curve: could not receive INITIATE" (recvCmd (curveSecurity B))
  acceptInitiate B P now cmd

/-! READY, from the server to the client. -/

def sendReady : CurveM Unit := do
  let metadata ← marshalMetadata P
  let s ← getSec
  let client ← deref s.clientTransient
  let server ← deref s.serverTransient
  let readyBox ← onSec (sealMessage B metadata readyNonce client.publicKey server.secretKey)
  sendCmd (curveSecurity B) cmdReady readyBox

def acceptReady (cmd : Cmd) : CurveM Unit := do
  expectCommand cmdReady cmd
  let s ← getSec
  let server ← deref s.serverTransient
  let client ← deref s.clientTransient
  let opened ← onSec (openMessage B cmd.body readyNonce server.publicKey client.secretKey)
  let metadata ← orFail opened (.text "curve: failed to decrypt READY box")
  unmarshalPeerMetadata P metadata

def recvReady : CurveM Unit := do
  let cmd ← wrapping "curve: could not receive READY" (recvCmd (curveSecurity B))
  acceptReady B P cmd

def finishHandshake : CurveM Unit :=
  onSec (modify CurveSecurity.finished)

/-! The client, in stages that end with what it sends or receives. -/

def clientKeys (generated : Except Err KeyPair) : CurveM Unit :=
  generateKeyPair (fun pair s => { s with clientTransient := pair })
    "curve: failed to generate client transient keys" generated

def clientHello (generated : Except Err KeyPair) : CurveM Unit := do
  setState .init
  clientKeys generated
  setState .hello
  wrapping "curve: failed to send HELLO" (sendHello B)

def clientWelcome : CurveM Unit := do
  wrapping "curve: failed to receive WELCOME" (recvWelcome B)
  setState .welcome

def clientInitiate : CurveM Unit := do
  setState .initiate
  wrapping "curve: failed to send INITIATE" (sendInitiate B P)

def clientReady : CurveM Unit := do
  wrapping "curve: failed to receive READY" (recvReady B P)
  setState .ready

def clientHandshake (generated : Except Err KeyPair) : CurveM Unit := do
  clientHello B generated
  clientWelcome B
  clientInitiate B P
  clientReady B P
  finishHandshake

/-! The server, in the stages between which other connections can run. -/

def serverHello : CurveM Unit := do
  wrapping "curve: failed to receive HELLO" (recvHello B)
  setState .hello

def serverKeys (generated : Except Err KeyPair) : CurveM Unit :=
  generateKeyPair (fun pair s => { s with serverTransient := pair })
    "curve: failed to generate server transient keys" generated

def serverWelcome (now : Int64) : CurveM Unit := do
  setState .welcome
  wrapping "curve: failed to send WELCOME" (sendWelcome B now)

def serverInitiate (now : Int64) : CurveM Unit := do
  wrapping "curve: failed to receive INITIATE" (recvInitiate B P now)
  setState .initiate

def serverReady : CurveM Unit := do
  setState .ready
  wrapping "curve: failed to send READY" (sendReady B P)

def serverWelcomes (generated : Except Err KeyPair) (now : Int64) : CurveM Unit := do
  setState .init
  serverHello B
  serverKeys generated
  serverWelcome B now

def serverAccepts (generated : Except Err KeyPair) (sealedAt openedAt : Int64) : CurveM Unit := do
  serverWelcomes B generated sealedAt
  serverInitiate B P openedAt

def serverHandshake (generated : Except Err KeyPair) (sealedAt openedAt : Int64) :
    CurveM Unit := do
  serverAccepts B P generated sealedAt openedAt
  serverReady B P
  finishHandshake

end Zmq4.CurveHandshake
