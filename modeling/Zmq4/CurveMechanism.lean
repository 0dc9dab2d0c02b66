import Zmq4.BoxScheme
import Zmq4.Connection

namespace Zmq4.CurveMechanism

open ByteCodec DuplexProgram ZmtpMessage Connection BoxScheme

inductive HandshakeState where
  | init
  | hello
  | welcome
  | initiate
  | ready
  | complete
  deriving DecidableEq

def HandshakeState.toNat : HandshakeState → Nat
  | .init => 0
  | .hello => 1
  | .welcome => 2
  | .initiate => 3
  | .ready => 4
  | .complete => 5

/-- The state of one security value.  `calls` is not a field of the source: it
records the box operations carried out, and no operation reads it. -/
structure CurveSecurity where
  keyPair : KeyPair
  serverKey : Key
  isServer : Bool
  clientTransient : Option KeyPair
  serverTransient : Option KeyPair
  cookie : Option Bytes
  clientNonce : UInt64
  serverNonce : UInt64
  messageEncryptionReady : Bool
  handshakeState : HandshakeState
  calls : List BoxCall

def zeroKey : Key := FixedBytes.ofCopy keySize []

def newClientSecurity (clientKeys : KeyPair) (serverPublicKey : Key) : CurveSecurity where
  keyPair := clientKeys
  serverKey := serverPublicKey
  isServer := false
  clientTransient := none
  serverTransient := none
  cookie := none
  clientNonce := 0
  serverNonce := 0
  messageEncryptionReady := false
  handshakeState := .init
  calls := []

def newServerSecurity (serverKeys : KeyPair) : CurveSecurity :=
  { newClientSecurity serverKeys zeroKey with isServer := true }

def CurveSecurity.finished (s : CurveSecurity) : CurveSecurity :=
  { s with
    handshakeState := .complete
    serverNonce := 0
    clientNonce := 0
    messageEncryptionReady := true }

def errInvalidCommand : Err := .text "curve: invalid command format"
def errDecryptionFailed : Err := .text "curve: decryption failed"

section Boxes

variable (B : NaclBox)

def sealMessage (message : Bytes) (nonce : Nonce) (recipient secret : Key) :
    Program CurveSecurity Bytes := do
  modify fun s => { s with calls := s.calls ++ [.sealed message nonce recipient secret] }
  pure (B.sealBox message nonce recipient secret)

def openMessage (box : Bytes) (nonce : Nonce) (sender secret : Key) :
    Program CurveSecurity (Option Bytes) := do
  let result := B.openBox box nonce sender secret
  modify fun s => { s with calls := s.calls ++ [.opened box nonce sender secret result] }
  pure result

end Boxes

def validateMessageReadiness (s : CurveSecurity) : Except Err (KeyPair × KeyPair) :=
  if s.handshakeState ≠ .complete then
    .error (.text s!"curve: handshake not complete, current state: {s.handshakeState.toNat}")
  else
    match s.clientTransient, s.serverTransient with
    | none, _ => .error (.text "curve: client transient keys not available")
    | some _, none => .error (.text "curve: server transient keys not available")
    | some client, some server => .ok (client, server)

/-- The check made before each MESSAGE.  The source repeats the checks of the
handshake state, the keys and the connection after these, which cannot fail
then. -/
def ensureMessageReadiness (connClosed : Bool) : Program CurveSecurity Unit := do
  let s ← get
  match validateMessageReadiness s with
  | .error err => failWith err
  | .ok _ =>
    if connClosed then failWith (.text "curve: connection is closed")
    else if s.messageEncryptionReady = false then
      failWith (.text "curve: MESSAGE encryption not ready - handshake may have failed")
    else pure ()

/-- The security value and the counter after its next MESSAGE.  Servers count
1, 3, 5, ... and clients 2, 4, 6, ... -/
def CurveSecurity.countSend (s : CurveSecurity) : CurveSecurity × UInt64 :=
  if s.isServer then
    let nonce := if s.serverNonce = 0 then 1 else s.serverNonce + 2
    ({ s with serverNonce := nonce }, nonce)
  else
    let nonce := if s.clientNonce = 0 then 2 else s.clientNonce + 2
    ({ s with clientNonce := nonce }, nonce)

def nextSendNonce : Program CurveSecurity Bytes := do
  let (s, nonce) := (← get).countSend
  set s
  pure (littleEndian 8 nonce.toNat)

def messageNonce (counter : Bytes) : Nonce :=
  FixedBytes.ofCopy nonceSize (counter ++ ascii "CurveZMQMESSAGE-")

def transientKeys (isServer : Bool) (client server : KeyPair) : Key × Key :=
  if isServer then (client.publicKey, server.secretKey)
  else (server.publicKey, client.secretKey)

variable (B : NaclBox)

/-- One MESSAGE: the flag byte, the counter and the box.  A slice cannot be
longer than `maxInt64`. -/
def encryptWithFlags (data : Bytes) (hasMore : Bool) : Program CurveSecurity Bytes := do
  let s ← get
  match validateMessageReadiness s with
  | .error err => failWith (.wrap "curve: MESSAGE encryption validation failed" err)
  | .ok (client, server) => do
      let counter ← nextSendNonce
      let (recipient, secret) := transientKeys s.isServer client server
      let encrypted ← sealMessage B data (messageNonce counter) recipient secret
      if 1 + 8 + encrypted.length > maxInt64 then panicWith "makeslice: len out of range"
      else pure ((if hasMore then 0x01 else 0x00) :: (counter ++ encrypted))

def encrypt (data : Bytes) : Program CurveSecurity Bytes :=
  encryptWithFlags B data false

def decryptWithFlags (data : Bytes) : Program CurveSecurity (Bytes × Bool) := do
  let s ← get
  match validateMessageReadiness s with
  | .error err => failWith (.wrap "curve: MESSAGE decryption validation failed" err)
  | .ok (client, server) =>
    if data.length < 1 + 8 + boxOverhead then failWith errInvalidCommand
    else
      let flags := data.headD 0
      if flags > 0x01 then
        failWith (.text ("curve: invalid flags byte: " ++ showHex flags))
      else do
        let (sender, secret) := transientKeys s.isServer client server
        let decrypted ← openMessage B (data.drop 9) (messageNonce (slice data 1 9)) sender secret
        match decrypted with
        | none => failWith errDecryptionFailed
        | some content => pure (content, flags &&& 0x01 != 0)

def decrypt (data : Bytes) : Program CurveSecurity Bytes := do
  let (content, _) ← decryptWithFlags B data
  pure content

/-- The handshake commands are written as they are. -/
def encryptHandshakeCommand (command data : Bytes) : Program CurveSecurity Bytes :=
  if isCurveHandshakeCommand command then pure data
  else failWith (.text ("curve: unknown handshake command: " ++ showBytes command))

def curveSecurity : Security CurveSecurity where
  securityType := .curveSecurity
  encrypt := encrypt B
  decrypt := decrypt B
  encryptHandshakeCommand := some encryptHandshakeCommand
  ensureMessageReadiness := some ensureMessageReadiness
  encryptWithFlags := some (encryptWithFlags B)
  handshakeState := some fun s => s.handshakeState.toNat

section Rules

def CurveSecurity.messageKeys (s : CurveSecurity) : Option (Key × Key) :=
  match validateMessageReadiness s with
  | .error _ => none
  | .ok (client, server) => some (transientKeys s.isServer client server)

variable {s : CurveSecurity}

theorem messageKeys_eq_some {keys : Key × Key} (hkeys : s.messageKeys = some keys) :
    ∃ client server, validateMessageReadiness s = .ok (client, server) ∧
      transientKeys s.isServer client server = keys := by
  unfold CurveSecurity.messageKeys at hkeys
  split at hkeys
  · simp at hkeys
  · rename_i client server hready
    exact ⟨client, server, hready, by simpa using hkeys⟩

def CurveSecurity.sendCounter (s : CurveSecurity) : Bytes :=
  littleEndian 8 s.countSend.2.toNat

def CurveSecurity.called (s : CurveSecurity) (call : BoxCall) : CurveSecurity :=
  { s with calls := s.calls ++ [call] }

@[simp] theorem sendCounter_length (s : CurveSecurity) : s.sendCounter.length = 8 := by
  simp [CurveSecurity.sendCounter]

@[simp] theorem messageKeys_countSend (s : CurveSecurity) :
    s.countSend.1.messageKeys = s.messageKeys := by
  unfold CurveSecurity.countSend
  split <;> rfl

theorem sealMessage_run (message : Bytes) (nonce : Nonce) (recipient secret : Key)
    (s : CurveSecurity) :
    (sealMessage B message nonce recipient secret).run s =
      .ok (B.sealBox message nonce recipient secret)
        (s.called (.sealed message nonce recipient secret)) := rfl

theorem openMessage_run (box : Bytes) (nonce : Nonce) (sender secret : Key)
    (s : CurveSecurity) :
    (openMessage B box nonce sender secret).run s =
      .ok (B.openBox box nonce sender secret)
        (s.called (.opened box nonce sender secret (B.openBox box nonce sender secret))) := rfl

theorem nextSendNonce_run (s : CurveSecurity) :
    nextSendNonce.run s = .ok s.sendCounter s.countSend.1 := rfl

def messageBytes (counter : Bytes) (recipient secret : Key) (data : Bytes) (hasMore : Bool) :
    Bytes :=
  (if hasMore then 0x01 else 0x00) ::
    (counter ++ B.sealBox data (messageNonce counter) recipient secret)

theorem messageBytes_length {counter : Bytes} (hcounter : counter.length = 8)
    (recipient secret : Key) (data : Bytes) (hasMore : Bool) :
    (messageBytes B counter recipient secret data hasMore).length = data.length + 25 := by
  simp only [messageBytes, List.length_cons, List.length_append, hcounter, B.sealBox_length,
    boxOverhead]
  omega

variable {recipient secret : Key} {data : Bytes}

theorem encryptWithFlags_run (hkeys : s.messageKeys = some (recipient, secret))
    (hfits : data.length + 25 ≤ maxInt64) (hasMore : Bool) :
    (encryptWithFlags B data hasMore).run s =
      .ok (messageBytes B s.sendCounter recipient secret data hasMore)
        (s.countSend.1.called
          (.sealed data (messageNonce s.sendCounter) recipient secret)) := by
  obtain ⟨client, server, hready, htransient⟩ := messageKeys_eq_some hkeys
  have hlength : ¬ 1 + 8 +
      (B.sealBox data (messageNonce s.sendCounter) recipient secret).length > maxInt64 := by
    rw [B.sealBox_length]
    simp only [boxOverhead]
    omega
  rw [encryptWithFlags, bind_ok (EStateM.run_get s)]
  simp only [hready, htransient]
  rw [bind_ok (nextSendNonce_run s), bind_ok (sealMessage_run B _ _ _ _ _), if_neg hlength]
  rfl

theorem encryptWithFlags_too_long (hkeys : s.messageKeys = some (recipient, secret))
    (hlong : ¬ data.length + 25 ≤ maxInt64) (hasMore : Bool) :
    ∃ s', (encryptWithFlags B data hasMore).run s =
      .error (.panicked "makeslice: len out of range") s' := by
  obtain ⟨client, server, hready, htransient⟩ := messageKeys_eq_some hkeys
  have hlength : 1 + 8 +
      (B.sealBox data (messageNonce s.sendCounter) recipient secret).length > maxInt64 := by
    rw [B.sealBox_length]
    simp only [boxOverhead]
    omega
  refine ⟨s.countSend.1.called (.sealed data (messageNonce s.sendCounter) recipient secret), ?_⟩
  rw [encryptWithFlags, bind_ok (EStateM.run_get s)]
  simp only [hready, htransient]
  rw [bind_ok (nextSendNonce_run s), bind_ok (sealMessage_run B _ _ _ _ _), if_pos hlength]
  rfl

/-- A MESSAGE is opened with the counter that it carries, whatever was opened
before. -/
theorem decryptWithFlags_run {r : CurveSecurity} {sender : Key}
    (hkeys : r.messageKeys = some (sender, secret)) {counter : Bytes}
    (hcounter : counter.length = 8) {senderSecret : Key}
    (hopen : B.openBox (B.sealBox data (messageNonce counter) recipient senderSecret)
      (messageNonce counter) sender secret = some data) (hasMore : Bool) :
    ∃ call, (decryptWithFlags B
        (messageBytes B counter recipient senderSecret data hasMore)).run r =
      .ok (data, hasMore) (r.called call) := by
  obtain ⟨client, server, hready, htransient⟩ := messageKeys_eq_some hkeys
  let box := B.sealBox data (messageNonce counter) recipient senderSecret
  let flags : UInt8 := if hasMore then 0x01 else 0x00
  have hbody : messageBytes B counter recipient senderSecret data hasMore =
      flags :: (counter ++ box) := rfl
  have hlength := messageBytes_length B hcounter recipient senderSecret data hasMore
  have hsize : ¬ (flags :: (counter ++ box)).length < 1 + 8 + boxOverhead := by
    rw [← hbody, hlength]
    simp only [boxOverhead]
    omega
  have hflags : ¬ flags > 0x01 := by
    cases hasMore <;> decide
  have hmore : (flags &&& 0x01 != 0) = hasMore := by
    cases hasMore <;> decide
  have hslice : slice (flags :: (counter ++ box)) 1 9 = counter :=
    slice_append (show [flags].length = 1 from rfl) (by simp [hcounter])
  have hdrop : (flags :: (counter ++ box)).drop 9 = box := by
    rw [List.drop_succ_cons, List.drop_append_of_le_length (by omega),
      List.drop_eq_nil_of_le (by omega)]
    rfl
  refine ⟨.opened box (messageNonce counter) sender secret (some data), ?_⟩
  rw [hbody, decryptWithFlags, bind_ok (EStateM.run_get r)]
  simp only [hready, htransient, if_neg hsize, List.headD_cons, if_neg hflags, hslice, hdrop]
  rw [bind_ok (openMessage_run B _ _ _ _ _)]
  simp only [box, hopen, hmore]
  rfl

end Rules

end Zmq4.CurveMechanism
