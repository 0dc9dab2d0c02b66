import Zmq4.CurveMechanism
import Zmq4.FrameStream

namespace Zmq4.CurveFrames

open ByteCodec DuplexProgram ZmtpMessage ZmtpMetadata Connection BoxScheme CurveMechanism

structure SendReady (s : CurveSecurity) (recipient secret : Key) : Prop where
  keys : s.messageKeys = some (recipient, secret)
  encryptionReady : s.messageEncryptionReady = true

/-- Both sides have completed a handshake with the transient secrets `client`
and `server`.  The peer's secret, which the code leaves zero, does not
matter. -/
structure Established (B : NaclBox) (c s : CurveSecurity) (client server : Key) : Prop where
  clientRole : c.isServer = false
  serverRole : s.isServer = true
  clientKeys : ∃ unused, c.clientTransient = some (B.pairOf client) ∧
    c.serverTransient = some { publicKey := B.publicOf server, secretKey := unused }
  serverKeys : ∃ unused, s.serverTransient = some (B.pairOf server) ∧
    s.clientTransient = some { publicKey := B.publicOf client, secretKey := unused }
  complete : c.handshakeState = .complete ∧ s.handshakeState = .complete
  encryptionReady : c.messageEncryptionReady = true ∧ s.messageEncryptionReady = true

theorem Established.sendReady {B : NaclBox} {c s : CurveSecurity} {client server : Key}
    (hcs : Established B c s client server) :
    SendReady c (B.publicOf server) client ∧ SendReady s (B.publicOf client) server := by
  obtain ⟨_, hclient, hclientPeer⟩ := hcs.clientKeys
  obtain ⟨_, hserver, hserverPeer⟩ := hcs.serverKeys
  refine ⟨⟨?_, hcs.encryptionReady.1⟩, ⟨?_, hcs.encryptionReady.2⟩⟩
  · simp [CurveSecurity.messageKeys, validateMessageReadiness, hcs.complete, hclient,
      hclientPeer, hcs.clientRole, transientKeys, NaclBox.pairOf]
  · simp [CurveSecurity.messageKeys, validateMessageReadiness, hcs.complete, hserver,
      hserverPeer, hcs.serverRole, transientKeys, NaclBox.pairOf]

variable (B : NaclBox)

def establishedSide (isServer : Bool) (client server : Key) : CurveSecurity :=
  let start := if isServer then newServerSecurity (B.pairOf server)
    else newClientSecurity (B.pairOf client) (B.publicOf server)
  let known (own : Bool) (secret : Key) : KeyPair :=
    if own then B.pairOf secret else { publicKey := B.publicOf secret, secretKey := zeroKey }
  CurveSecurity.finished
    { start with
      clientTransient := some (known (!isServer) client)
      serverTransient := some (known isServer server) }

theorem established_sides (client server : Key) :
    Established B (establishedSide B false client server) (establishedSide B true client server)
      client server where
  clientRole := rfl
  serverRole := rfl
  clientKeys := ⟨_, rfl, rfl⟩
  serverKeys := ⟨_, rfl, rfl⟩
  complete := ⟨rfl, rfl⟩
  encryptionReady := ⟨rfl, rfl⟩

def establishedEnd (isServer : Bool) : Endpoint CurveSecurity where
  sec := establishedSide xorBox isServer (plainKey 1) (plainKey 2)
  conn := Conn.fresh Metadata.empty

def afterMessage (s : CurveSecurity) (recipient secret : Key) (data : Bytes) : CurveSecurity :=
  s.countSend.1.called (.sealed data (messageNonce s.sendCounter) recipient secret)

theorem countSend_frame (s : CurveSecurity) :
    s.countSend.1.messageEncryptionReady = s.messageEncryptionReady ∧
      s.countSend.1.isServer = s.isServer := by
  unfold CurveSecurity.countSend
  split <;> simp

theorem SendReady.afterMessage {s : CurveSecurity} {recipient secret : Key}
    (hs : SendReady s recipient secret) (data : Bytes) :
    SendReady (CurveFrames.afterMessage s recipient secret data) recipient secret where
  keys := (messageKeys_countSend s).trans hs.keys
  encryptionReady := (countSend_frame s).1.trans hs.encryptionReady

variable {w : Endpoint CurveSecurity} {recipient secret : Key}

theorem ensureMessageReadiness_run (hs : SendReady w.sec recipient secret) :
    (ensureMessageReadiness false).run w.sec = .ok () w.sec := by
  obtain ⟨client, server, hready, -⟩ := messageKeys_eq_some hs.keys
  rw [ensureMessageReadiness, bind_ok (EStateM.run_get w.sec)]
  simp only [hready, hs.encryptionReady]
  rfl

theorem checkReadiness_run (hw : w.Healthy) (hs : SendReady w.sec recipient secret)
    (command : Bool) : (checkReadiness (curveSecurity B) command).run w = .ok () w := by
  cases command with
  | true => rfl
  | false =>
    have hensure := ensureMessageReadiness_run hs
    simp only [checkReadiness, curveSecurity, Bool.not_false, Bool.and_true, decide_true,
      if_true]
    apply rescue_ok
    rw [bind_ok (EStateM.run_get w), hw.notClosed]
    exact onSec_ok hensure

theorem send_message_run (hw : w.Healthy) (hs : SendReady w.sec recipient secret)
    {frame : Bytes} (hne : frame ≠ []) (hfits : frame.length + 25 ≤ maxInt64) (flag : UInt8) :
    ∃ hasMore, (send (curveSecurity B) false frame flag).run w = .ok ()
      ((w.wrote [frameHeader (longFlag flag (frame.length + 25)) (frame.length + 25),
        messageBytes B w.sec.sendCounter recipient secret frame hasMore]).withSec
          (afterMessage w.sec recipient secret frame)) := by
  have hmessage : isMessageFrame (curveSecurity B) false frame = true := by
    simp [isMessageFrame, curveSecurity, List.length_pos_iff, hne]
  have hsize : frameSize (curveSecurity B) false frame = frame.length + 25 := by
    simp [frameSize, hmessage]
  have hflag : frameFlag (curveSecurity B) false frame flag =
      longFlag flag (frame.length + 25) := by
    simp [frameFlag, hsize]
  refine ⟨longFlag flag (frame.length + 25) &&& hasMoreBitFlag != 0, ?_⟩
  rw [send, bind_ok (checkReadiness_run B hw hs false), hsize, hflag,
    bind_ok (write_run hw _), writeBody, if_pos hmessage]
  exact (writeSealed_run (hw.wrote _) (encryptWithFlags_run B hs.keys hfits _)).trans (by simp; rfl)

theorem send_empty_run (hw : w.Healthy) (hs : SendReady w.sec recipient secret)
    (flag : UInt8) :
    (send (curveSecurity B) false [] flag).run w = .ok () (w.wrote [frameHeader flag 0]) := by
  have hmessage : isMessageFrame (curveSecurity B) false [] = false := by
    simp [isMessageFrame]
  have hsize : frameSize (curveSecurity B) false [] = 0 := by
    simp [frameSize, hmessage]
  have hflag : frameFlag (curveSecurity B) false [] flag = flag := by
    simp [frameFlag, hsize, longFlag]
  rw [send, bind_ok (checkReadiness_run B hw hs false), hsize, hflag, bind_ok (write_run hw _),
    writeBody, hmessage]
  rfl

theorem send_command_run (hw : w.Healthy) (hs : SendReady w.sec recipient secret)
    {body : Bytes} (hne : body ≠ []) (hfits : body.length + 25 ≤ maxInt64) (flag : UInt8) :
    (send (curveSecurity B) true body flag).run w = .ok ()
      ((w.wrote [frameHeader (longFlag flag body.length ^^^ isCommandBitFlag) body.length,
        messageBytes B w.sec.sendCounter recipient secret body false]).withSec
          (afterMessage w.sec recipient secret body)) := by
  have hmessage : isMessageFrame (curveSecurity B) true body = false := by
    simp [isMessageFrame]
  have hsize : frameSize (curveSecurity B) true body = body.length := by
    simp [frameSize, hmessage]
  have hflag : frameFlag (curveSecurity B) true body flag =
      longFlag flag body.length ^^^ isCommandBitFlag := by
    simp [frameFlag, hsize]
  rw [send, bind_ok (checkReadiness_run B hw hs true), hsize, hflag, bind_ok (write_run hw _),
    writeBody, hmessage]
  simp only [Bool.false_eq_true, if_false, List.length_eq_zero_iff, hne]
  exact (writeSealed_run (hw.wrote _) (encryptWithFlags_run B hs.keys hfits _)).trans (by simp; rfl)

theorem encrypt_eq_ok_length {s s' : CurveSecurity} (hkeys : s.messageKeys = some (recipient, secret))
    {data sealed : Bytes} {hasMore : Bool}
    (hencrypt : (encryptWithFlags B data hasMore).run s = .ok sealed s') :
    sealed.length = data.length + 25 := by
  by_cases hfits : data.length + 25 ≤ maxInt64
  · rw [encryptWithFlags_run B hkeys hfits] at hencrypt
    obtain ⟨rfl, -⟩ := by simpa using hencrypt
    exact messageBytes_length B (sendCounter_length s) recipient secret data hasMore
  · obtain ⟨s'', hpanic⟩ := encryptWithFlags_too_long B hkeys hfits hasMore
    simp [hpanic] at hencrypt

theorem writeSealed_eq_ok {encrypted : Program CurveSecurity Bytes} {w w' : Endpoint CurveSecurity}
    (hrun : (writeSealed encrypted).run w = .ok () w') :
    ∃ sealed sec, encrypted.run w.sec = .ok sealed sec := by
  have hrun := checked_eq_ok hrun
  rw [bind_eq_ok_iff] at hrun
  obtain ⟨sealed, w₁, hsealed, -⟩ := hrun
  obtain ⟨sec, hencrypted, -⟩ := zoom_eq_ok_iff.mp hsealed
  exact ⟨sealed, sec, hencrypted⟩

theorem send_too_long (hw : w.Healthy) (hs : SendReady w.sec recipient secret)
    {command : Bool} {body : Bytes} (hne : body ≠ []) (hlong : ¬ body.length + 25 ≤ maxInt64)
    (flag : UInt8) (w' : Endpoint CurveSecurity) :
    (send (curveSecurity B) command body flag).run w ≠ .ok () w' := by
  intro hrun
  rw [send, bind_ok (checkReadiness_run B hw hs command), bind_ok (write_run hw _)] at hrun
  obtain ⟨hasMore, hseal⟩ : ∃ hasMore,
      writeBody (curveSecurity B) command body (frameFlag (curveSecurity B) command body flag) =
        writeSealed (encryptWithFlags B body hasMore) := by
    unfold writeBody
    split
    · exact ⟨_, rfl⟩
    · rw [if_neg (by simpa using hne)]
      exact ⟨false, rfl⟩
  rw [hseal] at hrun
  obtain ⟨sealed, sec, hencrypted⟩ := writeSealed_eq_ok hrun
  obtain ⟨s', hpanic⟩ := encryptWithFlags_too_long B hs.keys hlong hasMore
  change (encryptWithFlags B body hasMore).run w.sec = _ at hencrypted
  simp [hpanic] at hencrypted

theorem sendHandshake_run {σ : Type} {w : Endpoint σ} (hw : w.Healthy)
    {encrypt : Bytes → Bytes → Program σ Bytes} {name body : Bytes}
    (hencrypt : ∀ sec, (encrypt name body).run sec = .ok body sec) :
    (sendWithCurveHandshakeEncryption encrypt name body).run w = .ok ()
      (w.wrote [frameHeader (longFlag 0 body.length ^^^ isCommandBitFlag) body.length,
        body]) := by
  rw [sendWithCurveHandshakeEncryption, bind_ok (write_run hw _)]
  exact (writeSealed_run (hw.wrote _) (hencrypt _)).trans (by simp; rfl)

theorem encryptHandshakeCommand_run {name : Bytes} (hname : isCurveHandshakeCommand name = true)
    (body : Bytes) (sec : CurveSecurity) :
    (encryptHandshakeCommand name body).run sec = .ok body sec := by
  simp [encryptHandshakeCommand, hname]

end Zmq4.CurveFrames
