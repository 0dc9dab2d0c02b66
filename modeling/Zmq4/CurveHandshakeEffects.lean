import Zmq4.CurveHandshakeRun

namespace Zmq4.CurveHandshakeEffects

open ByteCodec DuplexProgram ProgramEffects ZmtpMessage ZmtpMetadata Connection CommandStream
  BoxScheme CurveMechanism CurveHandshake CurveHandshakeRun

variable {γ : Type}

section Accepted

variable (B : NaclBox) {w w' : Endpoint CurveSecurity}

theorem recv_eq_ok_iff {message : String} {accept : Cmd → CurveM Unit}
    (hstate : w.sec.handshakeState ≠ .complete) :
    (do
      let cmd ← wrapping message (recvCmd (curveSecurity B))
      accept cmd).run w = .ok () w' ↔
      w.conn.closed = false ∧ ∃ wire cmd rest, CommandFrame wire cmd ∧
        w.conn.rw.input = wire ++ rest ∧ (accept cmd).run (w.withInput rest) = .ok () w' := by
  have hplain := plainCommands_handshake B hstate
  rw [bind_eq_ok_iff]
  constructor
  · rintro ⟨cmd, w₁, hrecv, haccept⟩
    obtain ⟨hopen, wire, rest, hwire, hinput, rfl⟩ :=
      (recvCmd_eq_ok_iff hplain).mp (wrapping_eq_ok hrecv)
    exact ⟨hopen, wire, cmd, rest, hwire, hinput, haccept⟩
  · rintro ⟨hopen, wire, cmd, rest, hwire, hinput, haccept⟩
    exact ⟨cmd, _, wrapping_ok ((recvCmd_eq_ok_iff hplain).mpr
      ⟨hopen, wire, rest, hwire, hinput, rfl⟩), haccept⟩

structure AcceptableHello (cmd : Cmd) : Prop where
  name : cmd.name = cmdHello
  size : cmd.body.length = helloBodySize
  signature : ZeroField cmd.body 0 64
  padding : ZeroField cmd.body 96 160

theorem acceptHello_eq_ok_iff {cmd : Cmd} :
    (acceptHello cmd).run w = .ok () w' ↔ AcceptableHello cmd ∧
      w' = w.withSec { w.sec with
        clientTransient := some (publicOnly (keyOf (slice cmd.body 64 96))) } := by
  rw [acceptHello, expectCommand, require_bind_eq_ok_iff, expectBodySize, require_bind_eq_ok_iff,
    bind_eq_ok_iff]
  constructor
  · rintro ⟨hname, hsize, _, w₁, hfirst, haccept⟩
    obtain ⟨hsignature, rfl⟩ := expectZeros_eq_ok_iff.mp hfirst
    obtain ⟨_, w₂, hstore, hsecond⟩ := bind_eq_ok_iff.mp haccept
    cases hstore
    obtain ⟨hpadding, rfl⟩ := expectZeros_eq_ok_iff.mp hsecond
    exact ⟨⟨hname, hsize, hsignature, hpadding⟩, rfl⟩
  · rintro ⟨hhello, rfl⟩
    exact ⟨hhello.name, hhello.size, (), w, expectZeros_run hhello.signature w,
      expectZeros_run hhello.padding _⟩

theorem serverHello_eq_ok_iff (hstate : w.sec.handshakeState ≠ .complete) :
    (serverHello B).run w = .ok () w' ↔
      w.conn.closed = false ∧ ∃ wire cmd rest, CommandFrame wire cmd ∧
        w.conn.rw.input = wire ++ rest ∧ AcceptableHello cmd ∧
        w' = (w.withInput rest).withSec { w.sec with
          clientTransient := some (publicOnly (keyOf (slice cmd.body 64 96)))
          handshakeState := .hello } := by
  constructor
  · intro hhello
    obtain ⟨_, w₁, hrecv, hset⟩ := bind_eq_ok_iff.mp hhello
    obtain ⟨hopen, wire, cmd, rest, hwire, hinput, haccept⟩ :=
      (recv_eq_ok_iff B hstate).mp (wrapping_eq_ok hrecv)
    obtain ⟨hcmd, rfl⟩ := acceptHello_eq_ok_iff.mp haccept
    cases hset
    exact ⟨hopen, wire, cmd, rest, hwire, hinput, hcmd, rfl⟩
  · rintro ⟨hopen, wire, cmd, rest, hwire, hinput, hcmd, rfl⟩
    have hrecv : (recvHello B).run w = _ :=
      (recv_eq_ok_iff B hstate).mpr ⟨hopen, wire, cmd, rest, hwire, hinput,
        acceptHello_eq_ok_iff.mpr ⟨hcmd, rfl⟩⟩
    rw [serverHello, bind_ok (wrapping_ok hrecv)]
    rfl

end Accepted

/-- `f` is about what receiving and the handshake's own fields leave alone: the
buffers written, the boxes sealed, the permanent keys and the role. -/
structure Lasting (f : Endpoint CurveSecurity → γ) : Prop where
  input : ∀ (w : Endpoint CurveSecurity) rw, rw.output = w.conn.rw.output →
    f { w with conn := { w.conn with rw := rw } } = f w
  closed : ∀ w, f w.setClosed = f w
  peerMeta : ∀ w peerMeta, f (withPeerMeta w peerMeta) = f w
  fields : ∀ (w : Endpoint CurveSecurity) s, s.calls = w.sec.calls →
    s.keyPair = w.sec.keyPair → s.isServer = w.sec.isServer → f (w.withSec s) = f w
  opened : ∀ (w : Endpoint CurveSecurity) box nonce sender secret result,
    f (w.withSec (w.sec.called (.opened box nonce sender secret result))) = f w

theorem lasting_output : Lasting (fun w => w.conn.rw.output) where
  input _ _ hsame := hsame
  closed _ := rfl
  peerMeta _ _ := rfl
  fields _ _ _ _ _ := rfl
  opened _ _ _ _ _ _ := rfl

def sealNonces (calls : List BoxCall) : List Nonce :=
  calls.filterMap fun call =>
    match call with
    | .sealed _ nonce _ _ => some nonce
    | .opened _ _ _ _ _ => none

theorem sealNonces_append (calls later : List BoxCall) :
    sealNonces (calls ++ later) = sealNonces calls ++ sealNonces later :=
  List.filterMap_append

theorem lasting_sealNonces : Lasting (fun w => sealNonces w.sec.calls) where
  input _ _ _ := rfl
  closed _ := rfl
  peerMeta _ _ := rfl
  fields _ _ hcalls _ _ := congrArg sealNonces hcalls
  opened w _ _ _ _ _ := (sealNonces_append w.sec.calls _).trans (List.append_nil _)

theorem lasting_role : Lasting (fun w => (w.sec.keyPair, w.sec.isServer)) where
  input _ _ _ := rfl
  closed _ := rfl
  peerMeta _ _ := rfl
  fields _ _ _ hkeys hrole := congrArg₂ Prod.mk hkeys hrole
  opened _ _ _ _ _ _ := rfl

section Receive

variable {B : NaclBox} {P : Platform} {f : Endpoint CurveSecurity → γ} (hf : Lasting f)

include hf

theorem modifySec_keeps {g : CurveSecurity → CurveSecurity}
    (hg : ∀ s, (g s).calls = s.calls ∧ (g s).keyPair = s.keyPair ∧ (g s).isServer = s.isServer) :
    Keeps f (onSec (modify g)) := by
  intro w
  obtain ⟨hcalls, hkeys, hrole⟩ := hg w.sec
  exact hf.fields w (g w.sec) hcalls hkeys hrole

theorem setState_keeps (state : HandshakeState) : Keeps f (setState state) :=
  modifySec_keeps hf fun _ => ⟨rfl, rfl, rfl⟩

theorem openMessage_keeps (box : Bytes) (nonce : Nonce) (sender secret : Key) :
    Keeps f (onSec (openMessage B box nonce sender secret)) :=
  fun w => hf.opened w box nonce sender secret _

omit hf in
theorem getSec_keeps : Keeps f getSec :=
  Keeps.bind Keeps.get fun _ => .pure _

omit hf in
theorem deref_keeps (pointer : Option KeyPair) : Keeps f (deref pointer) := by
  cases pointer with
  | none => exact .throw _
  | some pair => exact .pure pair

omit hf in
theorem expectZeros_keeps (field : String) (body : Bytes) (low high : Nat) :
    Keeps f (expectZeros field body low high) := by
  unfold expectZeros
  split
  · exact .pure _
  · exact .failWith _

theorem unmarshalPeerMetadata_keeps (metadata : Bytes) :
    Keeps f (unmarshalPeerMetadata P metadata) :=
  Keeps.wrapping (.zoom_other hf.peerMeta)

theorem decrypt_keeps (body : Bytes) : Keeps f (onSec (decrypt B body)) := by
  refine .zoom_within (fun _ => rfl) fun w => ?_
  refine .bind (.bind Keeps.get fun s => ?_) fun _ => .pure _
  split
  · exact .failWith _
  split
  · exact .failWith _
  dsimp only
  split
  · exact .failWith _
  refine .bind (fun s => hf.opened (w.withSec s) _ _ _ _ _) fun decrypted => ?_
  split
  · exact .failWith _
  · exact .pure _

theorem recvCmd_keeps_lasting : Keeps f (recvCmd (curveSecurity B)) :=
  recvCmd_keeps hf.closed hf.input (decrypt_keeps hf)

theorem acceptHello_keeps (cmd : Cmd) : Keeps f (acceptHello cmd) := by
  refine .bind (.require _) fun _ => .bind (.require _) fun _ => ?_
  refine .bind (expectZeros_keeps _ _ _ _) fun _ => ?_
  exact .bind (modifySec_keeps hf fun _ => ⟨rfl, rfl, rfl⟩) fun _ => expectZeros_keeps _ _ _ _

theorem acceptWelcome_keeps (cmd : Cmd) : Keeps f (acceptWelcome cmd) := by
  refine .bind (.require _) fun _ => .bind (.require _) fun _ => ?_
  exact .bind (modifySec_keeps hf fun _ => ⟨rfl, rfl, rfl⟩) fun _ => expectZeros_keeps _ _ _ _

theorem restoreCookie_keeps (now : Int64) (body : Bytes) :
    Keeps f (restoreCookie B now body) := by
  refine .bind getSec_keeps fun s => ?_
  refine .bind (openMessage_keeps hf _ _ _ _) fun opened => ?_
  refine .bind (.orFail _ _) fun cookie => .bind (.require _) fun _ => ?_
  refine .bind (deref_keeps _) fun server => ?_
  refine .bind (modifySec_keeps hf fun _ => ⟨rfl, rfl, rfl⟩) fun _ => ?_
  exact .bind (.require _) fun _ => .pure _

omit hf in
theorem checkTransient_keeps (fromCookie : Key) (body : Bytes) :
    Keeps f (checkTransient fromCookie body) := by
  refine .bind (.require _) fun _ => .bind getSec_keeps fun s => ?_
  exact .bind (deref_keeps _) fun client => .require _

theorem acceptMetadata_keeps (body : Bytes) : Keeps f (acceptMetadata B P body) := by
  refine .bind getSec_keeps fun s => .bind (deref_keeps _) fun client => ?_
  refine .bind (deref_keeps _) fun server => ?_
  refine .bind (openMessage_keeps hf _ _ _ _) fun opened => ?_
  refine .bind (.orFail _ _) fun plain => .bind (.require _) fun _ => ?_
  refine .bind (.require _) fun _ => ?_
  exact .bind (unmarshalPeerMetadata_keeps hf _) fun _ => .pure _

theorem acceptVouch_keeps (body : Bytes) (clientPermanent : Key) :
    Keeps f (acceptVouch B body clientPermanent) := by
  refine .bind getSec_keeps fun s => .bind (deref_keeps _) fun client => ?_
  refine .bind (openMessage_keeps hf _ _ _ _) fun opened => ?_
  refine .bind (.orFail _ _) fun plain => ?_
  exact .bind (.require _) fun _ => .require _

theorem acceptInitiate_keeps (now : Int64) (cmd : Cmd) :
    Keeps f (acceptInitiate B P now cmd) := by
  refine .bind (.require _) fun _ => .bind (.require _) fun _ => ?_
  refine .bind (restoreCookie_keeps hf _ _) fun fromCookie => ?_
  refine .bind (checkTransient_keeps _ _) fun _ => ?_
  refine .bind (acceptMetadata_keeps hf _) fun clientPermanent => ?_
  exact .bind (acceptVouch_keeps hf _ _) fun _ => modifySec_keeps hf fun _ => ⟨rfl, rfl, rfl⟩

theorem acceptReady_keeps (cmd : Cmd) : Keeps f (acceptReady B P cmd) := by
  refine .bind (.require _) fun _ => .bind getSec_keeps fun s => ?_
  refine .bind (deref_keeps _) fun server => .bind (deref_keeps _) fun client => ?_
  refine .bind (openMessage_keeps hf _ _ _ _) fun opened => ?_
  exact .bind (.orFail _ _) fun metadata => unmarshalPeerMetadata_keeps hf _

theorem generateKeyPair_keeps {assign : Option KeyPair → CurveSecurity → CurveSecurity}
    (hassign : ∀ pair s, (assign pair s).calls = s.calls ∧
      (assign pair s).keyPair = s.keyPair ∧ (assign pair s).isServer = s.isServer)
    (failure : String)
    (generated : Except Err KeyPair) :
    Keeps f (generateKeyPair assign failure generated) := by
  cases generated with
  | ok pair => exact modifySec_keeps hf (hassign _)
  | error err => exact .bind (modifySec_keeps hf (hassign _)) fun _ => .failWith _

theorem serverHello_keeps : Keeps f (serverHello B) :=
  Keeps.bind (.wrapping (.bind (.wrapping (recvCmd_keeps_lasting hf))
    (acceptHello_keeps hf))) fun _ => setState_keeps hf _

theorem serverKeys_keeps (generated : Except Err KeyPair) : Keeps f (serverKeys generated) := by
  apply generateKeyPair_keeps hf
  intro pair s
  exact ⟨rfl, rfl, rfl⟩

theorem serverInitiate_keeps (now : Int64) : Keeps f (serverInitiate B P now) :=
  Keeps.bind (.wrapping (.bind (.wrapping (recvCmd_keeps_lasting hf))
    (acceptInitiate_keeps hf now))) fun _ => setState_keeps hf _

theorem clientKeys_keeps (generated : Except Err KeyPair) : Keeps f (clientKeys generated) := by
  apply generateKeyPair_keeps hf
  intro pair s
  exact ⟨rfl, rfl, rfl⟩

theorem clientWelcome_keeps : Keeps f (clientWelcome B) :=
  Keeps.bind (.wrapping (.bind (.wrapping (recvCmd_keeps_lasting hf))
    (acceptWelcome_keeps hf))) fun _ => setState_keeps hf _

theorem clientReady_keeps : Keeps f (clientReady B P) :=
  Keeps.bind (.wrapping (.bind (.wrapping (recvCmd_keeps_lasting hf))
    (acceptReady_keeps hf))) fun _ => setState_keeps hf _

theorem finishHandshake_keeps : Keeps f finishHandshake :=
  modifySec_keeps hf fun _ => ⟨rfl, rfl, rfl⟩

end Receive

section Seals

variable {B : NaclBox} {P : Platform}

abbrev endpointNonces (w : Endpoint CurveSecurity) : List Nonce :=
  sealNonces w.sec.calls

theorem sealMessage_emits (message : Bytes) (nonce : Nonce) (recipient secret : Key) :
    Emits endpointNonces [nonce] (onSec (sealMessage B message nonce recipient secret)) := by
  intro w box w' hrun
  cases hrun
  exact sealNonces_append w.sec.calls _

theorem sendCmd_keeps_sec {name : Bytes} (hname : isCurveHandshakeCommand name = true)
    (body : Bytes) : Keeps (fun w => w.sec) (sendCmd (curveSecurity B) name body) := by
  have hwrite : ∀ buffer, Keeps (fun w : Endpoint CurveSecurity => w.sec) (onRw (write buffer)) :=
    fun _ => .zoom_other fun _ _ => rfl
  refine .bind Keeps.get fun w => ?_
  split
  · exact .failWith _
  rw [if_pos ⟨rfl, hname⟩]
  refine .bind (checked_keeps (fun _ => rfl) (hwrite _)) fun _ => ?_
  refine checked_keeps (fun _ => rfl) (.bind ?_ fun sealed => hwrite sealed)
  have hencrypt : Keeps (fun s : CurveSecurity => s) (encryptHandshakeCommand name body) := by
    rw [encryptHandshakeCommand, if_pos hname]
    exact .pure body
  exact .zoom hencrypt fun _ _ hsame => hsame

theorem sendCmd_keeps_nonces {name : Bytes} (hname : isCurveHandshakeCommand name = true)
    (body : Bytes) : Keeps endpointNonces (sendCmd (curveSecurity B) name body) :=
  fun w => congrArg (fun s : CurveSecurity => sealNonces s.calls) (sendCmd_keeps_sec hname body w)

theorem marshalMetadata_keeps {f : Endpoint CurveSecurity → γ} : Keeps f (marshalMetadata P) :=
  Keeps.bind Keeps.get fun _ => .wrapping (.fromExcept _)

theorem storedCookie_keeps {f : Endpoint CurveSecurity → γ} (s : CurveSecurity) :
    Keeps f (storedCookie s) :=
  Keeps.bind (.orFail _ _) fun _ => .bind (.require _) fun _ => .pure _

theorem sendHello_emits : Emits endpointNonces [helloNonce] (sendHello B) := by
  refine .keeps_bind getSec_keeps fun s => ?_
  refine .keeps_bind (deref_keeps _) fun client => ?_
  refine .bind_keeps (sealMessage_emits _ _ _ _) fun signatureBox => ?_
  exact .bind (.require _) fun _ => sendCmd_keeps_nonces rfl _

theorem sendWelcome_emits (now : Int64) :
    Emits endpointNonces [cookieNonce] (sendWelcome B now) := by
  refine .keeps_bind getSec_keeps fun s => ?_
  refine .keeps_bind (deref_keeps _) fun server => ?_
  refine .keeps_bind (deref_keeps _) fun client => ?_
  refine .bind_keeps (sealMessage_emits _ _ _ _) fun cookie => ?_
  exact .bind (.require _) fun _ => sendCmd_keeps_nonces rfl _

theorem sendInitiate_emits :
    Emits endpointNonces [initiateNonce, vouchNonce] (sendInitiate B P) := by
  refine .keeps_bind getSec_keeps fun s => ?_
  refine .keeps_bind (storedCookie_keeps _) fun cookie => ?_
  refine .keeps_bind marshalMetadata_keeps fun metadata => ?_
  refine .keeps_bind (deref_keeps _) fun client => ?_
  refine .keeps_bind (deref_keeps _) fun server => ?_
  refine .bind (sealMessage_emits _ _ _ _) fun metadataBox => ?_
  refine .bind_keeps (sealMessage_emits _ _ _ _) fun vouchBox => ?_
  exact .bind (.require _) fun _ => sendCmd_keeps_nonces rfl _

theorem sendReady_emits : Emits endpointNonces [readyNonce] (sendReady B P) := by
  refine .keeps_bind marshalMetadata_keeps fun metadata => ?_
  refine .keeps_bind getSec_keeps fun s => ?_
  refine .keeps_bind (deref_keeps _) fun client => ?_
  refine .keeps_bind (deref_keeps _) fun server => ?_
  exact .bind_keeps (sealMessage_emits _ _ _ _) fun readyBox => sendCmd_keeps_nonces rfl _

theorem clientHandshake_emits (generated : Except Err KeyPair) :
    Emits endpointNonces [helloNonce, initiateNonce, vouchNonce]
      (clientHandshake B P generated) := by
  have hhello : Emits endpointNonces [helloNonce] (clientHello B generated) := by
    refine .keeps_bind (setState_keeps lasting_sealNonces _) fun _ => ?_
    refine .keeps_bind (clientKeys_keeps lasting_sealNonces _) fun _ => ?_
    refine .keeps_bind (setState_keeps lasting_sealNonces _) fun _ => ?_
    exact .wrapping sendHello_emits
  have hinitiate : Emits endpointNonces [initiateNonce, vouchNonce] (clientInitiate B P) :=
    Emits.keeps_bind (setState_keeps lasting_sealNonces _) fun _ =>
      Emits.wrapping sendInitiate_emits
  refine .bind hhello fun _ => ?_
  refine .keeps_bind (clientWelcome_keeps lasting_sealNonces) fun _ => ?_
  refine .bind_keeps hinitiate fun _ => ?_
  exact .bind (clientReady_keeps lasting_sealNonces) fun _ =>
    finishHandshake_keeps lasting_sealNonces

theorem serverAccepts_emits (generated : Except Err KeyPair) (sealedAt openedAt : Int64) :
    Emits endpointNonces [cookieNonce] (serverAccepts B P generated sealedAt openedAt) := by
  refine .bind_keeps ?_ fun _ => serverInitiate_keeps lasting_sealNonces _
  refine .keeps_bind (setState_keeps lasting_sealNonces _) fun _ => ?_
  refine .keeps_bind (serverHello_keeps lasting_sealNonces) fun _ => ?_
  refine .keeps_bind (serverKeys_keeps lasting_sealNonces _) fun _ => ?_
  refine .keeps_bind (setState_keeps lasting_sealNonces _) fun _ => ?_
  exact .wrapping (sendWelcome_emits _)

theorem serverHandshake_emits (generated : Except Err KeyPair) (sealedAt openedAt : Int64) :
    Emits endpointNonces [cookieNonce, readyNonce]
      (serverHandshake B P generated sealedAt openedAt) := by
  have hready : Emits endpointNonces [readyNonce] (serverReady B P) :=
    Emits.keeps_bind (setState_keeps lasting_sealNonces _) fun _ =>
      Emits.wrapping sendReady_emits
  refine .bind (serverAccepts_emits generated sealedAt openedAt) fun _ => ?_
  exact .bind_keeps hready fun _ => finishHandshake_keeps lasting_sealNonces

end Seals

end Zmq4.CurveHandshakeEffects
