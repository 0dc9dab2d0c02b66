import Zmq4.BytePipe
import Zmq4.CurveHandshakeEffects

namespace Zmq4.CurveExchange

open ByteCodec DuplexProgram ProgramEffects BytePipe ZmtpMessage ZmtpMetadata Connection
  CommandStream BoxScheme CurveMechanism CurveHandshake CurveHandshakeRun
  CurveHandshakeEffects

def handshakeSide (program : CurveM Unit) (w : Endpoint CurveSecurity) :
    Side (Endpoint CurveSecurity) Unit where
  program := program
  start := w.withInput
  written w' := w'.conn.rw.output.flatten

/-- The sides are done and know the same keys and each other's metadata. -/
structure Agreement (c s : Endpoint CurveSecurity) : Prop where
  complete : c.sec.handshakeState = .complete ∧ s.sec.handshakeState = .complete
  transientKeys : ∃ client server : Key,
    c.sec.clientTransient.map KeyPair.publicKey = some client ∧
    s.sec.clientTransient.map KeyPair.publicKey = some client ∧
    c.sec.serverTransient.map KeyPair.publicKey = some server ∧
    s.sec.serverTransient.map KeyPair.publicKey = some server
  serverMeta : ∀ key ∈ [sysSockType, sysSockId], c.conn.peerMeta.get key = s.conn.metadata.get key
  clientMeta : ∀ key ∈ [sysSockType, sysSockId], s.conn.peerMeta.get key = c.conn.metadata.get key

variable (B : NaclBox) (P : Platform)

/-- Enough bytes can arrive at both sides for both to return and agree. -/
def HandshakeSucceeds (client server : KeyPair) (sealedAt openedAt : Int64)
    (c s : Endpoint CurveSecurity) : Prop :=
  ∃ atClient atServer c' s',
    Reachable (handshakeSide (clientHandshake B P (.ok client)) c)
      (handshakeSide (serverHandshake B P (.ok server) sealedAt openedAt) s) atClient atServer ∧
    (clientHandshake B P (.ok client)).run (c.withInput atClient) = .ok () c' ∧
    (serverHandshake B P (.ok server) sealedAt openedAt).run (s.withInput atServer) = .ok () s' ∧
    Agreement c' s'

variable {w : Endpoint CurveSecurity}

section Hello

theorem commandFrame_of_prefix {flag size : UInt8} {body wire rest : Bytes} {cmd : Cmd}
    (hshort : isLong flag = false) (hsize : size.toNat = body.length)
    (hcmd : CommandFrame wire cmd) (hfront : wire ++ rest <+: flag :: size :: body) :
    Cmd.unmarshalZmtp body = .ok cmd := by
  obtain ⟨flag', field, body', rfl, -, -, hlength, -, hunmarshal⟩ := hcmd
  obtain ⟨unread, hunread⟩ := hfront
  simp only [List.cons_append, List.append_assoc, List.cons.injEq] at hunread
  obtain ⟨rfl, hunread⟩ := hunread
  simp only [headerLength, hshort, Bool.false_eq_true, if_false] at hlength
  split at hlength
  · rename_i first
    simp only [List.cons_append, List.nil_append, List.cons.injEq] at hunread
    obtain ⟨rfl, hbody⟩ := hunread
    have hfull : body'.length = body.length := by
      rw [← hsize]
      simpa using hlength.symm
    have hsame : body' = body := by
      have hnone : rest ++ unread = [] := by
        rw [← List.length_eq_zero_iff]
        have := congrArg List.length hbody
        rw [List.length_append] at this
        omega
      rw [← hbody, hnone, List.append_nil]
    rw [← hsame]
    exact hunmarshal
  · cases hlength

variable {clientTransient : Key} {signature : Bytes}

theorem serverHello_stuck (hsignature : 40 ≤ signature.length)
    (hstate : w.sec.handshakeState ≠ .complete)
    (hinput : w.conn.rw.input <+: (handshakeWrites (helloBody clientTransient signature)).flatten)
    (u : Unit) (w' : Endpoint CurveSecurity) : (serverHello B).run w ≠ .ok u w' := by
  intro hhello
  obtain ⟨-, wire, cmd, rest, hwire, hfront, hcmd, -⟩ := (serverHello_eq_ok_iff B hstate).mp hhello
  have hheader : frameHeader (longFlag 0 200 ^^^ isCommandBitFlag) 200 = [4, 200] := by decide
  rw [handshakeWrites, helloBody_length _ hsignature, hheader, hfront,
    List.flatten_cons, List.flatten_singleton, List.cons_append, List.cons_append,
    List.nil_append] at hinput
  have hunmarshal : Cmd.unmarshalZmtp (helloBody clientTransient signature) = .ok ⟨[], _⟩ := rfl
  have hread := commandFrame_of_prefix (show isLong 4 = false by decide)
    (by rw [helloBody_length _ hsignature]; rfl) hwire hinput
  rw [hunmarshal, Except.ok.injEq] at hread
  subst hread
  exact absurd hcmd.name (show ([] : Bytes) ≠ cmdHello by decide)

theorem serverHandshake_stuck (generated : Except Err KeyPair) (sealedAt openedAt : Int64)
    (hsignature : 40 ≤ signature.length)
    (hinput : w.conn.rw.input <+: (handshakeWrites (helloBody clientTransient signature)).flatten) :
    (finalState ((serverHandshake B P generated sealedAt openedAt).run w)).conn.rw.output =
        w.conn.rw.output ∧
      ∀ u w', (serverHandshake B P generated sealedAt openedAt).run w ≠ .ok u w' := by
  simp only [serverHandshake, serverAccepts, serverWelcomes, bind_assoc]
  rw [bind_ok (setState_run .init w)]
  exact Keeps.bind_stuck (serverHello_keeps lasting_output)
    (serverHello_stuck B hsignature (show HandshakeState.init ≠ .complete by decide) hinput)

end Hello

theorem clientHandshake_stuck (client : KeyPair) (hw : w.Healthy) (hinput : w.conn.rw.input = []) :
    (finalState ((clientHandshake B P (.ok client)).run w)).conn.rw.output =
        w.conn.rw.output ++ handshakeWrites (helloBody client.publicKey
          (B.sealBox (zeros 64) helloNonce w.sec.serverKey client.secretKey)) ∧
      ∀ u w', (clientHandshake B P (.ok client)).run w ≠ .ok u w' := by
  rw [clientHandshake, bind_ok (clientHello_run B hw client)]
  refine Keeps.bind_stuck (clientWelcome_keeps lasting_output) ?_
  intro u w' hwelcome
  obtain ⟨_, w₁, hrecv, -⟩ := bind_eq_ok_iff.mp hwelcome
  obtain ⟨-, wire, cmd, rest, ⟨flag, field, body, rfl, -⟩, hfront, -⟩ :=
    (recv_eq_ok_iff B (show HandshakeState.hello ≠ .complete by decide)).mp (wrapping_eq_ok hrecv)
  have hempty : (flag :: (field ++ body)) ++ rest = [] := hfront.symm.trans hinput
  cases hempty

theorem exchange_stuck (clientKeys serverKeys client server : KeyPair)
    (sealedAt openedAt : Int64) (clientMeta serverMeta : Metadata) {atClient atServer : Bytes}
    {c s : Endpoint CurveSecurity}
    (hc : c = ⟨newClientSecurity clientKeys serverKeys.publicKey, Conn.fresh clientMeta⟩)
    (hs : s = ⟨newServerSecurity serverKeys, Conn.fresh serverMeta⟩)
    (hreachable : Reachable (handshakeSide (clientHandshake B P (.ok client)) c)
      (handshakeSide (serverHandshake B P (.ok server) sealedAt openedAt) s) atClient atServer) :
    (∀ u c', (clientHandshake B P (.ok client)).run (c.withInput atClient) ≠ .ok u c') ∧
      ∀ u s', (serverHandshake B P (.ok server) sealedAt openedAt).run (s.withInput atServer) ≠
        .ok u s' := by
  let signature := B.sealBox (zeros 64) helloNonce serverKeys.publicKey client.secretKey
  have hsignature : 40 ≤ signature.length := by
    simp only [signature, B.sealBox_length, zeros_length, boxOverhead]
    omega
  have hwaiting := clientHandshake_stuck B P client (w := c.withInput [])
    (by subst hc; exact ⟨rfl, rfl⟩) rfl
  have hsent : (handshakeSide (clientHandshake B P (.ok client)) c).sent [] =
      (handshakeWrites (helloBody client.publicKey signature)).flatten := by
    subst hc
    exact congrArg List.flatten hwaiting.1
  have hsilent : ∀ arrived,
      arrived <+: (handshakeSide (clientHandshake B P (.ok client)) c).sent [] →
        (handshakeSide (serverHandshake B P (.ok server) sealedAt openedAt) s).sent arrived =
          [] := by
    intro arrived harrived
    rw [hsent] at harrived
    have houtput := (serverHandshake_stuck B P (.ok server) sealedAt openedAt
      (w := s.withInput arrived) hsignature harrived).1
    subst hs
    exact congrArg List.flatten houtput
  obtain ⟨rfl, hserver⟩ := hreachable.of_silent hsilent
  rw [hsent] at hserver
  exact ⟨hwaiting.2, (serverHandshake_stuck B P (.ok server) sealedAt openedAt
    (w := s.withInput atServer) hsignature hserver).2⟩

/-- The handshake never succeeds: whatever the keys, the clock and the
metadata. -/
theorem handshake_never_succeeds (clientKeys serverKeys client server : KeyPair)
    (sealedAt openedAt : Int64) (clientMeta serverMeta : Metadata) :
    ¬ HandshakeSucceeds B P client server sealedAt openedAt
      ⟨newClientSecurity clientKeys serverKeys.publicKey, Conn.fresh clientMeta⟩
      ⟨newServerSecurity serverKeys, Conn.fresh serverMeta⟩ := by
  rintro ⟨atClient, atServer, c', s', hreachable, hclient, -, -⟩
  exact (exchange_stuck B P clientKeys serverKeys client server sealedAt openedAt clientMeta
    serverMeta rfl rfl hreachable).1 () c' hclient

theorem req_rep_handshake_fails :
    SocketType.isCompatible .req .rep = true ∧
    ¬ HandshakeSucceeds xorBox plainPlatform (xorBox.pairOf (plainKey 3))
      (xorBox.pairOf (plainKey 4)) 0 0
      ⟨newClientSecurity (xorBox.pairOf (plainKey 1)) (xorBox.publicOf (plainKey 2)),
        Conn.fresh (openMetadata .req (ascii "c"))⟩
      ⟨newServerSecurity (xorBox.pairOf (plainKey 2)),
        Conn.fresh (openMetadata .rep (ascii "s"))⟩ := by
  refine ⟨rfl, ?_⟩
  rintro ⟨atClient, atServer, c', s', hreachable, -, hserver, -⟩
  exact (exchange_stuck xorBox plainPlatform _ (xorBox.pairOf (plainKey 2)) _ _ 0 0 _ _ rfl rfl
    hreachable).2 () s' hserver

end Zmq4.CurveExchange
