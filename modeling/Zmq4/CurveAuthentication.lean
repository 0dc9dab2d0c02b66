import Zmq4.CurveHandshakeEffects

namespace Zmq4.CurveAuthentication

open ByteCodec DuplexProgram ProgramEffects ZmtpMessage ZmtpMetadata Connection CommandStream
  BoxScheme CurveMechanism CurveHandshake CurveHandshakeRun CurveHandshakeEffects

variable (B : NaclBox) (P : Platform)

/-- A peer with the secret keys `held` can have made every box that was opened
with success, or has it from the side that opened it. -/
def Buildable (held : Set Key) (calls : List BoxCall) : Prop :=
  ∀ box nonce sender secret plain, .opened box nonce sender secret (some plain) ∈ calls →
    (∃ key ∈ held, B.publicOf key = sender ∨ key = secret) ∨
      ∃ message recipient key, .sealed message nonce recipient key ∈ calls ∧
        box = B.sealBox message nonce recipient key

/-- Whatever a peer with the keys `held` sends, a server that accepts its
INITIATE stores a key of which the peer holds the secret. -/
def ClientAuthenticated (server : Key) (held : Set Key) : Prop :=
  ∀ (transient : Key) (sealedAt openedAt : Int64) (conn : Conn) (sockType : SocketType)
    (sockId input : Bytes) (w' : Endpoint CurveSecurity), Opened conn sockType sockId →
    (serverAccepts B P (.ok (B.pairOf transient)) sealedAt openedAt).run
      (Endpoint.withInput ⟨newServerSecurity (B.pairOf server), conn⟩ input) = .ok () w' →
    Buildable B held w'.sec.calls → ∃ key ∈ held, B.publicOf key = w'.sec.serverKey

/-- Whatever a peer with the keys `held` sends, a client that completes its
handshake for the server `serverPermanent` talks to a peer with its secret. -/
def ServerAuthenticated (serverPermanent : Key) (held : Set Key) : Prop :=
  ∀ (client transient : Key) (conn : Conn) (sockType : SocketType) (sockId input : Bytes)
    (w' : Endpoint CurveSecurity), Opened conn sockType sockId →
    (clientHandshake B P (.ok (B.pairOf transient))).run
      (Endpoint.withInput ⟨newClientSecurity (B.pairOf client) serverPermanent, conn⟩ input) =
        .ok () w' →
    Buildable B held w'.sec.calls → ∃ key ∈ held, B.publicOf key = serverPermanent

section Opened

variable {B} {P}

variable {nonce : Nonce} {secret : Key} {w w' : Endpoint CurveSecurity}
  {generated : Except Err KeyPair}

/-- A peer without keys cannot make a box for a nonce that was not used for
sealing. -/
theorem Buildable.ne_empty {held : Set Key} {calls : List BoxCall} (hcalls : Buildable B held calls)
    {box plain : Bytes} {sender : Key}
    (hopened : .opened box nonce sender secret (some plain) ∈ calls)
    (hnonce : nonce ∉ sealNonces calls) : held ≠ ∅ := by
  rintro rfl
  rcases hcalls box nonce sender secret plain hopened with ⟨key, hkey, -⟩ | ⟨_, _, _, hsealed, -⟩
  · exact hkey
  · exact hnonce (List.mem_filterMap.mpr ⟨_, hsealed, rfl⟩)

theorem opened_mem {α : Type} {box : Bytes} {sender : Key} {err : Err} {f : Bytes → CurveM α}
    {a : α} (hf : ∀ plain, Keeps (fun w => w.sec.calls) (f plain)) (hrun : (do
      let opened ← onSec (openMessage B box nonce sender secret)
      let plain ← orFail opened err
      f plain).run w = .ok a w') :
    ∃ plain, .opened box nonce sender secret (some plain) ∈ w'.sec.calls := by
  rw [bind_ok (onSec_ok (openMessage_run B box nonce sender secret w.sec))] at hrun
  obtain ⟨plain, w₁, hplain, hlast⟩ := bind_eq_ok_iff.mp hrun
  obtain ⟨hopen, rfl⟩ := orFail_eq_ok_iff.mp hplain
  refine ⟨plain, ?_⟩
  rw [(hf plain).of_ok hlast, ← hopen]
  exact List.mem_append_right _ (List.mem_singleton_self _)

theorem serverAccepts_opened {sealedAt openedAt : Int64}
    (hrun : (serverAccepts B P generated sealedAt openedAt).run w = .ok () w') :
    ∃ box sender secret plain,
      .opened box vouchNonce sender secret (some plain) ∈ w'.sec.calls := by
  obtain ⟨_, w₁, hinitiate⟩ := tail_eq_ok hrun
  obtain ⟨_, w₂, hrecv, hset⟩ := bind_eq_ok_iff.mp hinitiate
  cases hset
  obtain ⟨cmd, w₃, haccept⟩ := tail_eq_ok (wrapping_eq_ok hrecv)
  obtain ⟨_, _, haccept⟩ := tail_eq_ok haccept
  obtain ⟨_, _, haccept⟩ := tail_eq_ok haccept
  obtain ⟨fromCookie, _, haccept⟩ := tail_eq_ok haccept
  obtain ⟨_, _, haccept⟩ := tail_eq_ok haccept
  obtain ⟨clientPermanent, w₄, haccept⟩ := tail_eq_ok haccept
  obtain ⟨_, w₅, hvouch, hstore⟩ := bind_eq_ok_iff.mp haccept
  cases hstore
  obtain ⟨s, _, hvouch⟩ := tail_eq_ok hvouch
  obtain ⟨client, _, hvouch⟩ := tail_eq_ok hvouch
  obtain ⟨plain, hmem⟩ := opened_mem
    (fun plain => .bind (.require _) fun _ => .require _) hvouch
  exact ⟨_, _, _, plain, hmem⟩

theorem clientHandshake_opened (hrun : (clientHandshake B P generated).run w = .ok () w') :
    ∃ box sender secret plain,
      .opened box readyNonce sender secret (some plain) ∈ w'.sec.calls := by
  obtain ⟨_, _, hrun⟩ := tail_eq_ok hrun
  obtain ⟨_, _, hrun⟩ := tail_eq_ok hrun
  obtain ⟨_, _, hrun⟩ := tail_eq_ok hrun
  obtain ⟨_, w₁, hready, hfinish⟩ := bind_eq_ok_iff.mp hrun
  cases hfinish
  obtain ⟨_, w₂, hrecv, hset⟩ := bind_eq_ok_iff.mp hready
  cases hset
  obtain ⟨cmd, _, haccept⟩ := tail_eq_ok (wrapping_eq_ok hrecv)
  obtain ⟨_, _, haccept⟩ := tail_eq_ok haccept
  obtain ⟨s, _, haccept⟩ := tail_eq_ok haccept
  obtain ⟨server, _, haccept⟩ := tail_eq_ok haccept
  obtain ⟨client, _, haccept⟩ := tail_eq_ok haccept
  have hkeeps : ∀ metadata, Keeps (fun w => w.sec.calls) (unmarshalPeerMetadata P metadata) :=
    fun _ => .wrapping (.zoom_other fun _ _ => rfl)
  obtain ⟨plain, hmem⟩ := opened_mem hkeeps haccept
  exact ⟨_, _, _, plain, hmem⟩

end Opened

section Client

variable {held : Set Key} {own : Key}

theorem initiate_buildable (hown : own ∈ held) (keys server : KeyPair) (clientPermanent : Key)
    (sealedAt : Int64) :
    Buildable B held
      ([.sealed (cookiePlain (B.publicOf own) server.secretKey sealedAt) cookieNonce
        keys.publicKey keys.secretKey] ++
        (sealedInitiate B keys clientPermanent own server.publicKey []).calls B keys server
          sealedAt) := by
  intro box nonce sender secret plain hopened
  simp only [PeerInitiate.calls, cookieOpened, sealedInitiate, List.mem_append, List.mem_cons,
    List.not_mem_nil, or_false, BoxCall.opened.injEq, reduceCtorEq, false_or] at hopened
  rcases hopened with ⟨rfl, rfl, -⟩ | ⟨-, -, rfl, -⟩ | ⟨-, -, rfl, -⟩
  · exact .inr ⟨_, _, _, List.mem_append_left _ (List.mem_singleton_self _), rfl⟩
  · exact .inl ⟨own, hown, .inl rfl⟩
  · exact .inl ⟨own, hown, .inl rfl⟩

/-- Who holds any secret key at all can pass for the owner of every permanent
key: the vouch box is sealed with the transient key. -/
theorem impersonated_client (server transient : Key) (hown : own ∈ held) (clientPermanent : Key) :
    ∃ conn input w', Opened conn .rep [] ∧
      (serverAccepts B P (.ok (B.pairOf transient)) 0 0).run
        (Endpoint.withInput ⟨newServerSecurity (B.pairOf server), conn⟩ input) = .ok () w' ∧
      Buildable B held w'.sec.calls ∧ w'.sec.serverKey = clientPermanent := by
  let keys := B.pairOf server
  let m := sealedInitiate B keys clientPermanent own (B.publicOf transient) []
  let hello : Cmd := { name := cmdHello, body := helloBody (B.publicOf own) (zeros 40) }
  let initiate : Cmd := { name := cmdInitiate, body := m.body B keys (B.pairOf transient) 0 }
  have hfits : m.Fits B P keys (B.pairOf transient) Metadata.empty Metadata.empty :=
    sealedInitiate_fits B (B.isPair_pairOf server) clientPermanent own transient rfl (by decide)
  have haccepts := serverAccepts_run B (P := P) (w := Endpoint.withInput
    ⟨newServerSecurity keys, Conn.fresh (openMetadata .rep [])⟩
    (commandWire hello ++ (commandWire initiate ++ []))) ⟨rfl, rfl⟩ (B.isPair_pairOf server) rfl
    (show 40 ≤ (zeros 40).length by decide) (show (0 : Int64) - 0 ≤ 60 by decide) hfits rfl
  exact ⟨_, _, _, opened_openMetadata .rep [], haccepts,
    initiate_buildable B hown keys (B.pairOf transient) clientPermanent 0, rfl⟩

/-- The server learns the identity of a peer only when there is no choice: the
peer holds no secret key, or one for every public key. -/
theorem clientAuthenticated_iff (server : Key) (held : Set Key) :
    ClientAuthenticated B P server held ↔
      held = ∅ ∨ ∀ permanent, ∃ key ∈ held, B.publicOf key = permanent := by
  constructor
  · intro hauthenticated
    rw [or_iff_not_imp_left]
    intro hne permanent
    obtain ⟨own, hown⟩ := Set.nonempty_iff_ne_empty.mpr hne
    obtain ⟨conn, input, w', hconn, haccepts, hbuildable, hstored⟩ :=
      impersonated_client B P server server hown permanent
    obtain ⟨key, hkey, hpublic⟩ :=
      hauthenticated server 0 0 conn .rep [] input w' hconn haccepts hbuildable
    exact ⟨key, hkey, hpublic.trans hstored⟩
  · rintro hheld transient sealedAt openedAt conn sockType sockId input w' - haccepts hbuildable
    rcases hheld with rfl | hall
    · obtain ⟨box, sender, secret, plain, hopened⟩ := serverAccepts_opened haccepts
      have hnonces : sealNonces w'.sec.calls = [cookieNonce] :=
        serverAccepts_emits _ _ _ _ _ _ haccepts
      refine absurd rfl (hbuildable.ne_empty hopened ?_)
      rw [hnonces]
      decide
    · exact hall w'.sec.serverKey

theorem stolen_identity_accepted :
    ¬ ClientAuthenticated xorBox plainPlatform (plainKey 2) {plainKey 5} := by
  intro hauthenticated
  obtain ⟨conn, input, w', hconn, haccepts, hbuildable, hstored⟩ :=
    impersonated_client xorBox plainPlatform (plainKey 2) (plainKey 4)
      (Set.mem_singleton (plainKey 5)) (xorBox.publicOf (plainKey 1))
  obtain ⟨key, rfl, hpublic⟩ :=
    hauthenticated (plainKey 4) 0 0 conn .rep [] input w' hconn haccepts hbuildable
  rw [hstored] at hpublic
  exact absurd hpublic (by decide)

end Client

section Server

variable {held : Set Key} {own : Key}

/-- Who holds any secret key at all can pass for every server: nothing in
WELCOME or READY needs the permanent key. -/
theorem impersonated_server (serverPermanent client transient : Key) (hown : own ∈ held) :
    ∃ conn input w', Opened conn .req [] ∧
      (clientHandshake B P (.ok (B.pairOf transient))).run
        (Endpoint.withInput ⟨newClientSecurity (B.pairOf client) serverPermanent, conn⟩ input) =
          .ok () w' ∧
      Buildable B held w'.sec.calls := by
  have hconn := opened_openMetadata .req []
  obtain ⟨metadata, hmetadata⟩ := hconn.marshalZmtp P
  let box := B.sealBox [] readyNonce (B.publicOf transient) own
  let welcome : Cmd :=
    { name := cmdWelcome, body := (B.publicOf own).bytes ++ (zeros 96 ++ zeros 40) }
  have hopens : B.openBox box readyNonce (B.publicOf own) (B.pairOf transient).secretKey = some [] :=
    B.openBox_sealBox [] readyNonce own transient
  have hsize : box.length + 6 ≤ maxInt64 := by
    rw [B.sealBox_length]
    decide
  have hstored : (unmarshalZmtp P []).run Metadata.empty = .ok () Metadata.empty := rfl
  have hrun := clientHandshake_run B (P := P) (w := Endpoint.withInput
    ⟨newClientSecurity (B.pairOf client) serverPermanent, Conn.fresh (openMetadata .req [])⟩
    (commandWire welcome ++ (commandWire { name := cmdReady, body := box } ++ []))) ⟨rfl, rfl⟩
    (zeros_length 96) hmetadata hopens hstored hsize rfl
  refine ⟨_, _, _, hconn, hrun, ?_⟩
  intro opened nonce sender secret plain hopened
  change _ ∈ [BoxCall.sealed _ _ _ _, .sealed _ _ _ _, .sealed _ _ _ _,
    .opened box readyNonce (B.publicOf own) transient (some [])] at hopened
  simp only [List.mem_cons, List.not_mem_nil, or_false, reduceCtorEq, false_or,
    BoxCall.opened.injEq] at hopened
  obtain ⟨-, -, rfl, -⟩ := hopened
  exact .inl ⟨own, hown, .inl rfl⟩

/-- A completed handshake tells a client nothing about the server: the peer
holds no secret key, or happens to hold the right one. -/
theorem serverAuthenticated_iff (serverPermanent : Key) (held : Set Key) :
    ServerAuthenticated B P serverPermanent held ↔
      held = ∅ ∨ ∃ key ∈ held, B.publicOf key = serverPermanent := by
  constructor
  · intro hauthenticated
    rw [or_iff_not_imp_left]
    intro hne
    obtain ⟨own, hown⟩ := Set.nonempty_iff_ne_empty.mpr hne
    obtain ⟨conn, input, w', hconn, hrun, hbuildable⟩ :=
      impersonated_server B P serverPermanent own own hown
    exact hauthenticated own own conn .req [] input w' hconn hrun hbuildable
  · rintro hheld client transient conn sockType sockId input w' - hrun hbuildable
    rcases hheld with rfl | hright
    · obtain ⟨box, sender, secret, plain, hopened⟩ := clientHandshake_opened hrun
      have hnonces : sealNonces w'.sec.calls = [helloNonce, initiateNonce, vouchNonce] :=
        clientHandshake_emits _ _ _ _ hrun
      refine absurd rfl (hbuildable.ne_empty hopened ?_)
      rw [hnonces]
      decide
    · exact hright

theorem stranger_accepted_as_server :
    ¬ ServerAuthenticated xorBox plainPlatform (xorBox.publicOf (plainKey 2)) {plainKey 5} := by
  intro hauthenticated
  obtain ⟨conn, input, w', hconn, hrun, hbuildable⟩ :=
    impersonated_server xorBox plainPlatform (xorBox.publicOf (plainKey 2)) (plainKey 1)
      (plainKey 3) (Set.mem_singleton (plainKey 5))
  obtain ⟨key, rfl, hpublic⟩ :=
    hauthenticated (plainKey 1) (plainKey 3) conn .req [] input w' hconn hrun hbuildable
  exact absurd hpublic (by decide)

end Server

end Zmq4.CurveAuthentication
