import Zmq4.CommandStream
import Zmq4.CurveFrames
import Zmq4.CurveHandshake

namespace Zmq4.CurveHandshakeRun

open ByteCodec DuplexProgram ZmtpMessage ZmtpMetadata Connection CommandStream BoxScheme
  CurveMechanism CurveFrames CurveHandshake

variable {box : Bytes}

section Parts

@[simp] theorem keyOf_bytes (key : Key) : keyOf key.bytes = key :=
  FixedBytes.ofCopy_self key

theorem key_length (key : Key) : key.bytes.length = 32 :=
  key.length_eq

theorem getSec_run (w : Endpoint CurveSecurity) : getSec.run w = .ok w.sec w := rfl

theorem setState_run (state : HandshakeState) (w : Endpoint CurveSecurity) :
    (setState state).run w = .ok () (w.withSec { w.sec with handshakeState := state }) := rfl

theorem deref_run {pointer : Option KeyPair} {pair : KeyPair} (hpointer : pointer = some pair)
    (w : Endpoint CurveSecurity) : (deref pointer).run w = .ok pair w := by
  subst hpointer
  rfl

variable {σ : Type}

theorem expectCommand_run (name body : Bytes) (s : σ) :
    (expectCommand name { name := name, body := body }).run s = .ok () s :=
  require_ok s rfl

theorem expectBodySize_run {name body : Bytes} {size : Nat} (hsize : body.length = size) (s : σ) :
    (expectBodySize name size body).run s = .ok () s :=
  require_ok s hsize

def ZeroField (body : Bytes) (low high : Nat) : Prop :=
  ∀ index, low ≤ index → index < high → body.getD index 0 = 0

variable {low high : Nat}

theorem zeroField_append {before after : Bytes} {count : Nat} (hlow : before.length = low)
    (hcount : high - low = count) :
    ZeroField (before ++ (zeros count ++ after)) low high := by
  subst hlow hcount
  intro index hbefore hafter
  have hzeros : index - before.length < (zeros (high - before.length)).length := by
    rw [zeros_length]
    omega
  rw [List.getD_eq_getElem?_getD, List.getElem?_append_right hbefore,
    List.getElem?_append_left hzeros, List.getElem?_eq_getElem hzeros]
  simp [zeros]

theorem expectZeros_eq_ok_iff {field : String} {body : Bytes} {s s' : σ} {u : Unit} :
    (expectZeros field body low high).run s = .ok u s' ↔ ZeroField body low high ∧ s' = s := by
  have hiff : firstNonzero body low high = none ↔ ZeroField body low high := by
    rw [firstNonzero, List.find?_eq_none]
    constructor
    · intro hnone index hlow hhigh
      simpa using hnone index (by rw [List.mem_range'_1]; omega)
    · intro hzero index hindex
      rw [List.mem_range'_1] at hindex
      simpa using hzero index hindex.1 (by omega)
  rw [expectZeros, ← hiff]
  cases firstNonzero body low high with
  | none => simp [eq_comm]
  | some index => simp

theorem expectZeros_run {field : String} {body : Bytes} (hzero : ZeroField body low high) (s : σ) :
    (expectZeros field body low high).run s = .ok () s :=
  expectZeros_eq_ok_iff.mpr ⟨hzero, rfl⟩

variable (B : NaclBox)

theorem plainCommands_handshake {s : CurveSecurity} (hstate : s.handshakeState ≠ .complete) :
    PlainCommands (curveSecurity B) s := by
  intro body w hw
  have hhandshake : isCurveHandshake (curveSecurity B) w = true := by
    have hearly : s.handshakeState.toNat < 5 := by
      cases h : s.handshakeState <;> simp_all [HandshakeState.toNat]
    simpa [isCurveHandshake, curveSecurity, hw] using hearly
  rw [frameContent, bind_ok (EStateM.run_get w), hhandshake]
  rfl

def handshakeWrites (body : Bytes) : List Bytes :=
  [frameHeader (longFlag 0 body.length ^^^ isCommandBitFlag) body.length, body]

theorem sendCmd_run {w : Endpoint CurveSecurity} (hw : w.Healthy) {name : Bytes}
    (hname : isCurveHandshakeCommand name = true) (body : Bytes) :
    (sendCmd (curveSecurity B) name body).run w = .ok () (w.wrote (handshakeWrites body)) := by
  rw [sendCmd, bind_ok (EStateM.run_get w), if_neg (by simp [hw.notClosed]),
    if_pos ⟨rfl, hname⟩]
  exact sendHandshake_run hw (encryptHandshakeCommand_run hname body)

theorem seal_run (message : Bytes) (nonce : Nonce) (recipient secret : Key)
    (w : Endpoint CurveSecurity) :
    (onSec (sealMessage B message nonce recipient secret)).run w =
      .ok (B.sealBox message nonce recipient secret)
        (w.withSec (w.sec.called (.sealed message nonce recipient secret))) := rfl

theorem open_run {nonce : Nonce} {sender secret : Key} {plain : Bytes}
    (hopen : B.openBox box nonce sender secret = some plain) (w : Endpoint CurveSecurity) :
    (onSec (openMessage B box nonce sender secret)).run w =
      .ok (some plain)
        (w.withSec (w.sec.called (.opened box nonce sender secret (some plain)))) := by
  rw [← hopen]
  rfl

theorem orFail_run {α : Type} {result : Option α} {a : α} (hresult : result = some a) (err : Err)
    (w : Endpoint CurveSecurity) : (orFail result err).run w = .ok a w :=
  orFail_eq_ok_iff.mpr ⟨hresult, rfl⟩

end Parts

variable {client : KeyPair}

section Hello

variable (B : NaclBox) {w : Endpoint CurveSecurity}

theorem helloBody_length (clientTransient : Key) (hbox : 40 ≤ box.length) :
    (helloBody clientTransient box).length = 200 := by
  simp only [helloBody, List.length_append, zeros_length, List.length_take,
    key_length clientTransient]
  omega

theorem acceptHello_run (w : Endpoint CurveSecurity) (clientTransient : Key)
    (hbox : 40 ≤ box.length) :
    (acceptHello { name := cmdHello, body := helloBody clientTransient box }).run w = .ok ()
      (w.withSec { w.sec with clientTransient := some (publicOnly clientTransient) }) := by
  have hkey := key_length clientTransient
  have hsize : (helloBody clientTransient box).length = helloBodySize :=
    helloBody_length clientTransient hbox
  have hslice : slice (helloBody clientTransient box) 64 96 = clientTransient.bytes :=
    slice_append (by simp) (by rw [hkey])
  have hsignature : ZeroField (helloBody clientTransient box) 0 64 :=
    zeroField_append (show ([] : Bytes).length = 0 from rfl) rfl
  have hpadding : ZeroField (helloBody clientTransient box) 96 160 := by
    rw [helloBody, ← List.append_assoc]
    exact zeroField_append (by simp [hkey]) rfl
  rw [acceptHello, bind_ok (expectCommand_run cmdHello _ w)]
  dsimp only
  rw [bind_ok (expectBodySize_run hsize w), bind_ok (expectZeros_run hsignature w), hslice,
    keyOf_bytes]
  exact expectZeros_run hpadding _

end Hello

variable {cookie : Bytes} {server : KeyPair}

section Welcome

variable (B : NaclBox) {w : Endpoint CurveSecurity}

def cookieBox (keys : KeyPair) (clientTransient serverSecret : Key) (timestamp : Int64) : Bytes :=
  B.sealBox (cookiePlain clientTransient serverSecret timestamp) cookieNonce keys.publicKey
    keys.secretKey

theorem cookiePlain_length (clientTransient serverSecret : Key) (timestamp : Int64) :
    (cookiePlain clientTransient serverSecret timestamp).length = 72 := by
  simp only [cookiePlain, List.length_append, key_length, bigEndian_length]

theorem cookieBox_length (keys : KeyPair) (clientTransient serverSecret : Key)
    (timestamp : Int64) : (cookieBox B keys clientTransient serverSecret timestamp).length = 88 := by
  rw [cookieBox, B.sealBox_length, cookiePlain_length]
  rfl

end Welcome

variable {metadata : Bytes} {peerMeta : Metadata}

section Metadata

variable {P : Platform} {w : Endpoint CurveSecurity}

theorem marshalMetadata_run (hmetadata : w.conn.metadata.marshalZmtp P = .ok metadata) :
    (marshalMetadata P).run w = .ok metadata w := by
  rw [marshalMetadata, bind_ok (EStateM.run_get w)]
  exact wrapping_ok (fromExcept_ok w hmetadata)

def withPeerMeta (w : Endpoint CurveSecurity) (peerMeta : Metadata) : Endpoint CurveSecurity :=
  { w with conn := { w.conn with peerMeta := peerMeta } }

theorem unmarshalPeerMetadata_run
    (hmetadata : (unmarshalZmtp P metadata).run w.conn.peerMeta = .ok () peerMeta) :
    (unmarshalPeerMetadata P metadata).run w = .ok () (withPeerMeta w peerMeta) :=
  wrapping_ok (zoom_ok hmetadata)

end Metadata

variable {serverTransient clientTransient serverPermanent : Key}

section Initiate

variable (B : NaclBox) {P : Platform} {w : Endpoint CurveSecurity}

theorem cookieTimestamp_cookiePlain (clientTransient serverSecret : Key) (timestamp : Int64) :
    cookieTimestamp (cookiePlain clientTransient serverSecret timestamp) = timestamp := by
  have hslice : slice (cookiePlain clientTransient serverSecret timestamp) 64 72 =
      bigEndian 8 timestamp.toUInt64.toNat := by
    rw [cookiePlain, ← List.append_assoc, ← List.append_nil (bigEndian 8 _)]
    exact slice_append (by rw [List.length_append, key_length, key_length]) (by simp)
  have hvalue := timestamp.toUInt64.toNat_lt
  rw [cookieTimestamp, hslice, bigEndianValue_bigEndian (by omega)]
  simp

def cookieOpened (keys : KeyPair) (clientTransient serverSecret : Key) (timestamp : Int64) :
    BoxCall :=
  .opened (cookieBox B keys clientTransient serverSecret timestamp) cookieNonce keys.publicKey
    keys.secretKey (some (cookiePlain clientTransient serverSecret timestamp))

theorem restoreCookie_run (hpair : B.IsPair w.sec.keyPair)
    (hserver : w.sec.serverTransient = some server) {sealedAt openedAt : Int64}
    (htime : openedAt - sealedAt ≤ 60) (after : Bytes) :
    (restoreCookie B openedAt
        (cookieBox B w.sec.keyPair clientTransient server.secretKey sealedAt ++ after)).run w =
      .ok clientTransient (w.withSec (w.sec.called
        (cookieOpened B w.sec.keyPair clientTransient server.secretKey sealedAt))) := by
  let plain := cookiePlain clientTransient server.secretKey sealedAt
  let box := cookieBox B w.sec.keyPair clientTransient server.secretKey sealedAt
  let call := cookieOpened B w.sec.keyPair clientTransient server.secretKey sealedAt
  have hbox : slice (box ++ after) 0 88 = box :=
    slice_append (show ([] : Bytes).length = 0 from rfl) (by rw [cookieBox_length])
  have hopen : B.openBox box cookieNonce w.sec.keyPair.publicKey w.sec.keyPair.secretKey =
      some plain := by
    have hopen := B.openBox_sealBox plain cookieNonce w.sec.keyPair.secretKey w.sec.keyPair.secretKey
    rwa [← hpair] at hopen
  have hclient : slice plain 0 32 = clientTransient.bytes :=
    slice_append (show ([] : Bytes).length = 0 from rfl) (by rw [key_length])
  have hsecret : slice plain 32 64 = server.secretKey.bytes :=
    slice_append (key_length clientTransient) (by rw [key_length])
  have hfresh : openedAt - cookieTimestamp plain ≤ 60 := by
    rw [cookieTimestamp_cookiePlain]
    exact htime
  have hsame : { w.sec.called call with serverTransient := some server } = w.sec.called call := by
    rw [← hserver]
    rfl
  have hwrite : (onSec (modify fun s => { s with serverTransient := some server })).run
      (w.withSec (w.sec.called call)) = .ok PUnit.unit (w.withSec (w.sec.called call)) := by
    rw [show (onSec (modify fun s => { s with serverTransient := some server })).run
      (w.withSec (w.sec.called call)) = .ok PUnit.unit (w.withSec
        { w.sec.called call with serverTransient := some server }) from rfl, hsame]
  rw [restoreCookie, bind_ok (getSec_run w), hbox, bind_ok (open_run B hopen w),
    bind_ok (orFail_run rfl _ _), bind_ok (require_ok _ (cookiePlain_length _ _ _)),
    bind_ok (deref_run hserver _), hsecret, hclient, keyOf_bytes, keyOf_bytes]
  refine (bind_ok hwrite).trans ?_
  rw [bind_ok (require_ok _ hfresh)]
  rfl

theorem initiateBody_fields {vouchBox : Bytes} (clientTransient : Key) (metadataBox : Bytes)
    (hcookie : cookie.length = 96) (hvouch : vouchBox.length = vouchBoxSize) :
    let body := initiateBody cookie clientTransient metadataBox vouchBox
    slice body 96 128 = clientTransient.bytes ∧
      slice body 128 (body.length - vouchBoxSize) = metadataBox ∧
      body.drop (body.length - vouchBoxSize) = vouchBox := by
  intro body
  have hkey := key_length clientTransient
  have hlength : body.length - vouchBoxSize = 128 + metadataBox.length := by
    simp only [body, initiateBody, List.length_append, hcookie, hkey, hvouch]
    omega
  have hfront : body = (cookie ++ clientTransient.bytes) ++ (metadataBox ++ vouchBox) :=
    (List.append_assoc _ _ _).symm
  have hfrontLength : (cookie ++ clientTransient.bytes).length = 128 := by
    rw [List.length_append, hcookie, hkey]
  refine ⟨slice_append hcookie (by rw [hkey]), ?_, ?_⟩
  · rw [hlength, hfront]
    exact slice_append hfrontLength rfl
  · rw [hlength, hfront, ← List.append_assoc]
    exact List.drop_left' (by rw [List.length_append, hfrontLength])

theorem metadataPlain_fields (serverTransient clientPermanent : Key) (metadata : Bytes) :
    let plain := metadataPlain serverTransient clientPermanent metadata
    2 * keySize ≤ plain.length ∧ slice plain 0 32 = serverTransient.bytes ∧
      slice plain 32 64 = clientPermanent.bytes ∧ plain.drop 64 = metadata := by
  intro plain
  have hserver := key_length serverTransient
  have hclient := key_length clientPermanent
  refine ⟨?_, ?_, ?_, ?_⟩
  · simp only [plain, metadataPlain, List.length_append, hserver, hclient, keySize]
    omega
  · exact slice_append (show ([] : Bytes).length = 0 from rfl) (by rw [hserver])
  · exact slice_append hserver (by rw [hclient])
  · have hfront : plain = (serverTransient.bytes ++ clientPermanent.bytes) ++ metadata :=
      (List.append_assoc _ _ _).symm
    rw [hfront]
    exact List.drop_left' (by rw [List.length_append, hserver, hclient])

theorem acceptMetadata_run {body : Bytes}
    (hbody : slice body 128 (body.length - vouchBoxSize) = box)
    (hclient : w.sec.clientTransient = some (publicOnly clientTransient))
    (hserver : w.sec.serverTransient = some server)
    (hopen : B.openBox box initiateNonce clientTransient server.secretKey =
      some (metadataPlain server.publicKey clientPermanent metadata))
    (hmetadata : (unmarshalZmtp P metadata).run w.conn.peerMeta = .ok () peerMeta) :
    (acceptMetadata B P body).run w = .ok clientPermanent (withPeerMeta
      (w.withSec (w.sec.called (.opened box initiateNonce clientTransient server.secretKey
        (some (metadataPlain server.publicKey clientPermanent metadata))))) peerMeta) := by
  obtain ⟨hlength, hfirst, hsecond, hrest⟩ :=
    metadataPlain_fields server.publicKey clientPermanent metadata
  let call : BoxCall := .opened box initiateNonce clientTransient server.secretKey
    (some (metadataPlain server.publicKey clientPermanent metadata))
  rw [acceptMetadata, bind_ok (getSec_run w), bind_ok (deref_run hclient w),
    bind_ok (deref_run hserver w), hbody]
  dsimp only [publicOnly]
  rw [bind_ok (open_run B hopen w), bind_ok (orFail_run rfl _ _),
    bind_ok (require_ok _ hlength), bind_ok (require_ok _ hfirst), hrest, hsecond, keyOf_bytes,
    bind_ok (unmarshalPeerMetadata_run (w := w.withSec (w.sec.called call)) hmetadata)]
  rfl

theorem acceptVouch_run {body : Bytes} (hbody : body.drop (body.length - vouchBoxSize) = box)
    (hclient : w.sec.clientTransient = some (publicOnly clientTransient))
    (hopen : B.openBox box vouchNonce clientTransient w.sec.keyPair.secretKey =
      some clientPermanent.bytes) :
    (acceptVouch B body clientPermanent).run w = .ok ()
      (w.withSec (w.sec.called (.opened box vouchNonce clientTransient w.sec.keyPair.secretKey
        (some clientPermanent.bytes)))) := by
  rw [acceptVouch, bind_ok (getSec_run w), bind_ok (deref_run hclient w), hbody]
  dsimp only [publicOnly]
  rw [bind_ok (open_run B hopen w), bind_ok (orFail_run rfl _ _),
    bind_ok (require_ok _ clientPermanent.length_eq)]
  exact require_ok _ rfl

structure PeerInitiate where
  clientTransient : Key
  clientPermanent : Key
  metadata : Bytes
  metadataBox : Bytes
  vouchBox : Bytes

/-- The boxes open for a server with the permanent pair `keys` and the
transient pair `server`, and hold what they should. -/
structure PeerInitiate.Fits (P : Platform) (keys server : KeyPair) (old new : Metadata)
    (m : PeerInitiate) : Prop where
  metadataOpens : B.openBox m.metadataBox initiateNonce m.clientTransient server.secretKey =
    some (metadataPlain server.publicKey m.clientPermanent m.metadata)
  metadataStored : (unmarshalZmtp P m.metadata).run old = .ok () new
  metadataSize : 2 * keySize + boxOverhead ≤ m.metadataBox.length
  vouchSize : m.vouchBox.length = vouchBoxSize
  vouchOpens : B.openBox m.vouchBox vouchNonce m.clientTransient keys.secretKey =
    some m.clientPermanent.bytes
  bounded : m.metadataBox.length + 185 ≤ maxInt64

def PeerInitiate.body (keys server : KeyPair) (sealedAt : Int64) (m : PeerInitiate) : Bytes :=
  initiateBody (cookieBox B keys m.clientTransient server.secretKey sealedAt ++ zeros 8)
    m.clientTransient m.metadataBox m.vouchBox

def PeerInitiate.calls (keys server : KeyPair) (sealedAt : Int64) (m : PeerInitiate) :
    List BoxCall :=
  [cookieOpened B keys m.clientTransient server.secretKey sealedAt,
    .opened m.metadataBox initiateNonce m.clientTransient server.secretKey
      (some (metadataPlain server.publicKey m.clientPermanent m.metadata)),
    .opened m.vouchBox vouchNonce m.clientTransient keys.secretKey
      (some m.clientPermanent.bytes)]

variable {sealedAt openedAt : Int64} {keys server : KeyPair} {peerMeta : Metadata}
  {m : PeerInitiate}

theorem PeerInitiate.Fits.body_length {old new : Metadata}
    (hfits : m.Fits B P keys server old new) :
    (m.body B keys server sealedAt).length = m.metadataBox.length + 176 := by
  simp only [PeerInitiate.body, initiateBody, List.length_append, cookieBox_length, zeros_length,
    key_length, hfits.vouchSize, vouchBoxSize]
  omega

def sealedInitiate (keys : KeyPair) (clientPermanent client serverTransient : Key)
    (metadata : Bytes) : PeerInitiate where
  clientTransient := B.publicOf client
  clientPermanent := clientPermanent
  metadata := metadata
  metadataBox := B.sealBox (metadataPlain serverTransient clientPermanent metadata) initiateNonce
    serverTransient client
  vouchBox := B.sealBox clientPermanent.bytes vouchNonce keys.publicKey client

theorem sealedInitiate_fits (hkeys : B.IsPair keys) (clientPermanent client server : Key)
    {old new : Metadata} (hstored : (unmarshalZmtp P metadata).run old = .ok () new)
    (hsize : metadata.length + 265 ≤ maxInt64) :
    (sealedInitiate B keys clientPermanent client (B.publicOf server) metadata).Fits B P keys
      (B.pairOf server) old new where
  metadataOpens := B.openBox_sealBox _ initiateNonce client server
  metadataStored := hstored
  metadataSize := by
    simp only [sealedInitiate, B.sealBox_length, metadataPlain, List.length_append, key_length,
      keySize]
    omega
  vouchSize := by
    rw [sealedInitiate, B.sealBox_length, key_length]
    rfl
  vouchOpens := by
    rw [sealedInitiate, hkeys]
    exact B.openBox_sealBox _ vouchNonce client keys.secretKey
  bounded := by
    simp only [sealedInitiate, B.sealBox_length, metadataPlain, List.length_append, key_length,
      boxOverhead]
    omega

theorem acceptInitiate_run (hpair : B.IsPair keys) (hkeys : w.sec.keyPair = keys)
    (hclient : w.sec.clientTransient = some (publicOnly m.clientTransient))
    (hserver : w.sec.serverTransient = some server) (htime : openedAt - sealedAt ≤ 60)
    (hfits : m.Fits B P keys server w.conn.peerMeta peerMeta) :
    (acceptInitiate B P openedAt
      { name := cmdInitiate, body := m.body B keys server sealedAt }).run w = .ok ()
      (withPeerMeta (w.withSec
        { w.sec with
          serverKey := m.clientPermanent
          calls := w.sec.calls ++ m.calls B keys server sealedAt }) peerMeta) := by
  subst hkeys
  let cookie := cookieBox B w.sec.keyPair m.clientTransient server.secretKey sealedAt ++ zeros 8
  let body := m.body B w.sec.keyPair server sealedAt
  have hcookie : cookie.length = 96 := by
    simp [cookie, cookieBox_length]
  obtain ⟨htransient, hmetadata, hvouch⟩ : slice body 96 128 = m.clientTransient.bytes ∧
      slice body 128 (body.length - vouchBoxSize) = m.metadataBox ∧
      body.drop (body.length - vouchBoxSize) = m.vouchBox :=
    initiateBody_fields m.clientTransient m.metadataBox hcookie hfits.vouchSize
  have hsize : initiateBodySize ≤ body.length := by
    have hmetadataSize := hfits.metadataSize
    rw [hfits.body_length]
    simp only [initiateBodySize, keySize, boxOverhead] at hmetadataSize ⊢
    omega
  have hbody : body = cookieBox B w.sec.keyPair m.clientTransient server.secretKey sealedAt ++
      (zeros 8 ++ (m.clientTransient.bytes ++ (m.metadataBox ++ m.vouchBox))) :=
    List.append_assoc _ _ _
  have hcookieRun := @restoreCookie_run server m.clientTransient B w hpair hserver sealedAt
    openedAt htime (zeros 8 ++ (m.clientTransient.bytes ++ (m.metadataBox ++ m.vouchBox)))
  rw [← hbody] at hcookieRun
  rw [acceptInitiate, bind_ok (expectCommand_run cmdInitiate _ w)]
  dsimp only
  rw [bind_ok (require_ok w hsize), bind_ok hcookieRun, PeerInitiate.calls, List.append_cons,
    List.append_cons]
  rw [checkTransient, htransient, keyOf_bytes, bind_assoc, bind_ok (require_ok _ rfl), bind_assoc,
    bind_ok (getSec_run _), bind_assoc, bind_ok (deref_run (by exact hclient) _),
    bind_ok (require_ok _ (by exact rfl))]
  refine (bind_ok (acceptMetadata_run B hmetadata (by exact hclient) (by exact hserver)
    hfits.metadataOpens (by exact hfits.metadataStored))).trans ?_
  refine (bind_ok (acceptVouch_run B hvouch (by exact hclient) (by exact hfits.vouchOpens))).trans ?_
  rfl

end Initiate

section Sides

variable (B : NaclBox) {P : Platform} {w : Endpoint CurveSecurity}

theorem recv_run {message : String} {accept : Cmd → CurveM Unit} {cmd : Cmd} {rest : Bytes}
    (hopen : w.conn.closed = false) (hstate : w.sec.handshakeState ≠ .complete)
    (hname : cmd.name.length ≤ 255) (hsize : 1 + cmd.name.length + cmd.body.length ≤ maxInt64)
    (hinput : w.conn.rw.input = commandWire cmd ++ rest) :
    (do
      let cmd ← wrapping message (recvCmd (curveSecurity B))
      accept cmd).run w = (accept cmd).run (w.withInput rest) :=
  bind_ok (wrapping_ok (recvCmd_run (plainCommands_handshake B hstate) hopen hname hsize hinput))

variable {sealedAt openedAt : Int64} {clientPermanent : Key} {keys server : KeyPair}
  {peerMeta : Metadata} {signature metadata rest : Bytes} {m : PeerInitiate}

theorem serverHello_run (hopen : w.conn.closed = false) (hstate : w.sec.handshakeState ≠ .complete)
    (hsignature : 40 ≤ signature.length) (hinput : w.conn.rw.input =
      commandWire { name := cmdHello, body := helloBody clientTransient signature } ++ rest) :
    (serverHello B).run w = .ok ()
      ((w.withInput rest).withSec
        { w.sec with
          clientTransient := some (publicOnly clientTransient)
          handshakeState := .hello }) := by
  have hsize : 1 + cmdHello.length + (helloBody clientTransient signature).length ≤
      maxInt64 := by
    rw [helloBody_length clientTransient hsignature]
    decide
  rw [serverHello]
  exact bind_ok (wrapping_ok ((recv_run B hopen hstate (show cmdHello.length ≤ 255 by decide) hsize
    hinput).trans (acceptHello_run _ clientTransient hsignature)))

theorem serverKeys_run (server : KeyPair) (w : Endpoint CurveSecurity) :
    (serverKeys (.ok server)).run w =
      .ok () (w.withSec { w.sec with serverTransient := some server }) := rfl

theorem serverWelcome_run (hw : w.Healthy) (hclient : w.sec.clientTransient = some client)
    (hserver : w.sec.serverTransient = some server) (hkeys : w.sec.keyPair = keys) (now : Int64) :
    (serverWelcome B now).run w = .ok ()
      ((w.wrote (handshakeWrites (welcomeBody server.publicKey
        (cookieBox B keys client.publicKey server.secretKey now)))).withSec
        { w.sec with
          handshakeState := .welcome
          calls := w.sec.calls ++ [.sealed (cookiePlain client.publicKey server.secretKey now)
            cookieNonce keys.publicKey keys.secretKey] }) := by
  subst hkeys
  have hcookie := cookieBox_length B w.sec.keyPair client.publicKey server.secretKey now
  rw [cookieBox] at hcookie
  rw [serverWelcome, bind_ok (setState_run .welcome w)]
  apply wrapping_ok
  rw [sendWelcome, bind_ok (getSec_run _), bind_ok (deref_run (by exact hserver) _),
    bind_ok (deref_run (by exact hclient) _), bind_ok (seal_run B _ _ _ _ _),
    bind_ok (require_ok _ (by exact hcookie)), sendCmd_run B ((hw.withSec _).withSec _) rfl]
  rfl

theorem serverInitiate_run (hopen : w.conn.closed = false)
    (hstate : w.sec.handshakeState ≠ .complete) (hpair : B.IsPair keys)
    (hkeys : w.sec.keyPair = keys)
    (hclient : w.sec.clientTransient = some (publicOnly m.clientTransient))
    (hserver : w.sec.serverTransient = some server) (htime : openedAt - sealedAt ≤ 60)
    (hfits : m.Fits B P keys server w.conn.peerMeta peerMeta)
    (hinput : w.conn.rw.input =
      commandWire { name := cmdInitiate, body := m.body B keys server sealedAt } ++ rest) :
    (serverInitiate B P openedAt).run w = .ok ()
      (withPeerMeta ((w.withInput rest).withSec
        { w.sec with
          serverKey := m.clientPermanent
          handshakeState := .initiate
          calls := w.sec.calls ++ m.calls B keys server sealedAt }) peerMeta) := by
  have hsize : 1 + cmdInitiate.length + (m.body B keys server sealedAt).length ≤ maxInt64 := by
    have hbounded := hfits.bounded
    rw [hfits.body_length, show cmdInitiate.length = 8 from rfl]
    omega
  rw [serverInitiate]
  exact bind_ok (wrapping_ok ((recv_run B hopen hstate (show cmdInitiate.length ≤ 255 by decide)
    hsize hinput).trans (acceptInitiate_run B hpair hkeys hclient hserver htime hfits)))

theorem serverAccepts_run (hw : w.Healthy) (hpair : B.IsPair keys)
    (hkeys : w.sec.keyPair = keys) (hsignature : 40 ≤ signature.length)
    (htime : openedAt - sealedAt ≤ 60) (hfits : m.Fits B P keys server w.conn.peerMeta peerMeta)
    (hinput : w.conn.rw.input =
      commandWire { name := cmdHello, body := helloBody m.clientTransient signature } ++
        (commandWire { name := cmdInitiate, body := m.body B keys server sealedAt } ++ rest)) :
    (serverAccepts B P (.ok server) sealedAt openedAt).run w = .ok ()
      { sec :=
          { w.sec with
            clientTransient := some (publicOnly m.clientTransient)
            serverTransient := some server
            serverKey := m.clientPermanent
            handshakeState := .initiate
            calls := (w.sec.calls ++
              [.sealed (cookiePlain m.clientTransient server.secretKey sealedAt) cookieNonce
                keys.publicKey keys.secretKey]) ++ m.calls B keys server sealedAt }
        conn :=
          { w.conn with
            peerMeta := peerMeta
            rw :=
              { w.conn.rw with
                input := rest
                output := w.conn.rw.output ++ handshakeWrites (welcomeBody server.publicKey
                  (cookieBox B keys m.clientTransient server.secretKey sealedAt)) } } } := by
  rw [serverAccepts, serverWelcomes, bind_assoc, bind_ok (setState_run .init w), bind_assoc]
  refine (bind_ok (serverHello_run B (by exact hw.notClosed) (by exact nofun) hsignature
    (by exact hinput))).trans ?_
  rw [bind_assoc, bind_ok (serverKeys_run server _)]
  refine (bind_ok (serverWelcome_run B ⟨by exact hw.notClosed, by exact hw.writable⟩ rfl rfl
    (by exact hkeys) sealedAt)).trans ?_
  exact serverInitiate_run B (by exact hw.notClosed) (by exact nofun) hpair (by exact hkeys) rfl rfl
    htime (by exact hfits) rfl

variable {own : Bytes}

theorem serverHandshake_run {generated : Except Err KeyPair} {w' : Endpoint CurveSecurity}
    (haccepts : (serverAccepts B P generated sealedAt openedAt).run w = .ok () w') (hw : w'.Healthy)
    (hown : w'.conn.metadata.marshalZmtp P = .ok own)
    (hclient : w'.sec.clientTransient = some client)
    (hserver : w'.sec.serverTransient = some server) :
    (serverHandshake B P generated sealedAt openedAt).run w = .ok ()
      ((w'.wrote (handshakeWrites (B.sealBox own readyNonce client.publicKey
        server.secretKey))).withSec
        (w'.sec.called
          (.sealed own readyNonce client.publicKey server.secretKey)).finished) := by
  rw [serverHandshake, bind_ok haccepts, serverReady, bind_assoc,
    bind_ok (setState_run .ready w')]
  have hready : (sendReady B P).run (w'.withSec { w'.sec with handshakeState := .ready }) = _ :=
    (bind_ok (marshalMetadata_run (by exact hown))).trans <| (bind_ok (getSec_run _)).trans <|
      (bind_ok (deref_run hclient _)).trans <| (bind_ok (deref_run hserver _)).trans <|
      (bind_ok (seal_run B _ _ _ _ _)).trans <| sendCmd_run B ((hw.withSec _).withSec _) rfl _
  exact bind_ok (wrapping_ok hready)

theorem clientHello_run (hw : w.Healthy) (client : KeyPair) :
    (clientHello B (.ok client)).run w = .ok ()
      ((w.wrote (handshakeWrites (helloBody client.publicKey
        (B.sealBox (zeros 64) helloNonce w.sec.serverKey client.secretKey)))).withSec
        { w.sec with
          clientTransient := some client
          handshakeState := .hello
          calls := w.sec.calls ++
            [.sealed (zeros 64) helloNonce w.sec.serverKey client.secretKey] }) := by
  refine wrapping_ok (?_ : (sendHello B).run (w.withSec
    { w.sec with clientTransient := some client, handshakeState := .hello }) = _)
  rw [sendHello, bind_ok (getSec_run _), bind_ok (deref_run (by exact rfl) _),
    bind_ok (seal_run B _ _ _ _ _), bind_ok (require_ok _ (by rw [B.sealBox_length]; rfl)),
    sendCmd_run B ((hw.withSec _).withSec _) rfl]
  rfl

theorem clientWelcome_run (hopen : w.conn.closed = false)
    (hstate : w.sec.handshakeState ≠ .complete) (hcookie : cookie.length = 96)
    (hinput : w.conn.rw.input =
      commandWire { name := cmdWelcome
                    body := serverTransient.bytes ++ (cookie ++ zeros 40) } ++ rest) :
    (clientWelcome B).run w = .ok ()
      ((w.withInput rest).withSec
        { w.sec with
          serverTransient := some (publicOnly serverTransient)
          cookie := some cookie
          handshakeState := .welcome }) := by
  have hkey := key_length serverTransient
  have hlength : (serverTransient.bytes ++ (cookie ++ zeros 40)).length = welcomeBodySize := by
    simp [hkey, hcookie, welcomeBodySize]
  have hsize : 1 + cmdWelcome.length +
      (serverTransient.bytes ++ (cookie ++ zeros 40)).length ≤ maxInt64 := by
    rw [hlength]
    decide
  have hserver : slice (serverTransient.bytes ++ (cookie ++ zeros 40)) 0 32 =
      serverTransient.bytes :=
    slice_append (show ([] : Bytes).length = 0 from rfl) (by rw [hkey])
  have hstored : slice (serverTransient.bytes ++ (cookie ++ zeros 40)) 32 128 = cookie :=
    slice_append hkey (by rw [hcookie])
  have hpadding : ZeroField (serverTransient.bytes ++ (cookie ++ zeros 40)) 128 168 := by
    rw [← List.append_assoc, ← List.append_nil (zeros 40)]
    exact zeroField_append (by simp [hkey, hcookie]) rfl
  rw [clientWelcome]
  have haccept : (acceptWelcome _).run (w.withInput rest) = _ :=
    (bind_ok (expectCommand_run cmdWelcome _ _)).trans <|
      (bind_ok (expectBodySize_run hlength _)).trans <| expectZeros_run hpadding _
  rw [hserver, hstored, keyOf_bytes] at haccept
  exact bind_ok (wrapping_ok ((recv_run B hopen hstate (show cmdWelcome.length ≤ 255 by decide)
    hsize hinput).trans haccept))

theorem clientInitiate_run (hw : w.Healthy) (hcookie : w.sec.cookie = some cookie)
    (hlength : cookie.length = 96) (hown : w.conn.metadata.marshalZmtp P = .ok own)
    (hclient : w.sec.clientTransient = some client)
    (hserver : w.sec.serverTransient = some (publicOnly serverTransient))
    (hpermanent : w.sec.keyPair.publicKey = clientPermanent)
    (hpeer : w.sec.serverKey = serverPermanent) :
    (clientInitiate B P).run w = .ok ()
      ((w.wrote (handshakeWrites (initiateBody cookie client.publicKey
        (B.sealBox (metadataPlain serverTransient clientPermanent own) initiateNonce
          serverTransient client.secretKey)
        (B.sealBox clientPermanent.bytes vouchNonce serverPermanent client.secretKey)))).withSec
        { w.sec with
          handshakeState := .initiate
          calls := (w.sec.calls ++
            [.sealed (metadataPlain serverTransient clientPermanent own) initiateNonce
              serverTransient client.secretKey]) ++
            [.sealed clientPermanent.bytes vouchNonce serverPermanent client.secretKey] }) := by
  subst hpermanent hpeer
  rw [clientInitiate, bind_ok (setState_run .initiate w)]
  apply wrapping_ok
  rw [sendInitiate, bind_ok (getSec_run _), storedCookie, bind_assoc,
    bind_ok (orFail_run (by exact hcookie) _ _), bind_assoc, bind_ok (require_ok _ hlength), pure_bind,
    bind_ok (marshalMetadata_run (by exact hown)), bind_ok (deref_run (by exact hclient) _),
    bind_ok (deref_run (by exact hserver) _), bind_ok (seal_run B _ _ _ _ _),
    bind_ok (seal_run B _ _ _ _ _),
    bind_ok (require_ok _ (by rw [B.sealBox_length, key_length]; rfl)),
    sendCmd_run B (((hw.withSec _).withSec _).withSec _) rfl]
  rfl

theorem clientReady_run (hopen : w.conn.closed = false) (hstate : w.sec.handshakeState ≠ .complete)
    (hclient : w.sec.clientTransient = some client)
    (hserver : w.sec.serverTransient = some (publicOnly serverTransient))
    (hbox : B.openBox box readyNonce serverTransient client.secretKey = some metadata)
    (hmetadata : (unmarshalZmtp P metadata).run w.conn.peerMeta = .ok () peerMeta)
    (hsize : box.length + 6 ≤ maxInt64)
    (hinput : w.conn.rw.input = commandWire { name := cmdReady, body := box } ++ rest) :
    (clientReady B P).run w = .ok ()
      (withPeerMeta ((w.withInput rest).withSec
        { w.sec with
          handshakeState := .ready
          calls := w.sec.calls ++
            [.opened box readyNonce serverTransient client.secretKey (some metadata)] })
        peerMeta) := by
  have hready : 1 + cmdReady.length + box.length ≤ maxInt64 := by
    simp only [show cmdReady.length = 5 from rfl]
    omega
  rw [clientReady]
  have haccept : (acceptReady B P _).run (w.withInput rest) = _ :=
    (bind_ok (expectCommand_run cmdReady box _)).trans <| (bind_ok (getSec_run _)).trans <|
      (bind_ok (deref_run hserver _)).trans <| (bind_ok (deref_run hclient _)).trans <|
      (bind_ok (open_run B hbox _)).trans <| (bind_ok (orFail_run rfl _ _)).trans <|
      unmarshalPeerMetadata_run hmetadata
  exact bind_ok (wrapping_ok ((recv_run B hopen hstate (show cmdReady.length ≤ 255 by decide)
    hready hinput).trans haccept))

theorem clientHandshake_run (hw : w.Healthy) (hcookie : cookie.length = 96)
    (hown : w.conn.metadata.marshalZmtp P = .ok own)
    (hopen : B.openBox box readyNonce serverTransient client.secretKey = some metadata)
    (hmetadata : (unmarshalZmtp P metadata).run w.conn.peerMeta = .ok () peerMeta)
    (hsize : box.length + 6 ≤ maxInt64) (hinput : w.conn.rw.input =
      commandWire { name := cmdWelcome
                    body := serverTransient.bytes ++ (cookie ++ zeros 40) } ++
        (commandWire { name := cmdReady, body := box } ++ rest)) :
    (clientHandshake B P (.ok client)).run w = .ok ()
      { sec := CurveSecurity.finished
          { w.sec with
            clientTransient := some client
            serverTransient := some (publicOnly serverTransient)
            cookie := some cookie
            calls := (((w.sec.calls ++
              [.sealed (zeros 64) helloNonce w.sec.serverKey client.secretKey]) ++
              [.sealed (metadataPlain serverTransient w.sec.keyPair.publicKey own) initiateNonce
                serverTransient client.secretKey]) ++
              [.sealed w.sec.keyPair.publicKey.bytes vouchNonce w.sec.serverKey
                client.secretKey]) ++
              [.opened box readyNonce serverTransient client.secretKey (some metadata)] }
        conn :=
          { w.conn with
            peerMeta := peerMeta
            rw :=
              { w.conn.rw with
                input := rest
                output := (w.conn.rw.output ++ handshakeWrites (helloBody client.publicKey
                  (B.sealBox (zeros 64) helloNonce w.sec.serverKey client.secretKey))) ++
                  handshakeWrites (initiateBody cookie client.publicKey
                    (B.sealBox (metadataPlain serverTransient w.sec.keyPair.publicKey own)
                      initiateNonce serverTransient client.secretKey)
                    (B.sealBox w.sec.keyPair.publicKey.bytes vouchNonce w.sec.serverKey
                      client.secretKey)) } } } := by
  rw [clientHandshake]
  refine (bind_ok (clientHello_run B hw client)).trans ?_
  refine (bind_ok (clientWelcome_run B (by exact hw.notClosed) (by exact nofun) hcookie
    (by exact hinput))).trans ?_
  refine (bind_ok (clientInitiate_run B ⟨by exact hw.notClosed, by exact hw.writable⟩ rfl hcookie
    (by exact hown) rfl rfl rfl rfl)).trans ?_
  refine (bind_ok (clientReady_run B (by exact hw.notClosed) (by exact nofun) rfl rfl hopen
    (by exact hmetadata) hsize rfl)).trans ?_
  rfl

end Sides

end Zmq4.CurveHandshakeRun
