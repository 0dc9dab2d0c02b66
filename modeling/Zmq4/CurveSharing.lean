import Zmq4.CurveHandshakeEffects
import Zmq4.ProgramSimulation

namespace Zmq4.CurveSharing

open ByteCodec DuplexProgram ProgramEffects ProgramSimulation ZmtpMessage ZmtpMetadata Connection
  CommandStream BoxScheme CurveMechanism CurveFrames CurveHandshake CurveHandshakeRun
  CurveHandshakeEffects

/-- What a connection does next: a stage of its handshake, messages, or nothing
after a failure. -/
inductive Phase where
  | idle
  | hello
  | keys
  | welcome
  | initiate
  | ready
  | finish
  | up
  | down
  deriving DecidableEq

structure Link where
  conn : Conn
  generated : Except Err KeyPair
  sealedAt : Int64
  openedAt : Int64
  phase : Phase

inductive Operation where
  | advance
  | encrypt (data : Bytes) (hasMore : Bool)
  | decrypt (data : Bytes)
  deriving DecidableEq

structure Effect where
  sec : CurveSecurity
  link : Link
  outcome : Option Bytes

section System

variable (B : NaclBox) (P : Platform)

def Link.stage (link : Link) : Option (CurveM Unit × Phase) :=
  match link.phase with
  | .idle => some (setState .init, .hello)
  | .hello => some (serverHello B, .keys)
  | .keys => some (serverKeys link.generated, .welcome)
  | .welcome => some (serverWelcome B link.sealedAt, .initiate)
  | .initiate => some (serverInitiate B P link.openedAt, .ready)
  | .ready => some (serverReady B P, .finish)
  | .finish => some (finishHandshake, .up)
  | .up => none
  | .down => none

def Link.advance (sec : CurveSecurity) (link : Link) : Effect :=
  match link.stage B P with
  | none => ⟨sec, link, none⟩
  | some (program, next) =>
    match program.run ⟨sec, link.conn⟩ with
    | .ok _ w => ⟨w.sec, { link with conn := w.conn, phase := next }, some []⟩
    | .error _ w => ⟨w.sec, { link with conn := w.conn, phase := .down }, none⟩

def messageEffect {α : Type} (link : Link) (decrypted : α → Bytes)
    (result : EStateM.Result Stop CurveSecurity α) : Effect :=
  match result with
  | .ok value s => ⟨s, link, some (decrypted value)⟩
  | .error _ s => ⟨s, link, none⟩

def Link.exec (sec : CurveSecurity) (link : Link) : Operation → Effect
  | .advance => link.advance B P sec
  | .encrypt data hasMore =>
    if link.phase = .up then
      messageEffect link (fun _ => []) ((encryptWithFlags B data hasMore).run sec)
    else ⟨sec, link, none⟩
  | .decrypt data =>
    if link.phase = .up then messageEffect link Prod.fst ((decryptWithFlags B data).run sec)
    else ⟨sec, link, none⟩

inductive Which where
  | a
  | b
  deriving DecidableEq

structure Action where
  side : Which
  operation : Operation
  deriving DecidableEq

structure Shared where
  sec : CurveSecurity
  a : Link
  b : Link

def Shared.start (keys : KeyPair) (a b : Link) : Shared where
  sec := newServerSecurity keys
  a := { a with phase := .idle }
  b := { b with phase := .idle }

def outcomesOfA : List Action → Shared → List (Option Bytes)
  | [], _ => []
  | ⟨.a, operation⟩ :: rest, S =>
    let effect := S.a.exec B P S.sec operation
    effect.outcome :: outcomesOfA rest { S with sec := effect.sec, a := effect.link }
  | ⟨.b, operation⟩ :: rest, S =>
    let effect := S.b.exec B P S.sec operation
    outcomesOfA rest { S with sec := effect.sec, b := effect.link }

/-- The second connection makes no difference to the first. -/
def NotInterfering (S : Shared) (actions : List Action) : Prop :=
  outcomesOfA B P actions S = outcomesOfA B P (actions.filter (·.side = .a)) S

end System

/-- No handshake step of the second connection falls between the first and the
last operation of the first one. -/
def undisturbed : Bool → List Action → Bool
  | _, [] => true
  | started, action :: rest =>
    (action.side = .a || action.operation ≠ .advance || !started ||
      rest.all fun later => later.side = .b) &&
    undisturbed (started || action.side = .a) rest

/-- What the later steps of a connection read of the security value: always the
permanent keys, the role and the state, and the transient keys once they are
there. -/
structure View (state : HandshakeState) (client server : Bool) (s t : CurveSecurity) : Prop where
  keyPair : s.keyPair = t.keyPair
  isServer : s.isServer = t.isServer
  first : s.handshakeState = state
  second : t.handshakeState = state
  clientTransient : client = true → s.clientTransient = t.clientTransient
  serverTransient : server = true → s.serverTransient = t.serverTransient

variable {s t : CurveSecurity}

theorem View.symm {state : HandshakeState} {client server : Bool}
    (hst : View state client server s t) : View state client server t s where
  keyPair := hst.keyPair.symm
  isServer := hst.isServer.symm
  first := hst.second
  second := hst.first
  clientTransient hclient := (hst.clientTransient hclient).symm
  serverTransient hserver := (hst.serverTransient hserver).symm

def Alike (related : CurveSecurity → CurveSecurity → Prop) (w v : Endpoint CurveSecurity) : Prop :=
  w.conn = v.conn ∧ related w.sec v.sec

variable {α : Type}

section Parts

variable {B : NaclBox} {P : Platform} {state : HandshakeState} {client server : Bool}

variable {related : CurveSecurity → CurveSecurity → Prop}
  {Q R : Endpoint CurveSecurity → Endpoint CurveSecurity → Prop}

theorem modifySec_tracks {related' : CurveSecurity → CurveSecurity → Prop}
    {g : CurveSecurity → CurveSecurity} (hg : ∀ s t, related s t → related' (g s) (g t)) :
    Tracks (Alike related) (onSec (modify g)) (Alike related') := by
  rintro w v ⟨hconn, hsec⟩ a w' hrun
  cases hrun
  exact ⟨_, rfl, hconn, hg _ _ hsec⟩

theorem setState_tracks (next : HandshakeState) :
    Tracks (Alike (View state client server)) (setState next)
      (Alike (View next client server)) :=
  modifySec_tracks fun _ _ hst => { hst with first := rfl, second := rfl }

theorem getSec_tracks {f : CurveSecurity → CurveM α} (hf : ∀ s t, related s t → f s = f t)
    (hx : ∀ s, Tracks (Alike related) (f s) Q) :
    Tracks (Alike related) (getSec >>= f) Q := by
  rintro w v hwv a w' hrun
  obtain ⟨v', hrun', hwv'⟩ := hx w.sec w v hwv a w' hrun
  refine ⟨v', ?_, hwv'⟩
  rw [bind_ok (getSec_run v), ← hf w.sec v.sec hwv.2]
  exact hrun'

theorem deref_tracks (pointer : Option KeyPair) : Tracks R (deref pointer) R := by
  cases pointer with
  | none => exact .throw _
  | some pair => exact .pure pair

theorem expectZeros_tracks {σ : Type} {R : σ → σ → Prop} (field : String) (body : Bytes)
    (low high : Nat) : Tracks R (expectZeros field body low high) R := by
  intro s t hst a s' hrun
  obtain ⟨hzero, rfl⟩ := expectZeros_eq_ok_iff.mp hrun
  exact ⟨t, expectZeros_run hzero t, hst⟩

theorem seal_tracks (message : Bytes) (nonce : Nonce) (recipient secret : Key) :
    Tracks (Alike (View state client server))
      (onSec (sealMessage B message nonce recipient secret))
      (Alike (View state client server)) := by
  rintro w v ⟨hconn, hsec⟩ a w' hrun
  cases hrun
  exact ⟨_, rfl, hconn, { hsec with }⟩

theorem open_tracks (box : Bytes) (nonce : Nonce) (sender secret : Key) :
    Tracks (Alike (View state client server)) (onSec (openMessage B box nonce sender secret))
      (Alike (View state client server)) := by
  rintro w v ⟨hconn, hsec⟩ a w' hrun
  cases hrun
  exact ⟨_, rfl, hconn, { hsec with }⟩

theorem marshalMetadata_tracks : Tracks (Alike related) (marshalMetadata P) (Alike related) := by
  refine .get_bind ?_ fun w => .wrapping (.fromExcept _)
  rintro w v ⟨hconn, -⟩
  rw [hconn]

theorem unmarshalPeerMetadata_tracks (metadata : Bytes) :
    Tracks (Alike related) (unmarshalPeerMetadata P metadata) (Alike related) := by
  refine .wrapping (.zoom_same ?_ ?_)
  · rintro w v ⟨hconn, -⟩
    rw [hconn]
  · rintro w v part ⟨hconn, hsec⟩
    exact ⟨by rw [hconn], hsec⟩

theorem write_tracks (buffer : Bytes) :
    Tracks (Alike related) (onRw (write buffer)) (Alike related) := by
  refine .zoom_same ?_ ?_
  · rintro w v ⟨hconn, -⟩
    rw [hconn]
  · rintro w v part ⟨hconn, hsec⟩
    exact ⟨by rw [hconn], hsec⟩

theorem checked_tracks {x : CurveM α} (hx : Tracks R x Q) : Tracks R (checked x) Q := by
  intro w v hwv a w' hrun
  obtain ⟨v', hrun', hwv'⟩ := hx w v hwv a w' (checked_eq_ok hrun)
  exact ⟨v', checked_ok hrun', hwv'⟩

theorem sendCmd_tracks {name : Bytes} (hname : isCurveHandshakeCommand name = true) (body : Bytes) :
    Tracks (Alike related) (sendCmd (curveSecurity B) name body) (Alike related) := by
  have hencrypt : Tracks (Alike related) (onSec (encryptHandshakeCommand name body))
      (Alike related) := by
    rintro w v hwv a w' hrun
    rw [onSec_ok (encryptHandshakeCommand_run hname body w.sec)] at hrun
    cases hrun
    exact ⟨v, onSec_ok (encryptHandshakeCommand_run hname body v.sec), hwv⟩
  refine .get_bind ?_ fun w => ?_
  · rintro w v ⟨hconn, -⟩
    rw [hconn]
  split
  · exact .failWith _
  rw [if_pos ⟨rfl, hname⟩]
  refine .bind (checked_tracks (write_tracks _)) fun _ => ?_
  exact checked_tracks (.bind hencrypt fun sealed => write_tracks sealed)

theorem recvCmd_tracks (hstate : state ≠ .complete) :
    Tracks (Alike (View state client server)) (recvCmd (curveSecurity B))
      (Alike (View state client server)) := by
  rintro w v ⟨hconn, hsec⟩ cmd w' hrun
  have hfirst : w.sec.handshakeState ≠ .complete := hsec.first ▸ hstate
  have hsecond : v.sec.handshakeState ≠ .complete := hsec.second ▸ hstate
  obtain ⟨hopen, wire, rest, hwire, hinput, rfl⟩ :=
    (recvCmd_eq_ok_iff (plainCommands_handshake B hfirst)).mp hrun
  refine ⟨v.withInput rest, ?_, ?_, hsec⟩
  · rw [hconn] at hopen hinput
    exact (recvCmd_eq_ok_iff (plainCommands_handshake B hsecond)).mpr
      ⟨hopen, wire, rest, hwire, hinput, rfl⟩
  · simp only [Endpoint.withInput, hconn]

end Parts

section Stages

variable {B : NaclBox} {P : Platform} {state : HandshakeState} {client server : Bool}

theorem acceptHello_tracks (cmd : Cmd) :
    Tracks (Alike (View state client server)) (acceptHello cmd)
      (Alike (View state true server)) := by
  refine .bind (.require _) fun _ => .bind (.require _) fun _ => ?_
  refine .bind (expectZeros_tracks _ _ _ _) fun _ => ?_
  refine .bind (modifySec_tracks ?_) fun _ => expectZeros_tracks _ _ _ _
  intro s t hst
  exact { hst with clientTransient := fun _ => rfl }

theorem serverHello_tracks (hstate : state ≠ .complete) :
    Tracks (Alike (View state client server)) (serverHello B)
      (Alike (View .hello true server)) := by
  have hrecv : Tracks (Alike (View state client server)) (recvHello B)
      (Alike (View state true server)) :=
    Tracks.bind (.wrapping (recvCmd_tracks hstate)) acceptHello_tracks
  exact .bind (.wrapping hrecv) fun _ => setState_tracks _

theorem serverKeys_tracks (generated : Except Err KeyPair) :
    Tracks (Alike (View state client server)) (serverKeys generated)
      (Alike (View state client true)) := by
  cases generated with
  | error err => exact fun _ _ _ _ _ hrun => by cases hrun
  | ok pair =>
    refine modifySec_tracks (g := fun s => { s with serverTransient := some pair }) ?_
    intro s t hst
    exact { hst with serverTransient := fun _ => rfl }

theorem sendWelcome_tracks (now : Int64) :
    Tracks (Alike (View state true true)) (sendWelcome B now) (Alike (View state true true)) := by
  refine getSec_tracks ?_ fun s => ?_
  · intro s t hst
    rw [hst.keyPair, hst.clientTransient rfl, hst.serverTransient rfl]
  refine .bind (deref_tracks _) fun server => .bind (deref_tracks _) fun client => ?_
  refine .bind (seal_tracks _ _ _ _) fun cookie => ?_
  exact .bind (.require _) fun _ => sendCmd_tracks rfl _

theorem restoreCookie_tracks (now : Int64) (body : Bytes) :
    Tracks (Alike (View state true true)) (restoreCookie B now body)
      (Alike (View state true true)) := by
  have hstore : ∀ pair, Tracks (Alike (View state true true))
      (onSec (modify fun s => { s with serverTransient := some pair }))
      (Alike (View state true true)) := by
    intro pair
    refine modifySec_tracks ?_
    intro s t hst
    exact { hst with serverTransient := fun _ => rfl }
  refine getSec_tracks ?_ fun s => ?_
  · intro s t hst
    rw [hst.keyPair, hst.serverTransient rfl]
  refine .bind (open_tracks _ _ _ _) fun opened => ?_
  refine .bind (.orFail _ _) fun cookie => .bind (.require _) fun _ => ?_
  refine .bind (deref_tracks _) fun server => .bind (hstore _) fun _ => ?_
  exact .bind (.require _) fun _ => .pure _

theorem checkTransient_tracks (fromCookie : Key) (body : Bytes) :
    Tracks (Alike (View state true true)) (checkTransient fromCookie body)
      (Alike (View state true true)) := by
  refine .bind (.require _) fun _ => getSec_tracks ?_ fun s => ?_
  · intro s t hst
    rw [hst.clientTransient rfl]
  exact .bind (deref_tracks _) fun client => .require _

theorem acceptMetadata_tracks (body : Bytes) :
    Tracks (Alike (View state true true)) (acceptMetadata B P body)
      (Alike (View state true true)) := by
  refine getSec_tracks ?_ fun s => ?_
  · intro s t hst
    rw [hst.clientTransient rfl, hst.serverTransient rfl]
  refine .bind (deref_tracks _) fun client => .bind (deref_tracks _) fun server => ?_
  refine .bind (open_tracks _ _ _ _) fun opened => ?_
  refine .bind (.orFail _ _) fun plain => .bind (.require _) fun _ => ?_
  refine .bind (.require _) fun _ => ?_
  exact .bind (unmarshalPeerMetadata_tracks _) fun _ => .pure _

theorem acceptVouch_tracks (body : Bytes) (clientPermanent : Key) :
    Tracks (Alike (View state true true)) (acceptVouch B body clientPermanent)
      (Alike (View state true true)) := by
  refine getSec_tracks ?_ fun s => ?_
  · intro s t hst
    rw [hst.keyPair, hst.clientTransient rfl]
  refine .bind (deref_tracks _) fun client => .bind (open_tracks _ _ _ _) fun opened => ?_
  refine .bind (.orFail _ _) fun plain => ?_
  exact .bind (.require _) fun _ => .require _

theorem acceptInitiate_tracks (now : Int64) (cmd : Cmd) :
    Tracks (Alike (View state true true)) (acceptInitiate B P now cmd)
      (Alike (View state true true)) := by
  refine .bind (.require _) fun _ => .bind (.require _) fun _ => ?_
  refine .bind (restoreCookie_tracks _ _) fun fromCookie => ?_
  refine .bind (checkTransient_tracks _ _) fun _ => ?_
  refine .bind (acceptMetadata_tracks _) fun clientPermanent => ?_
  refine .bind (acceptVouch_tracks _ _) fun _ => modifySec_tracks ?_
  intro s t hst
  exact { hst with }

theorem serverInitiate_tracks (hstate : state ≠ .complete) (now : Int64) :
    Tracks (Alike (View state true true)) (serverInitiate B P now)
      (Alike (View .initiate true true)) := by
  have hrecv : Tracks (Alike (View state true true)) (recvInitiate B P now)
      (Alike (View state true true)) :=
    Tracks.bind (.wrapping (recvCmd_tracks hstate)) (acceptInitiate_tracks now)
  exact .bind (.wrapping hrecv) fun _ => setState_tracks _

theorem serverReady_tracks :
    Tracks (Alike (View state true true)) (serverReady B P) (Alike (View .ready true true)) := by
  refine .bind (setState_tracks _) fun _ => .wrapping ?_
  refine .bind marshalMetadata_tracks fun metadata => getSec_tracks ?_ fun s => ?_
  · intro s t hst
    rw [hst.clientTransient rfl, hst.serverTransient rfl]
  refine .bind (deref_tracks _) fun client => .bind (deref_tracks _) fun server => ?_
  exact .bind (seal_tracks _ _ _ _) fun readyBox => sendCmd_tracks rfl _

theorem finishHandshake_tracks :
    Tracks (Alike (View state true true)) finishHandshake (Alike (View .complete true true)) := by
  refine modifySec_tracks ?_
  intro s t hst
  exact { hst with first := rfl, second := rfl }

/-- How the two security values agree, by what the connection does next. -/
def Related : Phase → CurveSecurity → CurveSecurity → Prop
  | .idle => fun s t => s.keyPair = t.keyPair ∧ s.isServer = t.isServer
  | .hello => View .init false false
  | .keys => View .hello true false
  | .welcome => View .hello true true
  | .initiate => View .welcome true true
  | .ready => View .initiate true true
  | .finish => View .ready true true
  | .up => View .complete true true
  | .down => fun _ _ => True

theorem Related.symm {phase : Phase} (hst : Related phase s t) : Related phase t s := by
  cases phase with
  | idle => exact ⟨hst.1.symm, hst.2.symm⟩
  | down => trivial
  | hello | keys | welcome | initiate | ready | finish | up => exact View.symm hst

theorem stage_tracks {link : Link} {program : CurveM Unit} {next : Phase}
    (hstage : link.stage B P = some (program, next)) :
    Tracks (Alike (Related link.phase)) program (Alike (Related next)) := by
  unfold Link.stage at hstage
  cases hphase : link.phase <;> rw [hphase] at hstage <;> cases hstage
  case idle =>
    refine modifySec_tracks ?_
    rintro s t ⟨hkeys, hrole⟩
    exact ⟨hkeys, hrole, rfl, rfl, nofun, nofun⟩
  case hello => exact serverHello_tracks (by decide)
  case keys => exact serverKeys_tracks link.generated
  case welcome =>
    exact .bind (setState_tracks _) fun _ => .wrapping (sendWelcome_tracks link.sealedAt)
  case initiate => exact serverInitiate_tracks (by decide) link.openedAt
  case ready => exact serverReady_tracks
  case finish => exact finishHandshake_tracks

end Stages

section Messages

variable {B : NaclBox} {P : Platform}

def viewed (s : CurveSecurity) :
    KeyPair × Bool × HandshakeState × Option KeyPair × Option KeyPair :=
  (s.keyPair, s.isServer, s.handshakeState, s.clientTransient, s.serverTransient)

theorem encryptWithFlags_keeps (data : Bytes) (hasMore : Bool) :
    Keeps viewed (encryptWithFlags B data hasMore) := by
  have hcount : Keeps viewed nextSendNonce := by
    intro s
    change viewed s.countSend.1 = viewed s
    unfold CurveSecurity.countSend
    split <;> rfl
  refine .bind Keeps.get fun s => ?_
  split
  · exact .failWith _
  refine .bind hcount fun counter => ?_
  refine .bind (fun _ => rfl) fun encrypted => ?_
  split
  · exact .throw _
  · exact .pure _

theorem decryptWithFlags_keeps (data : Bytes) : Keeps viewed (decryptWithFlags B data) := by
  refine .bind Keeps.get fun s => ?_
  split
  · exact .failWith _
  split
  · exact .failWith _
  dsimp only
  split
  · exact .failWith _
  refine .bind (fun _ => rfl) fun decrypted => ?_
  split
  · exact .failWith _
  · exact .pure _

theorem View.readiness (hst : View .complete true true s t) :
    validateMessageReadiness s = validateMessageReadiness t := by
  rw [validateMessageReadiness, validateMessageReadiness, hst.first, hst.second,
    hst.clientTransient rfl, hst.serverTransient rfl]

theorem decryptWithFlags_tracks (data : Bytes) :
    Tracks (View .complete true true) (decryptWithFlags B data) fun _ _ => True := by
  refine .get_bind ?_ fun s => ?_
  · intro s t hst
    rw [hst.readiness, hst.isServer]
  split
  · exact .failWith _
  split
  · exact .failWith _
  dsimp only
  split
  · exact .failWith _
  refine .bind (Q := fun _ _ => True) ?_ fun decrypted => ?_
  · intro s₁ s₂ _ result s' hrun
    cases hrun
    exact ⟨_, rfl, trivial⟩
  split
  · exact .failWith _
  · exact .pure _

theorem encryptWithFlags_outcome (link : Link) (s : CurveSecurity) (data : Bytes) (hasMore : Bool) :
    (messageEffect link (fun _ => []) ((encryptWithFlags B data hasMore).run s)).outcome =
      if s.messageKeys.isSome ∧ data.length + 25 ≤ maxInt64 then some [] else none := by
  cases hkeys : s.messageKeys with
  | none =>
    cases hready : validateMessageReadiness s with
    | ok keys => simp [CurveSecurity.messageKeys, hready] at hkeys
    | error err =>
      rw [encryptWithFlags, bind_ok (EStateM.run_get s)]
      simp [hready, messageEffect]
  | some keys =>
    by_cases hfits : data.length + 25 ≤ maxInt64
    · rw [encryptWithFlags_run B hkeys hfits]
      simp [messageEffect, hfits]
    · obtain ⟨s', hpanic⟩ := encryptWithFlags_too_long B hkeys hfits hasMore
      rw [hpanic]
      simp [messageEffect, hfits]

end Messages

section Runs

variable {B : NaclBox} {P : Platform} {s t : CurveSecurity} {x y : Link}

/-- The first connection in two runs: the same, unless it has failed, and the
security values agree as far as it reads them. -/
structure Matches (s t : CurveSecurity) (x y : Link) : Prop where
  phase : x.phase = y.phase
  link : x.phase ≠ .down → x = y
  related : Related x.phase s t

theorem Related.of_viewed {phase : Phase} {s' t' : CurveSecurity} (hst : Related phase s t)
    (hs : viewed s' = viewed s) (ht : viewed t' = viewed t) : Related phase s' t' := by
  simp only [viewed, Prod.mk.injEq] at hs ht
  obtain ⟨hkeys, hrole, hstate, hclient, hserver⟩ := hs
  obtain ⟨hkeys', hrole', hstate', hclient', hserver'⟩ := ht
  have hview : ∀ {state client server}, View state client server s t →
      View state client server s' t' := by
    intro state client server hview
    refine ⟨?_, ?_, hstate.trans hview.first, hstate'.trans hview.second, ?_, ?_⟩
    · rw [hkeys, hkeys', hview.keyPair]
    · rw [hrole, hrole', hview.isServer]
    · intro hknown
      rw [hclient, hclient', hview.clientTransient hknown]
    · intro hknown
      rw [hserver, hserver', hview.serverTransient hknown]
  cases phase with
  | idle => exact ⟨by rw [hkeys, hkeys', hst.1], by rw [hrole, hrole', hst.2]⟩
  | down => trivial
  | hello | keys | welcome | initiate | ready | finish | up => exact hview hst

theorem messageEffect_link (link : Link) (decrypted : α → Bytes)
    (result : EStateM.Result Stop CurveSecurity α) :
    (messageEffect link decrypted result).link = link ∧
      (messageEffect link decrypted result).sec = finalState result := by
  cases result <;> exact ⟨rfl, rfl⟩

variable {operation : Operation} {link : Link} {program : CurveM Unit} {next : Phase}
  {w : Endpoint CurveSecurity} {actions : List Action}

theorem exec_message (link : Link) (s : CurveSecurity) (hmessage : operation ≠ .advance) :
    (link.exec B P s operation).link = link ∧
      viewed (link.exec B P s operation).sec = viewed s := by
  cases operation with
  | advance => exact absurd rfl hmessage
  | encrypt data hasMore =>
    rw [Link.exec]
    split
    · obtain ⟨hlink, hsec⟩ := messageEffect_link link (fun _ => [])
        ((encryptWithFlags B data hasMore).run s)
      rw [hlink, hsec]
      exact ⟨rfl, encryptWithFlags_keeps data hasMore s⟩
    · exact ⟨rfl, rfl⟩
  | decrypt data =>
    rw [Link.exec]
    split
    · obtain ⟨hlink, hsec⟩ := messageEffect_link link Prod.fst ((decryptWithFlags B data).run s)
      rw [hlink, hsec]
      exact ⟨rfl, decryptWithFlags_keeps data s⟩
    · exact ⟨rfl, rfl⟩

theorem Matches.of_message (hmatches : Matches s t x y) (hmessage : operation ≠ .advance) :
    Matches (x.exec B P s operation).sec (y.exec B P t operation).sec
      (x.exec B P s operation).link (y.exec B P t operation).link := by
  obtain ⟨hxlink, hxview⟩ := exec_message (B := B) (P := P) x s hmessage
  obtain ⟨hylink, hyview⟩ := exec_message (B := B) (P := P) y t hmessage
  rw [hxlink, hylink]
  exact ⟨hmatches.phase, hmatches.link, hmatches.related.of_viewed hxview hyview⟩

theorem message_outcome (hmatches : Matches s t x y) (hmessage : operation ≠ .advance) :
    (x.exec B P s operation).outcome = (y.exec B P t operation).outcome := by
  by_cases hup : x.phase = .up
  · have hlink := hmatches.link (by rw [hup]; decide)
    subst hlink
    have hview : View .complete true true s t := by
      have hrelated := hmatches.related
      rwa [hup] at hrelated
    cases operation with
    | advance => exact absurd rfl hmessage
    | encrypt data hasMore =>
      have hkeys : s.messageKeys = t.messageKeys := by
        rw [CurveSecurity.messageKeys, CurveSecurity.messageKeys, hview.readiness, hview.isServer]
      rw [Link.exec, Link.exec, if_pos hup, if_pos hup, encryptWithFlags_outcome,
        encryptWithFlags_outcome, hkeys]
    | decrypt data =>
      rw [Link.exec, Link.exec, if_pos hup, if_pos hup]
      rcases (decryptWithFlags_tracks (B := B) data).both hview hview.symm with
        ⟨content, s', t', hs, ht, -⟩ | ⟨stop, stop', s', t', hs, ht⟩
      · rw [hs, ht]
        rfl
      · rw [hs, ht]
        rfl
  · have hup' : y.phase ≠ .up := hmatches.phase ▸ hup
    cases operation with
    | advance => exact absurd rfl hmessage
    | encrypt | decrypt => rw [Link.exec, Link.exec, if_neg hup, if_neg hup']

theorem advance_ok {u : Unit} (hstage : link.stage B P = some (program, next))
    (hrun : program.run ⟨s, link.conn⟩ = .ok u w) :
    link.advance B P s = ⟨w.sec, { link with conn := w.conn, phase := next }, some []⟩ := by
  rw [Link.advance, hstage]
  dsimp only
  rw [hrun]

theorem advance_error {stop : Stop} (hstage : link.stage B P = some (program, next))
    (hrun : program.run ⟨s, link.conn⟩ = .error stop w) :
    link.advance B P s = ⟨w.sec, { link with conn := w.conn, phase := .down }, none⟩ := by
  rw [Link.advance, hstage]
  dsimp only
  rw [hrun]

theorem advance_matches (hmatches : Matches s t x y) :
    (x.advance B P s).outcome = (y.advance B P t).outcome ∧
      Matches (x.advance B P s).sec (y.advance B P t).sec (x.advance B P s).link
        (y.advance B P t).link := by
  by_cases hdown : x.phase = .down
  · have hx : x.stage B P = none := by rw [Link.stage, hdown]
    have hy : y.stage B P = none := by rw [Link.stage, ← hmatches.phase, hdown]
    rw [Link.advance, Link.advance, hx, hy]
    exact ⟨rfl, hmatches⟩
  · have hlink := hmatches.link hdown
    subst hlink
    cases hstage : x.stage B P with
    | none =>
      rw [Link.advance, Link.advance, hstage]
      exact ⟨rfl, hmatches⟩
    | some stage =>
      obtain ⟨program, next⟩ := stage
      rcases (stage_tracks hstage).both (s := ⟨s, x.conn⟩) (t := ⟨t, x.conn⟩) ⟨rfl, hmatches.related⟩
        ⟨rfl, hmatches.related.symm⟩ with
        ⟨_, w, v, hw, hv, hconn, hsec⟩ | ⟨stop, stop', w, v, hw, hv⟩
      · rw [advance_ok hstage hw, advance_ok hstage hv]
        exact ⟨rfl, rfl, fun _ => by rw [hconn], hsec⟩
      · rw [advance_error hstage hw, advance_error hstage hv]
        exact ⟨rfl, rfl, fun hup => absurd rfl hup, trivial⟩

theorem exec_matches (hmatches : Matches s t x y) (operation : Operation) :
    (x.exec B P s operation).outcome = (y.exec B P t operation).outcome ∧
      Matches (x.exec B P s operation).sec (y.exec B P t operation).sec
        (x.exec B P s operation).link (y.exec B P t operation).link := by
  by_cases hadvance : operation = .advance
  · subst hadvance
    exact advance_matches hmatches
  · exact ⟨message_outcome hmatches hadvance, hmatches.of_message hadvance⟩

abbrev role (w : Endpoint CurveSecurity) : KeyPair × Bool :=
  (w.sec.keyPair, w.sec.isServer)

theorem seal_keeps_role (message : Bytes) (nonce : Nonce) (recipient secret : Key) :
    Keeps role (onSec (sealMessage B message nonce recipient secret)) :=
  fun _ => rfl

theorem sendCmd_keeps_role {name : Bytes} (hname : isCurveHandshakeCommand name = true)
    (body : Bytes) : Keeps role (sendCmd (curveSecurity B) name body) := by
  intro w
  exact congrArg (fun s : CurveSecurity => (s.keyPair, s.isServer))
    (sendCmd_keeps_sec hname body w)

theorem serverWelcome_keeps_role (now : Int64) : Keeps role (serverWelcome B now) := by
  refine .bind (setState_keeps lasting_role _) fun _ => .wrapping ?_
  refine .bind getSec_keeps fun s => .bind (deref_keeps _) fun server => ?_
  refine .bind (deref_keeps _) fun client => ?_
  refine .bind (seal_keeps_role _ _ _ _) fun cookie => ?_
  exact .bind (.require _) fun _ => sendCmd_keeps_role rfl _

theorem serverReady_keeps_role : Keeps role (serverReady B P) := by
  refine .bind (setState_keeps lasting_role _) fun _ => .wrapping ?_
  refine .bind marshalMetadata_keeps fun metadata => .bind getSec_keeps fun s => ?_
  refine .bind (deref_keeps _) fun client => .bind (deref_keeps _) fun server => ?_
  exact .bind (seal_keeps_role _ _ _ _) fun readyBox => sendCmd_keeps_role rfl _

theorem stage_keeps_role (hstage : link.stage B P = some (program, next)) : Keeps role program := by
  unfold Link.stage at hstage
  cases hphase : link.phase <;> rw [hphase] at hstage <;> cases hstage
  case idle => exact setState_keeps lasting_role _
  case hello => exact serverHello_keeps lasting_role
  case keys => exact serverKeys_keeps lasting_role _
  case welcome => exact serverWelcome_keeps_role _
  case initiate => exact serverInitiate_keeps lasting_role _
  case ready => exact serverReady_keeps_role
  case finish => exact finishHandshake_keeps lasting_role

theorem advance_role (link : Link) (s : CurveSecurity) :
    (link.advance B P s).sec.keyPair = s.keyPair ∧
      (link.advance B P s).sec.isServer = s.isServer := by
  cases hstage : link.stage B P with
  | none =>
    rw [Link.advance, hstage]
    exact ⟨rfl, rfl⟩
  | some stage =>
    obtain ⟨program, next⟩ := stage
    have hrole := stage_keeps_role hstage ⟨s, link.conn⟩
    cases hrun : program.run ⟨s, link.conn⟩ with
    | ok u w =>
      rw [advance_ok hstage hrun]
      rw [hrun] at hrole
      exact Prod.mk.injEq .. ▸ hrole
    | error stop w =>
      rw [advance_error hstage hrun]
      rw [hrun] at hrole
      exact Prod.mk.injEq .. ▸ hrole

theorem outcomesOfA_none (hnone : actions.all (·.side = .b) = true) (S : Shared) :
    outcomesOfA B P actions S = [] := by
  induction actions generalizing S with
  | nil => rfl
  | cons action rest ih =>
    obtain ⟨side, operation⟩ := action
    simp only [List.all_cons, Bool.and_eq_true, decide_eq_true_eq] at hnone
    obtain ⟨rfl, hrest⟩ := hnone
    exact ih hrest _

theorem filter_none (hnone : actions.all (·.side = .b) = true) :
    actions.filter (·.side = .a) = [] := by
  rw [List.filter_eq_nil_iff]
  intro action haction
  have hside := List.all_eq_true.mp hnone action haction
  simp only [decide_eq_true_eq] at hside ⊢
  rw [hside]
  decide

/-- The run with both connections and the run with the first one alone, from
matching states. -/
theorem outcomesOfA_eq {started : Bool} {S T : Shared} (hmatches : Matches S.sec T.sec S.a T.a)
    (hidle : started = false → S.a.phase = .idle)
    (hundisturbed : undisturbed started actions = true) :
    outcomesOfA B P actions S = outcomesOfA B P (actions.filter (·.side = .a)) T := by
  induction actions generalizing started S T with
  | nil => rfl
  | cons action rest ih =>
    obtain ⟨side, operation⟩ := action
    rw [undisturbed, Bool.and_eq_true] at hundisturbed
    obtain ⟨hstep, hrest⟩ := hundisturbed
    cases side with
    | a =>
      obtain ⟨houtcome, hnext⟩ := exec_matches (B := B) (P := P) hmatches operation
      rw [List.filter_cons_of_pos (by rfl), outcomesOfA, outcomesOfA, houtcome]
      refine congrArg _ (ih hnext ?_ hrest)
      intro hstarted
      simp at hstarted
    | b =>
      rw [List.filter_cons_of_neg (by simp), outcomesOfA]
      by_cases hadvance : operation = .advance
      · subst hadvance
        cases started with
        | true =>
          have hnone : rest.all (·.side = .b) = true := by simpa using hstep
          rw [outcomesOfA_none hnone, filter_none hnone]
          rfl
        | false =>
          have hphase := hidle rfl
          obtain ⟨hkeys, hrole⟩ := advance_role (B := B) (P := P) S.b S.sec
          have hrelated := hmatches.related
          rw [hphase] at hrelated
          refine ih ⟨hmatches.phase, hmatches.link, ?_⟩ hidle hrest
          rw [hphase]
          exact ⟨hkeys.trans hrelated.1, hrole.trans hrelated.2⟩
      · obtain ⟨-, hviewed⟩ := exec_message (B := B) (P := P) S.b S.sec hadvance
        rw [show (started || decide (Which.b = Which.a)) = started by simp] at hrest
        exact ih ⟨hmatches.phase, hmatches.link, hmatches.related.of_viewed hviewed rfl⟩ hidle hrest

theorem outcomesOfA_advance {b : Link} {u : Unit} (hstage : link.stage B P = some (program, next))
    (hrun : program.run ⟨s, link.conn⟩ = .ok u w) (rest : List Action) :
    outcomesOfA B P (⟨.a, .advance⟩ :: rest) ⟨s, link, b⟩ =
      some [] :: outcomesOfA B P rest ⟨w.sec, { link with conn := w.conn, phase := next }, b⟩ := by
  rw [outcomesOfA, Link.exec, advance_ok hstage hrun]

theorem outcomesOfA_handshake (hidle : link.phase = .idle)
    (hrun : (serverHandshake B P link.generated link.sealedAt link.openedAt).run
      ⟨s, link.conn⟩ = .ok () w) (b : Link) (rest : List Action) :
    outcomesOfA B P (List.replicate 7 ⟨.a, .advance⟩ ++ rest) ⟨s, link, b⟩ =
      List.replicate 7 (some []) ++
        outcomesOfA B P rest ⟨w.sec, { link with conn := w.conn, phase := .up }, b⟩ := by
  simp only [serverHandshake, serverAccepts, serverWelcomes, bind_assoc, bind_eq_ok_iff] at hrun
  obtain ⟨_, w₁, hbegin, _, w₂, hhello, _, w₃, hkeys, _, w₄, hwelcome, _, w₅, hinitiate, _, w₆,
    hready, hfinish⟩ := hrun
  simp only [List.replicate, List.cons_append, List.nil_append]
  rw [outcomesOfA_advance (by rw [Link.stage, hidle]) hbegin, outcomesOfA_advance rfl hhello,
    outcomesOfA_advance rfl hkeys, outcomesOfA_advance rfl hwelcome,
    outcomesOfA_advance rfl hinitiate, outcomesOfA_advance rfl hready,
    outcomesOfA_advance rfl hfinish]

/-- The handshake of one connection must not run while the other is in use;
then messages in any order do not interfere. -/
theorem notInterfering_of_undisturbed (keys : KeyPair) (a b : Link) {actions : List Action}
    (hundisturbed : undisturbed false actions = true) :
    NotInterfering B P (Shared.start keys a b) actions :=
  outcomesOfA_eq ⟨rfl, fun _ => rfl, rfl, rfl⟩ (fun _ => rfl) hundisturbed

end Runs

section Disturbed

def guestInitiate : PeerInitiate :=
  sealedInitiate xorBox (xorBox.pairOf (plainKey 2)) (xorBox.publicOf (plainKey 1)) (plainKey 3)
    (xorBox.publicOf (plainKey 4)) []

def guestHello : Cmd where
  name := cmdHello
  body := helloBody (xorBox.publicOf (plainKey 3)) (zeros 40)

def guest : Link where
  conn := (Endpoint.withInput ⟨(), Conn.fresh (openMetadata .rep [])⟩
    (commandWire guestHello ++ (commandWire
      { name := cmdInitiate
        body := guestInitiate.body xorBox (xorBox.pairOf (plainKey 2))
          (xorBox.pairOf (plainKey 4)) 0 } ++ []))).conn
  generated := .ok (xorBox.pairOf (plainKey 4))
  sealedAt := 0
  openedAt := 0
  phase := .idle

def stranger : Link where
  conn := Conn.fresh (openMetadata .rep [])
  generated := .ok (xorBox.pairOf (plainKey 5))
  sealedAt := 0
  openedAt := 0
  phase := .idle

def guestMessage : Bytes :=
  messageBytes xorBox (littleEndian 8 2) (xorBox.publicOf (plainKey 4)) (plainKey 3) [1] false

theorem guest_handshake : ∃ w, (serverHandshake xorBox plainPlatform guest.generated guest.sealedAt
      guest.openedAt).run ⟨newServerSecurity (xorBox.pairOf (plainKey 2)), guest.conn⟩ =
        .ok () w ∧
      w.sec.messageKeys = some (xorBox.publicOf (plainKey 3), plainKey 4) := by
  have hkeys := xorBox.isPair_pairOf (plainKey 2)
  have hfits : guestInitiate.Fits xorBox plainPlatform (xorBox.pairOf (plainKey 2))
      (xorBox.pairOf (plainKey 4)) Metadata.empty Metadata.empty :=
    sealedInitiate_fits xorBox hkeys _ (plainKey 3) (plainKey 4) rfl (by decide)
  obtain ⟨own, hown⟩ := (opened_openMetadata .rep []).marshalZmtp plainPlatform
  have haccepts := serverAccepts_run xorBox (P := plainPlatform)
    (w := ⟨newServerSecurity (xorBox.pairOf (plainKey 2)), guest.conn⟩) ⟨rfl, rfl⟩ hkeys rfl
    (show 40 ≤ (zeros 40).length by decide) (show (0 : Int64) - 0 ≤ 60 by decide) hfits rfl
  exact ⟨_, serverHandshake_run xorBox haccepts ⟨rfl, rfl⟩ hown rfl rfl, rfl⟩

theorem guest_decrypts (hkeys : s.messageKeys = some (xorBox.publicOf (plainKey 3), plainKey 4)) :
    ∃ s', (decryptWithFlags xorBox guestMessage).run s = .ok ([1], false) s' := by
  obtain ⟨call, hdecrypt⟩ := decryptWithFlags_run xorBox hkeys (littleEndian_length 8 2)
    (xorBox.openBox_sealBox [1] (messageNonce (littleEndian 8 2)) (plainKey 3) (plainKey 4)) false
  exact ⟨_, hdecrypt⟩

/-- The second connection does nothing but begin, and the first one can no
longer decrypt. -/
theorem beginning_handshake_interferes :
    ¬ NotInterfering xorBox plainPlatform
      (Shared.start (xorBox.pairOf (plainKey 2)) guest stranger)
      (List.replicate 7 ⟨.a, .advance⟩ ++ [⟨.b, .advance⟩, ⟨.a, .decrypt guestMessage⟩]) := by
  obtain ⟨w, hrun, hkeys⟩ := guest_handshake
  obtain ⟨s', hdecrypt⟩ := guest_decrypts hkeys
  intro hsame
  have hboth := outcomesOfA_handshake rfl hrun stranger
    [⟨.b, .advance⟩, ⟨.a, .decrypt guestMessage⟩]
  have halone := outcomesOfA_handshake rfl hrun stranger [⟨.a, .decrypt guestMessage⟩]
  rw [show outcomesOfA xorBox plainPlatform [⟨.b, .advance⟩, ⟨.a, .decrypt guestMessage⟩]
    ⟨w.sec, { guest with conn := w.conn, phase := .up }, stranger⟩ = [none] from rfl] at hboth
  rw [show outcomesOfA xorBox plainPlatform [⟨.a, .decrypt guestMessage⟩]
    ⟨w.sec, { guest with conn := w.conn, phase := .up }, stranger⟩ = [some [1]] by
      rw [outcomesOfA, Link.exec, if_pos rfl, hdecrypt]
      rfl] at halone
  have hdiffer := hboth.symm.trans (hsame.trans halone)
  exact absurd (List.append_cancel_left hdiffer) (by decide)

theorem early_handshake_does_not_interfere :
    NotInterfering xorBox plainPlatform
      (Shared.start (xorBox.pairOf (plainKey 2)) guest stranger)
      [⟨.b, .advance⟩, ⟨.a, .advance⟩, ⟨.b, .encrypt [1] false⟩, ⟨.a, .advance⟩] :=
  notInterfering_of_undisturbed _ guest stranger (by decide)

end Disturbed

end Zmq4.CurveSharing
