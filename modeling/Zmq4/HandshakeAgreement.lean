import Zmq4.BytePipe
import Zmq4.OpenHandshake

namespace Zmq4.HandshakeAgreement

open ByteCodec DuplexProgram ProgramEffects ProgramStreams BytePipe ZmtpMessage ZmtpMetadata
  MetadataRoundTrip Connection CommandStream ConnectionStreams OpenHandshake

variable {σ τ α : Type}

def openSide (M : Mechanism σ) (server : Bool) (typ : SocketType) (w : Endpoint σ) :
    Side (Endpoint σ) Unit where
  program := openConn M server typ
  start := w.withInput
  written w' := w'.conn.rw.output.flatten

/-- The side has returned: without an error exactly when the types are
compatible, and then it knows the peer's type and identity. -/
def Concluded (result : EStateM.Result Stop (Endpoint σ) Unit) (own peer : SocketType)
    (peerId : Bytes) : Prop :=
  match result with
  | .ok _ w => own.isCompatible peer = true ∧
      w.conn.peerMeta.entries.Perm [(sysSockType, peer.name), (sysSockId, peerId.take 255)]
  | .error (.fail _) _ => own.isCompatible peer = false
  | .error _ _ => False

/-- However the bytes arrive, each side waits or comes to its verdict, and both
verdicts are reached once everything sent has arrived. -/
structure Agreement (first : Side (Endpoint σ) Unit) (second : Side (Endpoint τ) Unit)
    (firstType secondType : SocketType) (firstId secondId : Bytes) : Prop where
  safe : ∀ atFirst atSecond, Reachable first second atFirst atSecond →
    (Waiting (first.result atFirst) ∨
      Concluded (first.result atFirst) firstType secondType secondId) ∧
    (Waiting (second.result atSecond) ∨
      Concluded (second.result atSecond) secondType firstType firstId)
  live : ∀ atFirst atSecond, Reachable first second atFirst atSecond →
    Delivered first second atFirst atSecond →
    Concluded (first.result atFirst) firstType secondType secondId ∧
      Concluded (second.result atSecond) secondType firstType firstId
  delivers : ∀ atFirst atSecond, Reachable first second atFirst atSecond →
    ∃ toFirst toSecond, Reachable first second toFirst toSecond ∧
      Delivered first second toFirst toSecond ∧ atFirst <+: toFirst ∧ atSecond <+: toSecond

variable {id : Bytes}

section Metadata

variable {entries : List (Bytes × Bytes)}

theorem lookup_of_mem (hnodup : (entries.map Prod.fst).Nodup) {key value : Bytes}
    (hentry : (key, value) ∈ entries) : entries.lookup key = some value := by
  induction entries with
  | nil => cases hentry
  | cons entry rest ih =>
    rw [List.map_cons, List.nodup_cons] at hnodup
    rcases List.mem_cons.mp hentry with rfl | hrest
    · exact List.lookup_cons_self
    · have hne : ¬ key = entry.1 := by
        rintro rfl
        exact hnodup.1 (List.mem_map.mpr ⟨_, hrest, rfl⟩)
      obtain ⟨k, v⟩ := entry
      have hdiff : (key == k) = false := by simpa using hne
      rw [List.lookup_cons, hdiff]
      exact ih hnodup.2 hrest

theorem get_of_mem {md : Metadata} {key value : Bytes} (hentry : (key, value) ∈ md.entries) :
    md.get key = value := by
  rw [Metadata.get, lookup_of_mem md.nodup hentry, Option.getD_some]

/-- The entries that `Open` makes have the names of the protocol. -/
structure OpenEntry (P : Platform) (entry : Bytes × Bytes) : Prop where
  system : isSystemKey entry.1 = true
  title : P.toTitle entry.1 = entry.1
  key : entry.1.length ≤ 11
  value : entry.2.length ≤ 255

namespace OpenEntry

variable {P : Platform} {entry : Bytes × Bytes}

theorem titled (h : OpenEntry P entry) : Titled P entry.1 :=
  titled_of_system h.system h.title

theorem entrySize_le (h : OpenEntry P entry) : entrySize P entry ≤ 271 := by
  have hkey := h.key
  have hvalue := h.value
  rw [entrySize, wireKeyLength, if_pos h.system]
  omega

theorem countable (h : OpenEntry P entry) : Countable P entry := by
  have hkey := h.key
  have hvalue := h.value
  refine ⟨?_, by omega⟩
  rw [wireKeyLength, if_pos h.system]
  omega

theorem peerEntry (h : OpenEntry P entry) : (peerKey P entry.1, entry.2) = entry := by
  simp [peerKey, h.system]

end OpenEntry

variable {P : Platform}

theorem openEntry_of_mem (hP : ∀ key ∈ [sysSockType, sysSockId], P.toTitle key = key)
    {typ : SocketType} {entry : Bytes × Bytes} (hentry : entry ∈ (openMetadata typ id).entries) :
    OpenEntry P entry := by
  rw [openMetadata_entries] at hentry
  simp only [List.mem_cons, List.not_mem_nil, or_false] at hentry
  rcases hentry with rfl | rfl
  · have htype : typ.name.length ≤ 255 := by
      cases typ <;> decide
    exact ⟨show isSystemKey sysSockType = true by decide, hP _ (by simp),
      show sysSockType.length ≤ 11 by decide, htype⟩
  · exact ⟨show isSystemKey sysSockId = true by decide, hP _ (by simp),
      show sysSockId.length ≤ 11 by decide, List.length_take_le _ _⟩

theorem length_encodeEntries_le (hentries : ∀ entry ∈ entries, OpenEntry P entry) :
    (entries.flatMap (encodeEntry P)).length ≤ 271 * entries.length := by
  induction entries with
  | nil => simp
  | cons entry rest ih =>
    rcases List.forall_mem_cons.mp hentries with ⟨hentry, hentries⟩
    have hsize := hentry.entrySize_le
    have hrest := ih hentries
    rw [List.flatMap_cons, List.length_append, encodeEntry_length hentry.titled,
      List.length_cons]
    omega

theorem opened_round_trip (hP : ∀ key ∈ [sysSockType, sysSockId], P.toTitle key = key) {conn : Conn}
    {typ : SocketType} (hconn : Opened conn typ id) :
    ∃ own md, conn.metadata.marshalZmtp P = .ok own ∧ own.length ≤ 1000 ∧
      (unmarshalZmtp P own).run Metadata.empty = .ok () md ∧
      md.entries.Perm (openMetadata typ id).entries := by
  rcases hconn.marshalZmtp P with ⟨own, hown⟩
  have hentries : ∀ entry ∈ conn.metadata.entries, OpenEntry P entry :=
    fun entry hentry => openEntry_of_mem hP (hconn.entries.mem_iff.mp hentry)
  have hsame : peerEntries P conn.metadata.entries = conn.metadata.entries := by
    rw [peerEntries]
    refine (List.map_congr_left ?_).trans (List.map_id _)
    exact fun entry hentry => (hentries entry hentry).peerEntry
  rcases unmarshal_marshal (fun entry hentry => (hentries entry hentry).titled)
    (fun entry hentry => (hentries entry hentry).countable)
    (by rw [hsame]; exact conn.metadata.nodup) hown with ⟨hbytes, md, hrun, hmd⟩
  refine ⟨own, md, hown, ?_, hrun, ?_⟩
  · have htwo : conn.metadata.entries.length = 2 := by
      rw [hconn.entries.length_eq, openMetadata_entries]
      rfl
    have hle := length_encodeEntries_le hentries
    rw [hbytes]
    omega
  · rw [hmd, hsame]
    exact hconn.entries

end Metadata

variable {peerId : Bytes} {second : List Bytes}

section Sides

variable {M : Mechanism σ} {server : Bool} {typ peer : SocketType} {w w₁ w₂ : Endpoint σ}

theorem concluded_feed {result : EStateM.Result Stop (Endpoint σ) Unit} {own : SocketType}
    {more : Bytes} (h : Concluded (mapState ((endpointFeed σ).feed more) result) own peer peerId) :
    Concluded result own peer peerId := by
  cases result with
  | ok a w => exact h
  | error stop w =>
    cases stop with
    | fail | blocked | panicked => exact h

theorem isCompatible_comm (first second : SocketType) :
    first.isCompatible second = second.isCompatible first := by
  cases first <;> cases second <;> decide

theorem openSide_streaming (hhandshake : Streams (endpointFeed σ) (M.handshake server))
    (hopen : w.conn.rw.closedByPeer = false) :
    (openSide M server typ w).Streaming (endpointFeed σ) where
  program := openConn_streams hhandshake typ
  start arrived more := by
    simp [openSide, endpointFeed, duplexFeed, Endpoint.withInput, hopen]
  written _ := rfl

theorem openConn_concluded (hgreet : (greet M.security).run w = .ok () w₁)
    (hhandshake : (M.handshake server).run w₁ = .ok () w₂)
    (hpeer : w₂.conn.peerMeta.entries.Perm (openMetadata peer peerId).entries) :
    Concluded ((openConn M server typ).run w) typ peer peerId ∧
      finalState ((openConn M server typ).run w) = w₂ := by
  rw [openMetadata_entries] at hpeer
  have hname : w₂.conn.peerMeta.get sysSockType = peer.name :=
    get_of_mem (hpeer.mem_iff.mpr (by simp))
  have hinit : (init M server typ).run w = (checkPeerType typ).run w₂ := by
    rw [init, bind_ok (wrapping_ok hgreet), bind_ok (wrapping_ok hhandshake)]
  rw [checkPeerType, bind_ok (EStateM.run_get w₂), hname] at hinit
  simp only [SocketType.ofName_name] at hinit
  cases hcompatible : peer.isCompatible typ with
  | true =>
    rw [openConn, wrapping_ok (hinit.trans (require_ok w₂ hcompatible))]
    exact ⟨⟨by rw [isCompatible_comm, hcompatible], hpeer⟩, rfl⟩
  | false =>
    simp only [require, hcompatible, Bool.false_eq_true, if_false] at hinit
    rw [openConn, wrapping, rescue_fail hinit]
    exact ⟨(isCompatible_comm typ peer).trans hcompatible, rfl⟩

theorem flatten_le {first : List Bytes} (hle : first <+: second) :
    first.flatten <+: second.flatten := by
  obtain ⟨more, rfl⟩ := hle
  rw [List.flatten_append]
  exact List.prefix_append _ _

def greeted (S : Security σ) (w : Endpoint σ) (rest : Bytes) : Endpoint σ :=
  (w.wrote [greetingWire S]).withInput rest

theorem greet_greeted (hw : w.Healthy) (S : Security σ) (rest : Bytes) :
    (greet S).run (w.withInput (greetingWire S ++ rest)) = .ok () (greeted S w rest) :=
  greet_run (w := w.withInput (greetingWire S ++ rest)) ⟨hw.notClosed, hw.writable⟩ rfl

theorem sent_eq (arrived : Bytes) :
    (openSide M server typ w).sent arrived =
      (finalState ((init M server typ).run (w.withInput arrived))).conn.rw.output.flatten := by
  change (finalState ((openConn M server typ).run (w.withInput arrived))).conn.rw.output.flatten = _
  rw [openConn, finalState_wrapping]

theorem sent_greeting (hhandshake : Streams (endpointFeed σ) (M.handshake server))
    (hw : w.Healthy) (hfresh : w.conn.rw.output = []) (arrived : Bytes) :
    greetingWire M.security <+: (openSide M server typ w).sent arrived := by
  have hw' : (w.withInput arrived).Healthy := ⟨hw.notClosed, hw.writable⟩
  have hrest : Streams (endpointFeed σ) (do
      wrapping "zmq4: could not perform security handshake" (M.handshake server)
      checkPeerType typ) :=
    Streams.bind (Streams.wrapping hhandshake) fun _ => checkPeerType_streams typ
  have hafter := Streams.bind_grows (x := wrapping "zmq4: could not exchange greetings"
    (greet M.security)) (fun _ : Unit => hrest) (w.withInput arrived)
  rw [finalState_wrapping, greet_eq hw'] at hafter
  have hgreet := (recvGreeting_streams (securityName M.security.securityType)).grows
    ((w.withInput arrived).wrote [greetingWire M.security])
  have hwritten : (endpointFeed σ).written ((w.withInput arrived).wrote [greetingWire M.security]) =
      [greetingWire M.security] := by
    change w.conn.rw.output ++ _ = _
    rw [hfresh, List.nil_append]
  rw [hwritten] at hgreet
  have hflat := flatten_le (hgreet.trans hafter)
  rw [List.flatten_singleton] at hflat
  rw [sent_eq]
  exact hflat

variable (M server typ) in
theorem sent_handshake (hw : w.Healthy) (rest : Bytes) :
    (finalState ((M.handshake server).run (greeted M.security w rest))).conn.rw.output.flatten <+:
      (openSide M server typ w).sent (greetingWire M.security ++ rest) := by
  have hinit : (init M server typ).run (w.withInput (greetingWire M.security ++ rest)) =
      (wrapping "zmq4: could not perform security handshake" (M.handshake server) >>=
        fun _ => checkPeerType typ).run (greeted M.security w rest) := by
    rw [init, bind_ok (wrapping_ok (greet_greeted hw M.security rest))]
  have hgrows := Streams.bind_grows
    (x := wrapping "zmq4: could not perform security handshake" (M.handshake server))
    (fun _ : Unit => checkPeerType_streams typ) (greeted M.security w rest)
  rw [finalState_wrapping, ← hinit] at hgrows
  rw [sent_eq]
  exact flatten_le hgrows

theorem sent_part {x : ConnM σ α} {f : α → ConnM σ Unit} {a : α} {arrived rest wire : Bytes}
    (hw : w.Healthy) (hf : ∀ a, Streams (endpointFeed σ) (f a))
    (harrived : arrived = greetingWire M.security ++ rest)
    (hpart : (M.handshake server).run (greeted M.security w rest) = (x >>= f).run w₁)
    (hx : x.run w₁ = .ok a w₂) (hwire : w₂.conn.rw.output.flatten = wire) :
    wire <+: (openSide M server typ w).sent arrived := by
  have hsent := sent_handshake M server typ hw rest
  rw [hpart, bind_ok hx] at hsent
  rw [harrived, ← hwire]
  exact (flatten_le ((hf a).grows w₂)).trans hsent

end Sides

theorem side_concludes {M : Mechanism σ} {server : Bool} (typ : SocketType) {peer : SocketType}
    {w w₂ : Endpoint σ} {rest : Bytes} (hw : w.Healthy)
    (hhandshake : (M.handshake server).run (greeted M.security w rest) = .ok () w₂)
    (hpeer : w₂.conn.peerMeta.entries.Perm (openMetadata peer peerId).entries) :
    Concluded ((openSide M server typ w).result (greetingWire M.security ++ rest)) typ peer peerId ∧
      (openSide M server typ w).sent (greetingWire M.security ++ rest) =
        w₂.conn.rw.output.flatten := by
  obtain ⟨hconcluded, hfinal⟩ :=
    openConn_concluded (greet_greeted hw M.security rest) hhandshake hpeer
  exact ⟨hconcluded, congrArg (fun v : Endpoint σ => v.conn.rw.output.flatten) hfinal⟩

theorem agreement_of_delivered {first : Side (Endpoint σ) Unit} {second : Side (Endpoint τ) Unit}
    {firstType secondType : SocketType} {firstId secondId toFirst toSecond : Bytes}
    (hfirst : first.Streaming (endpointFeed σ)) (hsecond : second.Streaming (endpointFeed τ))
    (hreachable : Reachable first second toFirst toSecond)
    (hdelivered : Delivered first second toFirst toSecond)
    (hfirstEnd : Concluded (first.result toFirst) firstType secondType secondId)
    (hsecondEnd : Concluded (second.result toSecond) secondType firstType firstId) :
    Agreement first second firstType secondType firstId secondId where
  safe atFirst atSecond hstate := by
    obtain ⟨⟨more, hmore⟩, ⟨more', hmore'⟩⟩ :=
      hstate.le_delivered hfirst.grows hsecond.grows hdelivered
    constructor
    · by_cases hwaiting : Waiting (first.result atFirst)
      · exact Or.inl hwaiting
      · have hend := hfirst.result_append hwaiting more
        rw [hmore] at hend
        rw [hend] at hfirstEnd
        exact Or.inr (concluded_feed hfirstEnd)
    · by_cases hwaiting : Waiting (second.result atSecond)
      · exact Or.inl hwaiting
      · have hend := hsecond.result_append hwaiting more'
        rw [hmore'] at hend
        rw [hend] at hsecondEnd
        exact Or.inr (concluded_feed hsecondEnd)
  live atFirst atSecond hstate hall := by
    obtain ⟨rfl, rfl⟩ := hstate.delivered_unique hfirst.grows hsecond.grows hall hreachable hdelivered
    exact ⟨hfirstEnd, hsecondEnd⟩
  delivers atFirst atSecond hstate := by
    obtain ⟨hle, hle'⟩ := hstate.le_delivered hfirst.grows hsecond.grows hdelivered
    exact ⟨toFirst, toSecond, hreachable, hdelivered, hle, hle'⟩

structure Fresh (w : Endpoint σ) : Prop where
  healthy : w.Healthy
  output : w.conn.rw.output = []
  peerMeta : w.conn.peerMeta = Metadata.empty
  notEnded : w.conn.rw.closedByPeer = false

theorem fresh_of_opened {w : Endpoint σ} {typ : SocketType} (hw : Opened w.conn typ id) :
    Fresh w := by
  have hconn := hw.fresh
  refine ⟨⟨?_, ?_⟩, ?_, ?_, ?_⟩
  all_goals
    rw [hconn]
    rfl

theorem Fresh.stores {P : Platform} {w : Endpoint σ} {own : Bytes} {md : Metadata} (hw : Fresh w)
    (hstored : (unmarshalZmtp P own).run Metadata.empty = .ok () md) :
    (unmarshalZmtp P own).run w.conn.peerMeta = .ok () md := by
  rw [hw.peerMeta, hstored]

theorem greetings_exchanged {M N : Mechanism σ} {server server' : Bool} {typ peer : SocketType}
    {w v : Endpoint σ} (hM : Streams (endpointFeed σ) (M.handshake server))
    (hN : Streams (endpointFeed σ) (N.handshake server')) (hw : Fresh w) (hv : Fresh v) :
    Reachable (openSide M server typ w) (openSide N server' peer v) (greetingWire N.security)
      (greetingWire M.security) :=
  .arriveFirst (.arriveSecond .start List.nil_prefix (sent_greeting hM hw.healthy hw.output _))
    List.nil_prefix (sent_greeting hN hv.healthy hv.output _)

theorem sendable_own {name own : Bytes} (hname : name.length ≤ 255) (hown : own.length ≤ 1000) :
    Sendable name own := by
  refine ⟨hname, ?_⟩
  simp only [maxInt64]
  omega

section Null

variable {P : Platform} {origin : String} {server : Bool} {typ peer : SocketType}
  {w : Endpoint Unit} {own peerOwn peerId : Bytes} {peerMeta : Metadata}

def readyWire (own : Bytes) : Bytes :=
  commandWire { name := cmdReady, body := own }

variable {S : Security σ}

theorem greeted_healthy {w : Endpoint σ} (hw : w.Healthy) (rest : Bytes) :
    (greeted S w rest).Healthy :=
  ⟨hw.notClosed, hw.writable⟩

theorem greeted_wrote {w : Endpoint σ} (hfresh : w.conn.rw.output = []) (rest : Bytes)
    {buffers : List Bytes} {wire : Bytes} (hwire : buffers.flatten = wire) :
    ((greeted S w rest).conn.rw.output ++ buffers).flatten = greetingWire S ++ wire := by
  change (w.conn.rw.output ++ [greetingWire S] ++ buffers).flatten = _
  rw [hfresh, List.nil_append, List.flatten_append, List.flatten_singleton, hwire]

theorem greeted_wrote_twice {w : Endpoint σ} (hfresh : w.conn.rw.output = []) (rest : Bytes)
    {first : List Bytes} {wire wire' : Bytes} (hfirst : first.flatten = wire)
    (hsecond : second.flatten = wire') :
    ((greeted S w rest).conn.rw.output ++ first ++ second).flatten =
      greetingWire S ++ (wire ++ wire') := by
  rw [List.append_assoc]
  apply greeted_wrote hfresh
  rw [List.flatten_append, hfirst, hsecond]

theorem null_sends_ready (hw : Fresh w) (hown : w.conn.metadata.marshalZmtp P = .ok own) :
    greetingWire nullSecurity ++ readyWire own <+:
      (openSide (nullMechanism P origin) server typ w).sent (greetingWire nullSecurity) := by
  obtain ⟨buffers, hsend, hflatten⟩ :=
    nullSendReady_run origin (greeted_healthy (S := nullSecurity) hw.healthy []) hown
  exact sent_part hw.healthy (fun _ => nullRecvReady_streams P origin) (List.append_nil _).symm rfl
    hsend (greeted_wrote hw.output _ hflatten)

theorem null_concludes (hw : Fresh w) (hown : w.conn.metadata.marshalZmtp P = .ok own)
    (hpeerOwn : peerOwn.length ≤ 1000)
    (hstored : (unmarshalZmtp P peerOwn).run Metadata.empty = .ok () peerMeta)
    (hpeer : peerMeta.entries.Perm (openMetadata peer peerId).entries) :
    Concluded ((openSide (nullMechanism P origin) server typ w).result
        (greetingWire nullSecurity ++ readyWire peerOwn)) typ peer peerId ∧
      (openSide (nullMechanism P origin) server typ w).sent
        (greetingWire nullSecurity ++ readyWire peerOwn) =
          greetingWire nullSecurity ++ readyWire own := by
  let w₁ := greeted nullSecurity w (readyWire peerOwn)
  have hw₁ : w₁.Healthy := greeted_healthy hw.healthy _
  obtain ⟨buffers, hsend, hflatten⟩ := nullSendReady_run origin hw₁ hown
  have hrecv : (nullRecvReady P origin).run (w₁.wrote buffers) =
      .ok () (withPeer ((w₁.wrote buffers).withInput []) peerMeta) :=
    nullRecvReady_run [] origin (hw₁.wrote buffers) (sendable_own (by decide) hpeerOwn)
      (hw.stores hstored) (List.append_nil _).symm
  have hhandshake : ((nullMechanism P origin).handshake server).run w₁ =
      .ok () (withPeer ((w₁.wrote buffers).withInput []) peerMeta) := by
    change (nullHandshake P origin).run w₁ = _
    rw [nullHandshake, bind_ok hsend, hrecv]
  obtain ⟨hconcluded, hsent⟩ := side_concludes typ hw.healthy hhandshake hpeer
  refine ⟨hconcluded, hsent.trans ?_⟩
  exact greeted_wrote hw.output _ hflatten

theorem null_agreement (hP : ∀ key ∈ [sysSockType, sysSockId], P.toTitle key = key)
    {origin' : String} {server' : Bool} {v : Endpoint Unit} (hw : Opened w.conn typ id)
    (hv : Opened v.conn peer peerId) :
    Agreement (openSide (nullMechanism P origin) server typ w)
      (openSide (nullMechanism P origin') server' peer v) typ peer id peerId := by
  obtain ⟨own, md, hown, hshort, hstored, hmd⟩ := opened_round_trip hP hw
  obtain ⟨own', md', hown', hshort', hstored', hmd'⟩ := opened_round_trip hP hv
  have hw' := fresh_of_opened hw
  have hv' := fresh_of_opened hv
  let first := openSide (nullMechanism P origin) server typ w
  let second := openSide (nullMechanism P origin') server' peer v
  have hfirst : first.Streaming (endpointFeed Unit) :=
    openSide_streaming (nullMechanism_streams P origin server) hw'.notEnded
  have hsecond : second.Streaming (endpointFeed Unit) :=
    openSide_streaming (nullMechanism_streams P origin' server') hv'.notEnded
  obtain ⟨hend, hsent⟩ : _ ∧ first.sent _ = _ := null_concludes hw' hown hshort' hstored' hmd'
  obtain ⟨hend', hsent'⟩ : _ ∧ second.sent _ = _ := null_concludes hv' hown' hshort hstored hmd
  have hreachable : Reachable first second (greetingWire nullSecurity ++ readyWire own')
      (greetingWire nullSecurity ++ readyWire own) := by
    have hgreetings : Reachable first second (greetingWire nullSecurity)
        (greetingWire nullSecurity) :=
      greetings_exchanged (nullMechanism_streams P origin server)
        (nullMechanism_streams P origin' server') hw' hv'
    have hready := hgreetings.arriveSecond (List.prefix_append _ _) (null_sends_ready hw' hown)
    apply hready.arriveFirst (List.prefix_append _ _)
    simp only [hsent', List.prefix_rfl]
  exact agreement_of_delivered hfirst hsecond hreachable ⟨hsent', hsent⟩ hend hend'

end Null

section Plain

variable {P : Platform} {typ peer : SocketType} {own peerOwn peerId : Bytes} {peerMeta : Metadata}
  {w : Endpoint PlainSecurity}

def helloWire (sec : PlainSecurity) : Bytes :=
  commandWire { name := cmdHello, body := helloBody sec }

def welcomeWire : Bytes :=
  commandWire { name := cmdWelcome, body := [] }

def initiateWire (own : Bytes) : Bytes :=
  commandWire { name := cmdInitiate, body := own }

def CredentialsFit (sec : PlainSecurity) : Prop :=
  sec.user.length + sec.pass.length + 8 ≤ maxInt64

variable {sec : PlainSecurity}

theorem sendable_hello (hsec : CredentialsFit sec) : Sendable cmdHello (helloBody sec) := by
  refine ⟨by decide, ?_⟩
  have hname : cmdHello.length = 5 := rfl
  simp only [CredentialsFit] at hsec
  simp only [helloBody, hname, List.length_append, List.length_cons]
  omega

theorem client_sends_hello (hw : Fresh w) :
    greetingWire plainSecurity ++ helloWire w.sec <+:
      (openSide (plainMechanism P) false typ w).sent (greetingWire plainSecurity) := by
  obtain ⟨buffers, hsend, hflatten⟩ :=
    plainClientHello_run (greeted_healthy (S := plainSecurity) hw.healthy [])
  have hrest : Unit → Streams (endpointFeed PlainSecurity) (do
      plainClientInitiate P
      plainClientReady P) :=
    fun _ => .bind (plainClientInitiate_streams P) fun _ => plainClientReady_streams P
  exact sent_part hw.healthy hrest (List.append_nil _).symm rfl hsend
    (greeted_wrote hw.output _ hflatten)

theorem client_sends_initiate (hw : Fresh w) (hown : w.conn.metadata.marshalZmtp P = .ok own) :
    greetingWire plainSecurity ++ (helloWire w.sec ++ initiateWire own) <+:
      (openSide (plainMechanism P) false typ w).sent
        (greetingWire plainSecurity ++ welcomeWire) := by
  let w₁ := greeted plainSecurity w welcomeWire
  have hw₁ : w₁.Healthy := greeted_healthy hw.healthy _
  obtain ⟨hello, hsend, hhello⟩ := plainClientHello_run hw₁
  obtain ⟨initiate, hreply, hinitiate⟩ := plainClientInitiate_run (P := P) []
    (hw₁.wrote hello) hown (List.append_nil _).symm
  have hfirst : (plainClientHandshake P).run w₁ =
      (plainClientInitiate P >>= fun _ => plainClientReady P).run (w₁.wrote hello) := by
    rw [plainClientHandshake, bind_ok hsend]
  exact sent_part hw.healthy (fun _ => plainClientReady_streams P) rfl hfirst hreply
    (greeted_wrote_twice hw.output _ hhello hinitiate)

theorem client_concludes (hw : Fresh w) (hown : w.conn.metadata.marshalZmtp P = .ok own)
    (hpeerOwn : peerOwn.length ≤ 1000)
    (hstored : (unmarshalZmtp P peerOwn).run Metadata.empty = .ok () peerMeta)
    (hpeer : peerMeta.entries.Perm (openMetadata peer peerId).entries) :
    Concluded ((openSide (plainMechanism P) false typ w).result
        (greetingWire plainSecurity ++ (welcomeWire ++ readyWire peerOwn))) typ peer peerId ∧
      (openSide (plainMechanism P) false typ w).sent
        (greetingWire plainSecurity ++ (welcomeWire ++ readyWire peerOwn)) =
          greetingWire plainSecurity ++ (helloWire w.sec ++ initiateWire own) := by
  let w₁ := greeted plainSecurity w (welcomeWire ++ readyWire peerOwn)
  have hw₁ : w₁.Healthy := greeted_healthy hw.healthy _
  obtain ⟨hello, hsend, hhello⟩ := plainClientHello_run hw₁
  obtain ⟨initiate, hreply, hinitiate⟩ := plainClientInitiate_run (P := P) _
    (hw₁.wrote hello) hown rfl
  let w₂ := ((w₁.wrote hello).withInput (readyWire peerOwn)).wrote initiate
  have hready : (plainClientReady P).run w₂ =
      .ok () ((withPeer (w₂.withInput []) peerMeta).withSec { user := [], pass := [] }) :=
    plainClientReady_run [] ⟨hw₁.notClosed, hw₁.writable⟩ (sendable_own (by decide) hpeerOwn)
      (hw.stores hstored) (List.append_nil _).symm
  have hhandshake : ((plainMechanism P).handshake false).run w₁ =
      .ok () ((withPeer (w₂.withInput []) peerMeta).withSec { user := [], pass := [] }) := by
    change (plainClientHandshake P).run w₁ = _
    rw [plainClientHandshake, bind_ok hsend, bind_ok hreply, hready]
  obtain ⟨hconcluded, hsent⟩ := side_concludes typ hw.healthy hhandshake hpeer
  refine ⟨hconcluded, hsent.trans ?_⟩
  exact greeted_wrote_twice hw.output _ hhello hinitiate

theorem server_sends_welcome (hw : Fresh w) (hsec : CredentialsFit sec) :
    greetingWire plainSecurity ++ welcomeWire <+:
      (openSide (plainMechanism P) true typ w).sent
        (greetingWire plainSecurity ++ helloWire sec) := by
  let w₁ := greeted plainSecurity w (helloWire sec)
  have hw₁ : w₁.Healthy := greeted_healthy hw.healthy _
  obtain ⟨buffers, hsend, hflatten⟩ := plainServerWelcome_run [] hw₁
    (sendable_hello hsec) (List.append_nil _).symm
  exact sent_part hw.healthy (fun _ => plainServerReady_streams P) rfl rfl hsend
    (greeted_wrote hw.output _ hflatten)

theorem server_concludes (hw : Fresh w) (hsec : CredentialsFit sec)
    (hown : w.conn.metadata.marshalZmtp P = .ok own) (hpeerOwn : peerOwn.length ≤ 1000)
    (hstored : (unmarshalZmtp P peerOwn).run Metadata.empty = .ok () peerMeta)
    (hpeer : peerMeta.entries.Perm (openMetadata peer peerId).entries) :
    Concluded ((openSide (plainMechanism P) true typ w).result
        (greetingWire plainSecurity ++ (helloWire sec ++ initiateWire peerOwn))) typ peer peerId ∧
      (openSide (plainMechanism P) true typ w).sent
        (greetingWire plainSecurity ++ (helloWire sec ++ initiateWire peerOwn)) =
          greetingWire plainSecurity ++ (welcomeWire ++ readyWire own) := by
  let w₁ := greeted plainSecurity w (helloWire sec ++ initiateWire peerOwn)
  have hw₁ : w₁.Healthy := greeted_healthy hw.healthy _
  obtain ⟨welcome, hsend, hwelcome⟩ := plainServerWelcome_run _ hw₁ (sendable_hello hsec) rfl
  let w₂ := (w₁.withInput (initiateWire peerOwn)).wrote welcome
  obtain ⟨ready, hreply, hready⟩ := plainServerReady_run (w := w₂) []
    ⟨hw₁.notClosed, hw₁.writable⟩ (sendable_own (by decide) hpeerOwn) hown (hw.stores hstored)
    (List.append_nil _).symm
  have hhandshake : ((plainMechanism P).handshake true).run w₁ =
      .ok () ((withPeer (w₂.withInput []) peerMeta).wrote ready) := by
    change (plainServerHandshake P).run w₁ = _
    rw [plainServerHandshake, bind_ok hsend, hreply]
  obtain ⟨hconcluded, hsent⟩ := side_concludes typ hw.healthy hhandshake hpeer
  refine ⟨hconcluded, hsent.trans ?_⟩
  exact greeted_wrote_twice hw.output _ hwelcome hready

theorem plain_agreement (hP : ∀ key ∈ [sysSockType, sysSockId], P.toTitle key = key)
    {v : Endpoint PlainSecurity} (hw : Opened w.conn typ id) (hv : Opened v.conn peer peerId)
    (hsec : CredentialsFit w.sec) :
    Agreement (openSide (plainMechanism P) false typ w) (openSide (plainMechanism P) true peer v)
      typ peer id peerId := by
  obtain ⟨own, md, hown, hshort, hstored, hmd⟩ := opened_round_trip hP hw
  obtain ⟨own', md', hown', hshort', hstored', hmd'⟩ := opened_round_trip hP hv
  have hw' := fresh_of_opened hw
  have hv' := fresh_of_opened hv
  let client := openSide (plainMechanism P) false typ w
  let server := openSide (plainMechanism P) true peer v
  have hclient : client.Streaming (endpointFeed PlainSecurity) :=
    openSide_streaming (plainMechanism_streams P false) hw'.notEnded
  have hserver : server.Streaming (endpointFeed PlainSecurity) :=
    openSide_streaming (plainMechanism_streams P true) hv'.notEnded
  obtain ⟨hend, hsent⟩ : _ ∧ client.sent _ = _ := client_concludes hw' hown hshort' hstored' hmd'
  obtain ⟨hend', hsent'⟩ : _ ∧ server.sent _ = _ :=
    server_concludes hv' hsec hown' hshort hstored hmd
  have hreachable : Reachable client server
      (greetingWire plainSecurity ++ (welcomeWire ++ readyWire own'))
      (greetingWire plainSecurity ++ (helloWire w.sec ++ initiateWire own)) := by
    have hgreetings : Reachable client server (greetingWire plainSecurity) _ :=
      greetings_exchanged (plainMechanism_streams P false) (plainMechanism_streams P true) hw' hv'
    have hhello := hgreetings.arriveSecond (List.prefix_append _ _) (client_sends_hello hw')
    have hwelcome := hhello.arriveFirst (List.prefix_append _ _) (server_sends_welcome hv' hsec)
    have hinitiate := hwelcome.arriveSecond
      (by rw [← List.append_assoc]; exact List.prefix_append _ _) (client_sends_initiate hw' hown)
    apply hinitiate.arriveFirst (by rw [← List.append_assoc]; exact List.prefix_append _ _)
    simp only [hsent', List.prefix_rfl]
  exact agreement_of_delivered hclient hserver hreachable ⟨hsent', hsent⟩ hend hend'

end Plain

/-- Both mechanisms, for all socket types, identities, credentials and orders
of delivery. -/
theorem null_and_plain_agree {P : Platform}
    (hP : ∀ key ∈ [sysSockType, sysSockId], P.toTitle key = key) {typ peer : SocketType}
    {id peerId : Bytes} :
    typ.isCompatible peer = peer.isCompatible typ ∧
    (∀ (origin origin' : String) (server server' : Bool) (w v : Endpoint Unit),
      Opened w.conn typ id → Opened v.conn peer peerId →
      Agreement (openSide (nullMechanism P origin) server typ w)
        (openSide (nullMechanism P origin') server' peer v) typ peer id peerId) ∧
    ∀ w v : Endpoint PlainSecurity, CredentialsFit w.sec →
      Opened w.conn typ id → Opened v.conn peer peerId →
      Agreement (openSide (plainMechanism P) false typ w) (openSide (plainMechanism P) true peer v)
        typ peer id peerId := by
  refine ⟨isCompatible_comm typ peer, ?_, ?_⟩
  · intro origin origin' server server' w v hw hv
    exact null_agreement hP hw hv
  · intro w v hsec hw hv
    exact plain_agreement hP hw hv hsec

theorem req_and_router_agree :
    Agreement
        (openSide (nullMechanism plainPlatform "zmq4") false .req
          { sec := (), conn := .fresh (openMetadata .req [7]) })
        (openSide (nullMechanism plainPlatform "security/null") true .router
          { sec := (), conn := .fresh (openMetadata .router []) }) .req .router [7] [] ∧
      Agreement
        (openSide (plainMechanism plainPlatform) false .req
          { sec := { user := [1], pass := [2, 3] }, conn := .fresh (openMetadata .req [7]) })
        (openSide (plainMechanism plainPlatform) true .router
          { sec := { user := [], pass := [] }, conn := .fresh (openMetadata .router []) })
        .req .router [7] [] := by
  obtain ⟨-, hnull, hplain⟩ := null_and_plain_agree (P := plainPlatform) (fun _ _ => rfl)
  exact ⟨hnull _ _ _ _ _ _ (opened_openMetadata _ _) (opened_openMetadata _ _),
    hplain _ _ (show 1 + 2 + 8 ≤ maxInt64 by decide) (opened_openMetadata _ _)
      (opened_openMetadata _ _)⟩

end Zmq4.HandshakeAgreement
