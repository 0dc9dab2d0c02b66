import Zmq4.BytePipe
import Zmq4.OpenHandshake

namespace Zmq4.GreetingExchange

open ByteCodec DuplexProgram ProgramStreams BytePipe ZmtpMetadata Connection ConnectionStreams
  OpenHandshake

variable {σ τ : Type}

/-- The second half of `greet`.  The result is the value of `Peer.Server`. -/
def recvPeerServer (kind : Bytes) : ConnM σ Bool := do
  let recv ← wrapping "zmq4: could not recv greeting" (checked (onRw Greeting.read))
  require (asString recv.mechanism.bytes = kind) errBadSec
  wrapping "zmq4: could not get peer server flag" (fromExcept (asBool recv.server))

def greetServer (kind : Bytes) (_server : Bool) : ConnM σ Bool :=
  if kind.length > 20 then failWith errSecMech
  else do
    wrapping "zmq4: could not send greeting" (checked (onRw (write (Greeting.ours kind).marshal)))
    recvPeerServer kind

theorem greet_eq_greetServer (S : Security σ) (server : Bool) :
    greet S = greetServer (securityName S.securityType) server >>= fun _ => pure () := by
  unfold greet greetServer
  dsimp only
  split
  · funext w
    rfl
  · simp only [recvGreeting, recvPeerServer, bind_assoc]

structure MechanismName where
  bytes : Bytes
  length_le : bytes.length ≤ 20
  no_nul : ∀ byte ∈ bytes, byte ≠ 0

def greetSide (kind : MechanismName) (server : Bool) (w : Endpoint σ) : Side (Endpoint σ) Bool where
  program := greetServer kind.bytes server
  start arrived :=
    { w with
      conn := { w.conn with
        rw := { input := arrived, closedByPeer := false, output := [], writeErr := none } } }
  written w := w.conn.rw.output.flatten

def Records (result : EStateM.Result Stop (Endpoint σ) Bool) (server : Bool) : Prop :=
  ∃ w, result = .ok server w

/-- Both sides return nil just when the names are equal, and then each has stored the
flag of the other. -/
def RecordsPeers (kind kind' : MechanismName) (server server' : Bool)
    (result : EStateM.Result Stop (Endpoint σ) Bool)
    (result' : EStateM.Result Stop (Endpoint τ) Bool) : Prop :=
  (((∃ flag, Records result flag) ∧ ∃ flag, Records result' flag) ↔ kind.bytes = kind'.bytes) ∧
    (kind.bytes = kind'.bytes → Records result server' ∧ Records result' server)

def MechanismName.wire (kind : MechanismName) : Bytes :=
  (Greeting.ours kind.bytes).marshal

section Run

variable {kind kind' : MechanismName} {server : Bool} {w : Endpoint σ}

theorem MechanismName.asString_ours (kind : MechanismName) :
    asString (Greeting.ours kind.bytes).mechanism.bytes = kind.bytes := by
  have hfield : (Greeting.ours kind.bytes).mechanism.bytes =
      kind.bytes ++ zeros (20 - kind.bytes.length) := by
    change (kind.bytes ++ zeros 20).take 20 = _
    rw [List.take_append, List.take_of_length_le kind.length_le, zeros, List.take_replicate,
      Nat.min_eq_left (Nat.sub_le 20 _)]
    rfl
  have hname : ∀ byte ∈ kind.bytes, decide (byte ≠ 0) = true :=
    fun byte hbyte => decide_eq_true (kind.no_nul byte hbyte)
  rw [hfield, asString, List.takeWhile_append_of_pos hname]
  simp [zeros]

theorem recvPeerServer_streams (kind : Bytes) : Streams (endpointFeed σ) (recvPeerServer kind) := by
  apply Streams.bind (Streams.wrapping (checked_streams (onRw_streams greetingRead_streams)))
  intro recv
  apply Streams.bind (Streams.require _)
  intro _
  exact Streams.wrapping (Streams.fromExcept _)

theorem greetServer_streams (kind : Bytes) (server : Bool) :
    Streams (endpointFeed σ) (greetServer kind server) := by
  unfold greetServer
  split
  · exact .failWith _
  · apply Streams.bind (Streams.wrapping (checkedWrite_streams _))
    intro _
    exact recvPeerServer_streams kind

theorem greetSide_streaming : (greetSide kind server w).Streaming (endpointFeed σ) where
  program := greetServer_streams kind.bytes server
  start arrived more := by simp [greetSide, endpointFeed, duplexFeed]
  written _ := rfl

theorem result_eq (arrived : Bytes) :
    (greetSide kind server w).result arrived =
      (recvPeerServer kind.bytes).run
        (((greetSide kind server w).start arrived).wrote [kind.wire]) := by
  have hwrite : (checked (onRw (write kind.wire))).run ((greetSide kind server w).start arrived) =
      .ok () (((greetSide kind server w).start arrived).wrote [kind.wire]) :=
    checked_ok (zoom_ok (write_ok rfl))
  change (greetServer kind.bytes server).run ((greetSide kind server w).start arrived) = _
  rw [greetServer, if_neg (Nat.not_lt.mpr kind.length_le)]
  exact bind_ok (wrapping_ok hwrite)

theorem result_greeting :
    (greetSide kind server w).result kind'.wire =
      if kind.bytes = kind'.bytes then
        .ok false (((greetSide kind server w).start []).wrote [kind.wire])
      else .error (.fail errBadSec) (((greetSide kind server w).start []).wrote [kind.wire]) := by
  have hread : (checked (onRw Greeting.read)).run
      (((greetSide kind server w).start kind'.wire).wrote [kind.wire]) =
        .ok (.ours kind'.bytes) (((greetSide kind server w).start []).wrote [kind.wire]) :=
    checked_ok (zoom_ok (Greeting.read_run (List.append_nil _).symm))
  rw [result_eq, recvPeerServer, bind_ok (wrapping_ok hread), kind'.asString_ours]
  split
  next hnames =>
    rw [bind_ok (require_ok _ hnames.symm)]
    exact wrapping_ok (fromExcept_ok _ rfl)
  next hnames =>
    apply bind_error
    rw [require, if_neg (Ne.symm hnames)]
    rfl

theorem sent_wire : (greetSide kind server w).sent kind'.wire = kind.wire := by
  rw [Side.sent, result_greeting]
  split <;> exact List.append_nil _

theorem records_greeting_iff {flag : Bool} :
    Records ((greetSide kind server w).result kind'.wire) flag ↔
      kind.bytes = kind'.bytes ∧ flag = false := by
  rw [result_greeting]
  split
  next hnames =>
    constructor
    · rintro ⟨_, hok⟩
      cases hok
      exact ⟨hnames, rfl⟩
    · rintro ⟨-, rfl⟩
      exact ⟨_, rfl⟩
  next hnames =>
    apply iff_of_false
    · rintro ⟨_, hok⟩
      cases hok
    · exact fun hsame => hnames hsame.1

theorem not_waiting_greeting : ¬ Waiting ((greetSide kind server w).result kind'.wire) := by
  rw [result_greeting]
  rintro ⟨_, hblocked⟩
  split at hblocked <;> cases hblocked

theorem records_mapState_iff {f : Endpoint σ → Endpoint σ}
    {result : EStateM.Result Stop (Endpoint σ) Bool} {flag : Bool} :
    Records (mapState f result) flag ↔ Records result flag := by
  cases result with
  | ok server w =>
    constructor
    · rintro ⟨_, hok⟩
      cases hok
      exact ⟨w, rfl⟩
    · rintro ⟨_, hok⟩
      cases hok
      exact ⟨f w, rfl⟩
  | error stop w =>
    apply iff_of_false
    · rintro ⟨_, hok⟩
      cases hok
    · rintro ⟨_, hok⟩
      cases hok

theorem records_iff {arrived : Bytes} {flag : Bool} (harrived : arrived <+: kind'.wire)
    (hreturned : ¬ Waiting ((greetSide kind server w).result arrived)) :
    Records ((greetSide kind server w).result arrived) flag ↔
      kind.bytes = kind'.bytes ∧ flag = false := by
  obtain ⟨more, hmore⟩ := harrived
  have hresult := greetSide_streaming.result_append hreturned more
  rw [hmore] at hresult
  have hall : Records ((greetSide kind server w).result kind'.wire) flag ↔ _ := records_greeting_iff
  rw [hresult, records_mapState_iff] at hall
  exact hall

end Run

section Exchange

variable (kind kind' : MechanismName) (server server' : Bool) (w : Endpoint σ) (v : Endpoint τ)

theorem delivered_greetings :
    Delivered (greetSide kind server w) (greetSide kind' server' v) kind'.wire kind.wire :=
  ⟨sent_wire, sent_wire⟩

theorem wire_le_sent (arrived : Bytes) : kind.wire <+: (greetSide kind server w).sent arrived := by
  have hgrows := (recvPeerServer_streams kind.bytes).grows
    (((greetSide kind server w).start arrived).wrote [kind.wire])
  obtain ⟨more, hmore⟩ := hgrows
  rw [Side.sent, result_eq]
  refine ⟨more.flatten, ?_⟩
  have hflatten := congrArg List.flatten hmore
  rw [List.flatten_append] at hflatten
  refine Eq.trans ?_ hflatten
  exact congrArg (· ++ more.flatten) (List.append_nil kind.wire).symm

variable {kind kind' server server' w v}

theorem reachable_wires {atFirst atSecond : Bytes}
    (hstate : Reachable (greetSide kind server w) (greetSide kind' server' v) atFirst atSecond)
    (hfirst : atFirst <+: kind'.wire) (hsecond : atSecond <+: kind.wire) :
    Reachable (greetSide kind server w) (greetSide kind' server' v) kind'.wire kind.wire := by
  have harrived := hstate.arriveFirst hfirst (wire_le_sent kind' server' v atSecond)
  exact harrived.arriveSecond hsecond (wire_le_sent kind server w kind'.wire)

/-- For all names, flags, connections and orders of delivery: greetings that have been
exchanged are recorded right if and only if no side of a pair with equal names is a
server.  And they can always be exchanged. -/
theorem greetings_recorded_iff :
    (∀ atFirst atSecond,
      Reachable (greetSide kind server w) (greetSide kind' server' v) atFirst atSecond →
      ¬ Waiting ((greetSide kind server w).result atFirst) →
      ¬ Waiting ((greetSide kind' server' v).result atSecond) →
      (RecordsPeers kind kind' server server' ((greetSide kind server w).result atFirst)
          ((greetSide kind' server' v).result atSecond) ↔
        (kind.bytes = kind'.bytes → server = false ∧ server' = false))) ∧
    ∀ atFirst atSecond,
      Reachable (greetSide kind server w) (greetSide kind' server' v) atFirst atSecond →
      ∃ toFirst toSecond, atFirst <+: toFirst ∧ atSecond <+: toSecond ∧
        Reachable (greetSide kind server w) (greetSide kind' server' v) toFirst toSecond ∧
        ¬ Waiting ((greetSide kind server w).result toFirst) ∧
        ¬ Waiting ((greetSide kind' server' v).result toSecond) := by
  have hdelivered := delivered_greetings kind kind' server server' w v
  have hbounds : ∀ atFirst atSecond,
      Reachable (greetSide kind server w) (greetSide kind' server' v) atFirst atSecond →
      atFirst <+: kind'.wire ∧ atSecond <+: kind.wire := by
    intro atFirst atSecond hstate
    exact hstate.le_delivered greetSide_streaming.grows greetSide_streaming.grows hdelivered
  constructor
  · intro atFirst atSecond hstate hreturned hreturned'
    obtain ⟨hfirst, hsecond⟩ := hbounds atFirst atSecond hstate
    rw [RecordsPeers]
    simp only [records_iff hfirst hreturned, records_iff hsecond hreturned']
    constructor
    · rintro ⟨-, hflags⟩ hnames
      obtain ⟨⟨-, hserver'⟩, ⟨-, hserver⟩⟩ := hflags hnames
      exact ⟨hserver, hserver'⟩
    · intro hclients
      refine ⟨?_, ?_⟩
      · constructor
        · rintro ⟨⟨_, hnames, -⟩, -⟩
          exact hnames
        · intro hnames
          exact ⟨⟨false, hnames, rfl⟩, ⟨false, hnames.symm, rfl⟩⟩
      · intro hnames
        obtain ⟨hserver, hserver'⟩ := hclients hnames
        exact ⟨⟨hnames, hserver'⟩, ⟨hnames.symm, hserver⟩⟩
  · intro atFirst atSecond hstate
    obtain ⟨hfirst, hsecond⟩ := hbounds atFirst atSecond hstate
    refine ⟨kind'.wire, kind.wire, hfirst, hsecond, ?_⟩
    exact ⟨reachable_wires hstate hfirst hsecond, not_waiting_greeting, not_waiting_greeting⟩

end Exchange

def nullName : MechanismName where
  bytes := ascii "NULL"
  length_le := by decide
  no_nul := by decide +kernel

def plainEnd : Endpoint Unit where
  sec := ()
  conn := Conn.fresh Metadata.empty

/-- A client and a server under NULL: the client takes the server for a client. -/
theorem server_recorded_as_client :
    ∃ toFirst toSecond : Bytes,
      Reachable (greetSide nullName false plainEnd) (greetSide nullName true plainEnd)
          toFirst toSecond ∧
        Records ((greetSide nullName false plainEnd).result toFirst) false ∧
        ¬ RecordsPeers nullName nullName false true
          ((greetSide nullName false plainEnd).result toFirst)
          ((greetSide nullName true plainEnd).result toSecond) := by
  refine ⟨nullName.wire, nullName.wire, reachable_wires .start List.nil_prefix List.nil_prefix,
    records_greeting_iff.mpr ⟨rfl, rfl⟩, ?_⟩
  rintro ⟨-, hflags⟩
  obtain ⟨-, hserver⟩ := records_greeting_iff.mp (hflags rfl).1
  cases hserver

end Zmq4.GreetingExchange
