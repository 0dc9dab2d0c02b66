import Zmq4.SocketReaders
import Zmq4.ZyreMessages

namespace Zmq4.ZyreNode

open ByteCodec DuplexProgram ZmtpMessage ZmtpMetadata Connection FrameStream FramingRoundTrip
  ConnectionStreams SocketReaders
open ZyreMessages (Message ping protocolSignature1 header_length message_unmarshal_marshal
  unmarshal_eq_ok)

def msgBytes (msg : Msg) : Bytes :=
  msg.frames.flatten

inductive Handler where
  | handleHello
  | handleWhisper
  | handleShout
  | handleJoin
  | handleLeave
  | handlePing
  | handlePingOK
  deriving DecidableEq

def handlerOf (type : UInt8) : Option Handler :=
  match type with
  | 1 => some .handleHello
  | 2 => some .handleWhisper
  | 3 => some .handleShout
  | 4 => some .handleJoin
  | 5 => some .handleLeave
  | 6 => some .handlePing
  | 7 => some .handlePingOK
  | _ => none

structure Dispatch where
  message : Message
  handler : Option Handler
  deriving DecidableEq

def handleIncomingMessage (m : Message) : Dispatch where
  message := m
  handler := handlerOf m.type

/-- One round of `incomingLoop`.  What cannot be decoded is dropped. -/
def incoming (msg : Msg) : Option Dispatch :=
  match Message.unmarshal (msgBytes msg) with
  | .error _ => none
  | .ok m => some (handleIncomingMessage m)

section Loops

variable {σ : Type} (S : Security σ)

def sendMessage (m : Message) : ConnM σ Unit :=
  match m.marshal with
  | .error err => failWith (.wrap "failed to marshal message" err)
  | .ok data => sendMsg S { newMsgFrom [data] with multipart := true }

def sendMessages : List Message → ConnM σ Unit
  | [] => pure ()
  | m :: rest => do
      sendMessage S m
      sendMessages rest

def incomingLoop (rounds : Nat) (w : Endpoint σ) : List Dispatch :=
  let router := ReaderKind.routerQReader.reader w.conn.peerMeta
  (router.received (listen S router rounds Listening.start w).1).filterMap incoming

end Loops

section Decoding

def routed (id : Bytes) (m : Message) : Msg :=
  newMsgFrom [id, m.header ++ m.body]

theorem msgBytes_routed (id : Bytes) (m : Message) :
    msgBytes (routed id m) = id ++ (m.header ++ m.body) := by
  simp [msgBytes, routed, newMsgFrom]

/-- A message with something in front of it is not decoded as itself: whatever
comes out has a longer body. -/
theorem incoming_routed_iff (id : Bytes) (m : Message) :
    incoming (routed id m) = some (handleIncomingMessage m) ↔ id = [] := by
  rw [incoming, msgBytes_routed]
  constructor
  · intro hsome
    rcases hdecoded : Message.unmarshal (id ++ (m.header ++ m.body)) with stop | decoded
    · rw [hdecoded] at hsome
      cases hsome
    · rw [hdecoded] at hsome
      have hmessage : decoded = m := congrArg Dispatch.message (Option.some.inj hsome)
      subst hmessage
      obtain ⟨-, hlength⟩ := unmarshal_eq_ok hdecoded
      rw [List.length_append, List.length_append, header_length] at hlength
      exact List.eq_nil_of_length_eq_zero (by omega)
  · rintro rfl
    rw [List.nil_append, message_unmarshal_marshal]

end Decoding

section Transport

variable {σ : Type} {S : Security σ}

def carrier (m : Message) : Msg :=
  { newMsgFrom [m.header ++ m.body] with multipart := true }

theorem sendMessages_eq (ms : List Message) :
    sendMessages S ms = sendAll S (ms.map carrier) := by
  induction ms with
  | nil => rfl
  | cons m rest ih =>
    rw [sendMessages, List.map_cons, sendAll, ih]
    rfl

theorem streamMessages_sent (hS : Transparent S) {ms : List Message}
    (hsize : ∀ m ∈ ms, (m.header ++ m.body).length < 2 ^ 63) {w : Endpoint σ}
    (hinput : w.conn.rw.input = ms.flatMap fun m => encodeFrames [m.header ++ m.body])
    {rounds : Nat} (hrounds : ms.length ≤ rounds) :
    streamMessages S rounds w = ms.map fun m => newMsgFrom [m.header ++ m.body] := by
  induction ms generalizing w rounds with
  | nil =>
    rcases rounds with _ | rounds
    · rfl
    · rw [streamMessages]
      rcases hread : (read S).run w with ⟨msg, w'⟩ | ⟨stop, w'⟩
      · dsimp only
        split
        · rfl
        · rename_i herr
          have hshrinks := readLoop_shrinks S hread (by simpa using herr)
          rw [hinput] at hshrinks
          exact absurd hshrinks (Nat.not_lt_zero _)
      · rfl
  | cons m rest ih =>
    obtain ⟨rounds, rfl⟩ : ∃ n, rounds = n + 1 := ⟨rounds - 1, by simp at hrounds; omega⟩
    have hread := read_run S (List.cons_ne_nil (m.header ++ m.body) [])
      (by simpa [maxInt64] using Nat.le_pred_of_lt (hsize m (by simp))) hinput
      (hS.contents_run [m.header ++ m.body] w.sec)
    rw [streamMessages, hread]
    dsimp only
    rw [if_neg (by simp [newMsgFrom]), ih (fun m hm => hsize m (by simp [hm])) rfl
      (by simpa using hrounds)]
    rfl

theorem deliver_carried (peerMeta : Metadata) (m : Message) :
    (ReaderKind.routerQReader.reader peerMeta).deliver (newMsgFrom [m.header ++ m.body]) =
      [routed (peerMeta.get sysSockId) m] :=
  rfl

theorem incomingLoop_eq (hS : Transparent S) {ms : List Message}
    (hsize : ∀ m ∈ ms, (m.header ++ m.body).length < 2 ^ 63) {node : Endpoint σ}
    (hinput : node.conn.rw.input = ms.flatMap fun m => encodeFrames [m.header ++ m.body])
    {rounds : Nat} (hrounds : ms.length ≤ rounds) :
    incomingLoop S rounds node = ms.filterMap fun m => incoming (routed
      (node.conn.peerMeta.get sysSockId) m) := by
  have hregular := regular_reader .routerQReader node.conn.peerMeta
  rw [incomingLoop, listen_received S hregular, received_start, List.nil_append,
    streamMessages_sent hS hsize hinput hrounds, List.flatMap_map]
  simp only [deliver_carried]
  rw [← List.map_eq_flatMap, List.filterMap_map]
  rfl

/-- The node dispatches the messages that a peer sends, each as it was sent, if
and only if the identity of the peer is empty. -/
theorem dispatched_as_sent_iff (hS : Transparent S) {ms : List Message} (hne : ms ≠ [])
    (hsize : ∀ m ∈ ms, (m.header ++ m.body).length < 2 ^ 63) {peer : Endpoint σ}
    (hpeer : peer.Healthy) :
    ∃ buffers, (sendMessages S ms).run peer = .ok () (peer.wrote buffers) ∧
      ∀ (node : Endpoint σ) (rounds : Nat), node.conn.rw.input = buffers.flatten →
        ms.length ≤ rounds →
        (incomingLoop S rounds node = ms.map handleIncomingMessage ↔
          node.conn.peerMeta.get sysSockId = []) := by
  obtain ⟨buffers, hsend, hbytes⟩ := hS.sendAll_run (ms.map carrier) hpeer
  refine ⟨buffers, (by rw [sendMessages_eq, hsend]), ?_⟩
  intro node rounds hinput hrounds
  rw [hbytes, List.flatMap_map] at hinput
  have hloop := incomingLoop_eq hS hsize hinput hrounds
  rw [hloop, List.filterMap_eq_map_iff_forall_eq_some]
  constructor
  · intro hall
    obtain ⟨m, hm⟩ := List.exists_mem_of_ne_nil ms hne
    exact (incoming_routed_iff _ m).mp (hall m hm)
  · intro hid m _
    exact (incoming_routed_iff _ m).mpr hid

end Transport

section Example

def peerEndpoint : Endpoint Unit where
  sec := ()
  conn := Conn.fresh (openMetadata .dealer (ascii "07"))

def nodeEndpoint (input : Bytes) : Endpoint Unit where
  sec := ()
  conn :=
    { Conn.fresh (openMetadata .router (ascii "node")) with
      peerMeta := openMetadata .dealer (ascii "07")
      rw := { input := input, closedByPeer := false, output := [], writeErr := none } }

theorem ping_dispatched_iff :
    ∃ buffers, (sendMessages nullSecurity [ping]).run peerEndpoint =
        .ok () (peerEndpoint.wrote buffers) ∧
      ∀ (node : Endpoint Unit) (rounds : Nat), node.conn.rw.input = buffers.flatten →
        1 ≤ rounds →
        (incomingLoop nullSecurity rounds node = [handleIncomingMessage ping] ↔
          node.conn.peerMeta.get sysSockId = []) :=
  dispatched_as_sent_iff transparent_nullSecurity (List.cons_ne_nil ping []) (by decide)
    (⟨rfl, rfl⟩)

theorem ping_not_dispatched :
    ∃ buffers, (sendMessages nullSecurity [ping]).run peerEndpoint =
        .ok () (peerEndpoint.wrote buffers) ∧
      (nodeEndpoint buffers.flatten).conn.peerMeta.get sysSockId = ascii "07" ∧
      incomingLoop nullSecurity 1 (nodeEndpoint buffers.flatten) = [] :=
  ⟨_, rfl, by decide, by decide +kernel⟩

end Example

end Zmq4.ZyreNode
