import Zmq4.MapFields

namespace Zmq4.MalamuteMessages

open ByteCodec BufferReader CutBuffers MapFields
open DuplexProgram hiding readFull
open DafkaMessages (Headers RangeOrder marshalString readString unmarshalSized)

def maxMessageSize : Nat := 16 * 1024 * 1024

def marshalBody (body : Bytes) : Except Err Bytes :=
  if body.length > maxMessageSize then
    .error (.text ("message body too large: " ++ toString body.length))
  else .ok (bigEndian 4 body.length ++ body)

/-- `uint32(value)` of an `int`. -/
def uint32Bytes (value : Int) : Bytes :=
  bigEndian 4 (value % 2 ^ 32).toNat

structure Message where
  type : UInt8
  version : UInt8
  sequence : UInt32
  clientID : Bytes
  attributes : Headers
  body : Bytes

namespace Message

def marshal (m : Message) (range : RangeOrder m.attributes) : Except Err Bytes :=
  followedBy (.ok [m.type]) (followedBy (.ok [m.version])
    (followedBy (.ok (bigEndian 4 m.sequence.toNat))
      (followedBy (marshalString "client ID" m.clientID)
        (followedBy (marshalMap "attribute" range) (marshalBody m.body)))))

/-- The errors of the first three reads are ignored in the source.  Behind the
check of the length there are none. -/
def reader : Reader Message := do
  let type ← readByte
  let version ← readByte
  let sequence ← readUint 4
  let clientID ← wrapping "failed to read client ID" readString
  let attributes ← unmarshalMap "attribute"
  let body ← unmarshalSized "body" 4
  pure { type := type, version := version, sequence := UInt32.ofNat sequence
         clientID := clientID, attributes := attributes, body := body }

def unmarshal (data : Bytes) : Except Stop Message :=
  if data.length < 8 then
    .error (.fail (.text ("message too short: " ++ toString data.length ++ " bytes")))
  else decode reader data

end Message

structure ConnectionOpenMessage where
  clientID : Bytes
  clientType : Int
  attributes : Headers

namespace ConnectionOpenMessage

def marshal (c : ConnectionOpenMessage) (range : RangeOrder c.attributes) : Except Err Bytes :=
  followedBy (marshalString "client ID" c.clientID)
    (followedBy (.ok (uint32Bytes c.clientType)) (marshalMap "attribute" range))

def reader : Reader ConnectionOpenMessage := do
  let clientID ← wrapping "failed to read client ID" readString
  let clientType ← wrapping "failed to read client type" (readUint 4)
  let attributes ← unmarshalMap "attribute"
  pure { clientID := clientID, clientType := clientType, attributes := attributes }

def unmarshal (data : Bytes) : Except Stop ConnectionOpenMessage :=
  decode reader data

end ConnectionOpenMessage

structure StreamWriteMessage where
  stream : Bytes
  subject : Bytes
  attributes : Headers
  body : Bytes

namespace StreamWriteMessage

def marshal (s : StreamWriteMessage) (range : RangeOrder s.attributes) : Except Err Bytes :=
  followedBy (marshalString "stream name" s.stream)
    (followedBy (marshalString "subject" s.subject)
      (followedBy (marshalMap "attribute" range) (marshalBody s.body)))

def reader : Reader StreamWriteMessage := do
  let stream ← wrapping "failed to read stream" readString
  let subject ← wrapping "failed to read subject" readString
  let attributes ← unmarshalMap "attribute"
  let body ← unmarshalSized "body" 4
  pure { stream := stream, subject := subject, attributes := attributes, body := body }

def unmarshal (data : Bytes) : Except Stop StreamWriteMessage :=
  decode reader data

end StreamWriteMessage

def marshalPattern (field : String) (name pattern : Bytes) {attributes : Headers}
    (range : RangeOrder attributes) : Except Err Bytes :=
  followedBy (marshalString (field ++ " name") name)
    (followedBy (marshalString "pattern" pattern) (marshalMap "attribute" range))

def unmarshalPattern (field : String) : Reader (Bytes × Bytes × Headers) := do
  let name ← wrapping ("failed to read " ++ field) readString
  let pattern ← wrapping "failed to read pattern" readString
  let attributes ← unmarshalMap "attribute"
  pure (name, pattern, attributes)

structure StreamReadMessage where
  stream : Bytes
  pattern : Bytes
  attributes : Headers

namespace StreamReadMessage

def marshal (s : StreamReadMessage) (range : RangeOrder s.attributes) : Except Err Bytes :=
  marshalPattern "stream" s.stream s.pattern range

def unmarshal (data : Bytes) : Except Stop StreamReadMessage :=
  (decode (unmarshalPattern "stream") data).map fun fields => ⟨fields.1, fields.2.1, fields.2.2⟩

end StreamReadMessage

structure MailboxSendMessage where
  address : Bytes
  subject : Bytes
  tracker : Bytes
  timeout : Int64
  attributes : Headers
  body : Bytes

namespace MailboxSendMessage

def marshal (m : MailboxSendMessage) (range : RangeOrder m.attributes) : Except Err Bytes :=
  followedBy (marshalString "address" m.address)
    (followedBy (marshalString "subject" m.subject)
      (followedBy (marshalString "tracker" m.tracker)
        (followedBy (.ok (bigEndian 8 m.timeout.toUInt64.toNat))
          (followedBy (marshalMap "attribute" range) (marshalBody m.body)))))

def reader : Reader MailboxSendMessage := do
  let address ← wrapping "failed to read address" readString
  let subject ← wrapping "failed to read subject" readString
  let tracker ← wrapping "failed to read tracker" readString
  let timeout ← wrapping "failed to read timeout" (readUint 8)
  let attributes ← unmarshalMap "attribute"
  let body ← unmarshalSized "body" 4
  pure { address := address, subject := subject, tracker := tracker
         timeout := (UInt64.ofNat timeout).toInt64, attributes := attributes, body := body }

def unmarshal (data : Bytes) : Except Stop MailboxSendMessage :=
  decode reader data

end MailboxSendMessage

structure ServiceOfferMessage where
  service : Bytes
  pattern : Bytes
  attributes : Headers

namespace ServiceOfferMessage

def marshal (s : ServiceOfferMessage) (range : RangeOrder s.attributes) : Except Err Bytes :=
  marshalPattern "service" s.service s.pattern range

def unmarshal (data : Bytes) : Except Stop ServiceOfferMessage :=
  (decode (unmarshalPattern "service") data).map fun fields =>
    ⟨fields.1, fields.2.1, fields.2.2⟩

end ServiceOfferMessage

structure CreditRequestMessage where
  credit : Int32

namespace CreditRequestMessage

def marshal (c : CreditRequestMessage) : Except Err Bytes :=
  .ok (bigEndian 4 c.credit.toUInt32.toNat)

def reader : Reader CreditRequestMessage := do
  let credit ← readUint 4
  pure { credit := (UInt32.ofNat credit).toInt32 }

def unmarshal (data : Bytes) : Except Stop CreditRequestMessage :=
  decode reader data

end CreditRequestMessage

structure ErrorMessage where
  code : Int
  reason : Bytes
  attributes : Headers

namespace ErrorMessage

def marshal (e : ErrorMessage) (range : RangeOrder e.attributes) : Except Err Bytes :=
  followedBy (.ok (uint32Bytes e.code))
    (followedBy (marshalString "reason" e.reason) (marshalMap "attribute" range))

def reader : Reader ErrorMessage := do
  let code ← wrapping "failed to read error code" (readUint 4)
  let reason ← wrapping "failed to read reason" readString
  let attributes ← unmarshalMap "attribute"
  pure { code := code, reason := reason, attributes := attributes }

def unmarshal (data : Bytes) : Except Stop ErrorMessage :=
  decode reader data

end ErrorMessage

inductive Value where
  | message (m : Message)
  | connectionOpen (m : ConnectionOpenMessage)
  | streamWrite (m : StreamWriteMessage)
  | streamRead (m : StreamReadMessage)
  | mailboxSend (m : MailboxSendMessage)
  | serviceOffer (m : ServiceOfferMessage)
  | creditRequest (m : CreditRequestMessage)
  | error (m : ErrorMessage)

inductive ValueKind where
  | message
  | connectionOpen
  | streamWrite
  | streamRead
  | mailboxSend
  | serviceOffer
  | creditRequest
  | error
  deriving DecidableEq

namespace Value

def kind : Value → ValueKind
  | .message _ => .message
  | .connectionOpen _ => .connectionOpen
  | .streamWrite _ => .streamWrite
  | .streamRead _ => .streamRead
  | .mailboxSend _ => .mailboxSend
  | .serviceOffer _ => .serviceOffer
  | .creditRequest _ => .creditRequest
  | .error _ => .error

def attributes : Value → Headers
  | .message m => m.attributes
  | .connectionOpen m => m.attributes
  | .streamWrite m => m.attributes
  | .streamRead m => m.attributes
  | .mailboxSend m => m.attributes
  | .serviceOffer m => m.attributes
  | .creditRequest _ => ∅
  | .error m => m.attributes

def marshal : (v : Value) → RangeOrder v.attributes → Except Err Bytes
  | .message m, range => m.marshal range
  | .connectionOpen m, range => m.marshal range
  | .streamWrite m, range => m.marshal range
  | .streamRead m, range => m.marshal range
  | .mailboxSend m, range => m.marshal range
  | .serviceOffer m, range => m.marshal range
  | .creditRequest m, _ => m.marshal
  | .error m, range => m.marshal range

def unmarshal : ValueKind → Bytes → Except Stop Value
  | .message, data => (Message.unmarshal data).map .message
  | .connectionOpen, data => (ConnectionOpenMessage.unmarshal data).map .connectionOpen
  | .streamWrite, data => (StreamWriteMessage.unmarshal data).map .streamWrite
  | .streamRead, data => (StreamReadMessage.unmarshal data).map .streamRead
  | .mailboxSend, data => (MailboxSendMessage.unmarshal data).map .mailboxSend
  | .serviceOffer, data => (ServiceOfferMessage.unmarshal data).map .serviceOffer
  | .creditRequest, data => (CreditRequestMessage.unmarshal data).map .creditRequest
  | .error, data => (ErrorMessage.unmarshal data).map .error

/-- Client types and error codes that fit their four bytes. -/
def InRange : Value → Prop
  | .connectionOpen m => 0 ≤ m.clientType ∧ m.clientType < 2 ^ 32
  | .error m => 0 ≤ m.code ∧ m.code < 2 ^ 32
  | _ => True

/-- The bytes at the end of the wire form that one `Read` takes. -/
def lastField : (v : Value) → RangeOrder v.attributes → Bytes
  | .message m, _ => m.body
  | .streamWrite m, _ => m.body
  | .mailboxSend m, _ => m.body
  | .creditRequest _, _ => []
  | _, range => lastValue range.entries

end Value

section Framing

theorem framed_body (body : Bytes) :
    Framed (marshalBody body) (unmarshalSized "body" 4) body body.length := by
  unfold marshalBody
  split
  · exact .of_error
  · have hlimit : maxMessageSize < 256 ^ 4 := by decide
    exact framed_sized "body" (by omega)

theorem refuses_body_nil : Refuses (unmarshalSized "body" 4) [] :=
  refuses_sized_nil "body" (by decide)

theorem framed_uint32 (value : UInt32) :
    Framed (.ok (bigEndian 4 value.toNat)) (readUint 4) value.toNat 0 :=
  framed_readUint (by simpa using value.toNat_lt)

theorem framed_uint32Bytes (value : Int) :
    Framed (.ok (uint32Bytes value)) (readUint 4) (value % 2 ^ 32).toNat 0 :=
  framed_readUint (by omega)

theorem framed_message (m : Message) (range : RangeOrder m.attributes) :
    Framed (m.marshal range) Message.reader m m.body.length := by
  apply (framed_readByte m.type).followedBy (Or.inl rfl)
  apply (framed_readByte m.version).followedBy (Or.inl rfl)
  apply (framed_uint32 m.sequence).followedBy (Or.inl rfl)
  apply ((framed_marshalString _ m.clientID).wrapping _).followedBy
    (Or.inr fun _ => (refuses_unmarshalMap_nil _).bind _)
  apply (framed_marshalMap _ range).followedBy (Or.inr fun _ => refuses_body_nil.bind _)
  simp only [UInt32.ofNat_toNat]
  exact (framed_body m.body).bind_pure

theorem framed_connectionOpen (c : ConnectionOpenMessage) (range : RangeOrder c.attributes) :
    Framed (c.marshal range) ConnectionOpenMessage.reader
      { c with clientType := c.clientType % 2 ^ 32 } (lastValue range.entries).length := by
  have htype : ((c.clientType % 2 ^ 32).toNat : Int) = c.clientType % 2 ^ 32 := by omega
  apply ((framed_marshalString _ c.clientID).wrapping _).followedBy
    (Or.inr fun _ => ((refuses_readUint (by decide)).wrapping _).bind _)
  apply ((framed_uint32Bytes c.clientType).wrapping _).followedBy (Or.inl rfl)
  simp only [htype]
  exact (framed_marshalMap _ range).bind_pure

theorem framed_streamWrite (s : StreamWriteMessage) (range : RangeOrder s.attributes) :
    Framed (s.marshal range) StreamWriteMessage.reader s s.body.length := by
  apply ((framed_marshalString _ s.stream).wrapping _).followedBy
    (Or.inr fun _ => (refuses_readString_nil.wrapping _).bind _)
  apply ((framed_marshalString _ s.subject).wrapping _).followedBy
    (Or.inr fun _ => (refuses_unmarshalMap_nil _).bind _)
  apply (framed_marshalMap _ range).followedBy (Or.inr fun _ => refuses_body_nil.bind _)
  exact (framed_body s.body).bind_pure

theorem framed_marshalPattern (field : String) (name pattern : Bytes) {attributes : Headers}
    (range : RangeOrder attributes) :
    Framed (marshalPattern field name pattern range) (unmarshalPattern field)
      (name, pattern, attributes) (lastValue range.entries).length := by
  apply ((framed_marshalString _ name).wrapping _).followedBy
    (Or.inr fun _ => (refuses_readString_nil.wrapping _).bind _)
  apply ((framed_marshalString _ pattern).wrapping _).followedBy
    (Or.inr fun _ => (refuses_unmarshalMap_nil _).bind _)
  exact (framed_marshalMap _ range).bind_pure

theorem framed_mailboxSend (m : MailboxSendMessage) (range : RangeOrder m.attributes) :
    Framed (m.marshal range) MailboxSendMessage.reader m m.body.length := by
  have htimeout : m.timeout.toUInt64.toNat < 256 ^ 8 := by
    simpa using m.timeout.toUInt64.toNat_lt
  apply ((framed_marshalString _ m.address).wrapping _).followedBy
    (Or.inr fun _ => (refuses_readString_nil.wrapping _).bind _)
  apply ((framed_marshalString _ m.subject).wrapping _).followedBy
    (Or.inr fun _ => (refuses_readString_nil.wrapping _).bind _)
  apply ((framed_marshalString _ m.tracker).wrapping _).followedBy
    (Or.inr fun _ => ((refuses_readUint (by decide)).wrapping _).bind _)
  apply ((framed_readUint htimeout).wrapping _).followedBy (Or.inl rfl)
  apply (framed_marshalMap _ range).followedBy (Or.inr fun _ => refuses_body_nil.bind _)
  simp only [UInt64.ofNat_toNat, Int64.toInt64_toUInt64]
  exact (framed_body m.body).bind_pure

theorem framed_creditRequest (c : CreditRequestMessage) :
    Framed c.marshal CreditRequestMessage.reader c 0 := by
  have hcredit := (framed_uint32 c.credit.toUInt32).bind_pure
    (f := fun credit => CreditRequestMessage.mk (UInt32.ofNat credit).toInt32)
  rwa [UInt32.ofNat_toNat, Int32.toInt32_toUInt32] at hcredit

theorem framed_error (e : ErrorMessage) (range : RangeOrder e.attributes) :
    Framed (e.marshal range) ErrorMessage.reader { e with code := e.code % 2 ^ 32 }
      (lastValue range.entries).length := by
  have hcode : ((e.code % 2 ^ 32).toNat : Int) = e.code % 2 ^ 32 := by omega
  apply ((framed_uint32Bytes e.code).wrapping _).followedBy (Or.inl rfl)
  apply ((framed_marshalString _ e.reason).wrapping _).followedBy
    (Or.inr fun _ => (refuses_unmarshalMap_nil _).bind _)
  simp only [hcode]
  exact (framed_marshalMap _ range).bind_pure

end Framing

section RoundTrip

theorem marshalBody_length {body data : Bytes} (hdata : marshalBody body = .ok data) :
    data.length = 4 + body.length := by
  unfold marshalBody at hdata
  split at hdata
  · cases hdata
  · cases hdata
    simp [bigEndian_length]

theorem message_length_ge {m : Message} {range : RangeOrder m.attributes} {data : Bytes}
    (hdata : m.marshal range = .ok data) : 10 + m.body.length ≤ data.length := by
  obtain ⟨_, _, ⟨⟩, hversion, rfl⟩ := followedBy_eq_ok_iff.mp hdata
  obtain ⟨_, _, ⟨⟩, hsequence, rfl⟩ := followedBy_eq_ok_iff.mp hversion
  obtain ⟨_, _, ⟨⟩, hclient, rfl⟩ := followedBy_eq_ok_iff.mp hsequence
  obtain ⟨client, _, -, hattributes, rfl⟩ := followedBy_eq_ok_iff.mp hclient
  obtain ⟨attributes, body, -, hbody, rfl⟩ := followedBy_eq_ok_iff.mp hattributes
  have hlength := marshalBody_length hbody
  simp only [List.length_append, List.length_singleton, bigEndian_length]
  omega

theorem unmarshal_marshal {v : Value} (hrange : v.InRange) {range : RangeOrder v.attributes}
    {data : Bytes} (hdata : v.marshal range = .ok data) :
    Value.unmarshal v.kind data = .ok v := by
  rcases v with m | m | m | m | m | m | m | m
  · have hread := (framed_message m range).codes.decode hdata
    have hlength := message_length_ge hdata
    have hshort : ¬ data.length < 8 := by omega
    simp [Value.kind, Value.unmarshal, Message.unmarshal, hshort, hread, Except.map]
  · have hread := (framed_connectionOpen m range).codes.decode hdata
    rw [Int.emod_eq_of_lt hrange.1 hrange.2] at hread
    simp [Value.kind, Value.unmarshal, ConnectionOpenMessage.unmarshal, hread, Except.map]
  · have hread := (framed_streamWrite m range).codes.decode hdata
    simp [Value.kind, Value.unmarshal, StreamWriteMessage.unmarshal, hread, Except.map]
  · have hread := (framed_marshalPattern "stream" m.stream m.pattern range).codes.decode hdata
    simp [Value.kind, Value.unmarshal, StreamReadMessage.unmarshal, hread, Value.attributes,
      Except.map]
  · have hread := (framed_mailboxSend m range).codes.decode hdata
    simp [Value.kind, Value.unmarshal, MailboxSendMessage.unmarshal, hread, Except.map]
  · have hread := (framed_marshalPattern "service" m.service m.pattern range).codes.decode hdata
    simp [Value.kind, Value.unmarshal, ServiceOfferMessage.unmarshal, hread, Value.attributes,
      Except.map]
  · have hread := (framed_creditRequest m).codes.decode hdata
    simp [Value.kind, Value.unmarshal, CreditRequestMessage.unmarshal, hread, Except.map]
  · have hread := (framed_error m range).codes.decode hdata
    rw [Int.emod_eq_of_lt hrange.1 hrange.2] at hread
    simp [Value.kind, Value.unmarshal, ErrorMessage.unmarshal, hread, Except.map]

/-- Whatever could be marshalled is unmarshalled again, in whatever order the
attributes came. -/
theorem value_unmarshal_marshal (v : Value) (hrange : v.InRange)
    (range : RangeOrder v.attributes) :
    (∃ err, v.marshal range = .error err) ∨
      ∃ data, v.marshal range = .ok data ∧ Value.unmarshal v.kind data = .ok v := by
  rcases hdata : v.marshal range with err | data
  · exact Or.inl ⟨err, rfl⟩
  · exact Or.inr ⟨data, rfl, unmarshal_marshal hrange hdata⟩

def workerOpen : ConnectionOpenMessage where
  clientID := ascii "worker"
  clientType := 3
  attributes := Finmap.singleton (ascii "zone") (ascii "west")

theorem workerOpen_unmarshal_marshal :
    (Value.connectionOpen workerOpen).InRange ∧
      ((∃ err, workerOpen.marshal (singleRange (ascii "zone") (ascii "west")) = .error err) ∨
        ∃ data, workerOpen.marshal (singleRange (ascii "zone") (ascii "west")) = .ok data ∧
          Value.unmarshal .connectionOpen data = .ok (.connectionOpen workerOpen)) := by
  have hrange : (Value.connectionOpen workerOpen).InRange := by
    simp [Value.InRange, workerOpen]
  exact ⟨hrange, value_unmarshal_marshal (.connectionOpen workerOpen) hrange
    (singleRange (ascii "zone") (ascii "west"))⟩

end RoundTrip

end Zmq4.MalamuteMessages
