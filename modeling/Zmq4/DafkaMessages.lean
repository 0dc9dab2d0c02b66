import Mathlib.Data.Finmap
import Zmq4.BufferReader

namespace Zmq4.DafkaMessages

open ByteCodec BufferReader
open DuplexProgram hiding readFull

def protocolVersion : UInt8 := 1
def protocolSignature1 : UInt8 := 0xAA
def protocolSignature2 : UInt8 := 0xA0

def messageTypeRecord : UInt8 := 3

def maxTopicLength : Nat := 255
def maxRecordSize : Nat := 1024 * 1024

abbrev Header := Sigma fun _ : Bytes => Bytes

abbrev Headers := Finmap fun _ : Bytes => Bytes

/-- The order in which a `range` goes through a header map. -/
structure RangeOrder (headers : Headers) where
  list : AList fun _ : Bytes => Bytes
  toFinmap_eq : list.toFinmap = headers

def RangeOrder.entries {headers : Headers} (range : RangeOrder headers) : List Header :=
  range.list.entries

namespace RangeOrder

theorem entries_length {headers : Headers} (range : RangeOrder headers) :
    range.entries.length = headers.keys.card := by
  rcases range with ⟨list, rfl⟩
  exact (List.length_map _).symm

theorem mem_entries_iff {headers : Headers} (range : RangeOrder headers) (header : Header) :
    header ∈ range.entries ↔ headers.lookup header.1 = some header.2 := by
  rcases range with ⟨list, rfl⟩
  exact (List.mem_dlookup_iff list.nodupKeys).symm

end RangeOrder

section Marshal

def shortString (text : Bytes) : Bytes :=
  UInt8.ofNat text.length :: text

def marshalString (name : String) (text : Bytes) : Except Err Bytes :=
  if text.length > 255 then .error (.text (name ++ " too long: " ++ toString text.length))
  else .ok (shortString text)

def marshalEntries : List Header → Except Err Bytes
  | [] => .ok []
  | ⟨key, value⟩ :: rest =>
    if key.length > 255 ∨ value.length > 255 then
      .error (.text "header key or value too long")
    else followedBy (.ok (shortString key ++ shortString value)) (marshalEntries rest)

def marshalHeaders {headers : Headers} (range : RangeOrder headers) : Except Err Bytes :=
  if range.entries.length > 255 then
    .error (.text ("too many headers: " ++ toString range.entries.length))
  else followedBy (.ok [UInt8.ofNat range.entries.length]) (marshalEntries range.entries)

def marshalHello (address : Bytes) {headers : Headers} (range : RangeOrder headers) :
    Except Err Bytes :=
  followedBy (marshalString "address" address) (marshalHeaders range)

def marshalPosition (partition : Bytes) (offset : UInt64) : Except Err Bytes :=
  followedBy (marshalString "partition" partition) (.ok (bigEndian 8 offset.toNat))

def marshalSized (name : String) (limit width : Nat) (data : Bytes) : Except Err Bytes :=
  if data.length > limit then .error (.text (name ++ " too long: " ++ toString data.length))
  else .ok (bigEndian width data.length ++ data)

end Marshal

section Unmarshal

def readString : Reader Bytes := do
  let length ← readSome 1
  if (length.headD 0).toNat = 0 then pure []
  else readSome (length.headD 0).toNat

def readHeaders : Nat → Nat → Headers → Reader Headers
  | 0, _, headers => pure headers
  | left + 1, i, headers => do
      let key ← wrapping ("failed to read header key " ++ toString i) readString
      let value ← wrapping ("failed to read header value " ++ toString i) readString
      readHeaders left (i + 1) (headers.insert key value)

def unmarshalHeaders : Reader Headers := do
  let headerCount ← wrapping "failed to read header count" readByte
  readHeaders headerCount.toNat 0 ∅

def unmarshalHello : Reader (Bytes × Headers) := do
  let address ← wrapping "failed to read address" readString
  let headers ← unmarshalHeaders
  pure (address, headers)

def unmarshalPosition : Reader (Bytes × UInt64) := do
  let partition ← wrapping "failed to read partition" readString
  let offset ← wrapping "failed to read offset" (readUint 8)
  pure (partition, UInt64.ofNat offset)

/-- Nothing is read for an empty key or value: at the end of the data a read
fails also if it asks for no bytes. -/
def unmarshalSized (name : String) (width : Nat) : Reader Bytes := do
  let length ← wrapping ("failed to read " ++ name ++ " length") (readUint width)
  if length > 0 then wrapping ("failed to read " ++ name) (readSome length) else pure []

end Unmarshal

structure Message where
  version : UInt8
  type : UInt8
  topic : Bytes
  body : Bytes
  deriving DecidableEq

namespace Message

def header (m : Message) : Bytes :=
  [protocolSignature1, protocolSignature2, m.version, m.type] ++ shortString m.topic

def marshal (m : Message) : Except Err Bytes :=
  if m.topic.length > maxTopicLength then
    .error (.text ("topic too long: " ++ toString m.topic.length))
  else .ok (m.header ++ m.body)

def unmarshalTopic : Reader Bytes := do
  let topicLen ← wrapping "failed to read topic length" readByte
  if topicLen.toNat > 0 then wrapping "failed to read topic" (readSome topicLen.toNat)
  else pure []

def reader : Reader Message := do
  let sig1 ← readByte
  let sig2 ← readByte
  require (sig1 = protocolSignature1 ∧ sig2 = protocolSignature2)
    (.text ("invalid protocol signature: " ++ showHex sig1 ++ " " ++ showHex sig2))
  let version ← readByte
  let type ← readByte
  let topic ← unmarshalTopic
  let body ← readRest
  pure { version := version, type := type, topic := topic, body := body }

def unmarshal (data : Bytes) : Except Stop Message :=
  if data.length < 5 then
    .error (.fail (.text ("message too short: " ++ toString data.length ++ " bytes")))
  else decode reader data

end Message

structure StoreHelloMessage where
  address : Bytes
  headers : Headers

namespace StoreHelloMessage

def marshal (s : StoreHelloMessage) (range : RangeOrder s.headers) : Except Err Bytes :=
  marshalHello s.address range

def unmarshal (data : Bytes) : Except Stop StoreHelloMessage :=
  (decode unmarshalHello data).map fun fields => ⟨fields.1, fields.2⟩

end StoreHelloMessage

structure ConsumerHelloMessage where
  address : Bytes
  headers : Headers

namespace ConsumerHelloMessage

def marshal (c : ConsumerHelloMessage) (range : RangeOrder c.headers) : Except Err Bytes :=
  marshalHello c.address range

def unmarshal (data : Bytes) : Except Stop ConsumerHelloMessage :=
  (decode unmarshalHello data).map fun fields => ⟨fields.1, fields.2⟩

end ConsumerHelloMessage

structure RecordMessage where
  partition : Bytes
  offset : UInt64
  key : Bytes
  value : Bytes
  headers : Headers

namespace RecordMessage

def marshal (r : RecordMessage) (range : RangeOrder r.headers) : Except Err Bytes :=
  followedBy (marshalPosition r.partition r.offset)
    (followedBy (marshalSized "key" 65535 2 r.key)
      (followedBy (marshalSized "value" maxRecordSize 4 r.value) (marshalHeaders range)))

def reader : Reader RecordMessage := do
  let position ← unmarshalPosition
  let key ← unmarshalSized "key" 2
  let value ← unmarshalSized "value" 4
  let headers ← unmarshalHeaders
  pure { partition := position.1, offset := position.2, key := key, value := value
         headers := headers }

def unmarshal (data : Bytes) : Except Stop RecordMessage :=
  decode reader data

end RecordMessage

/-- `Record`, with its time in nanoseconds. -/
structure Record where
  topic : Bytes
  partition : Bytes
  offset : UInt64
  key : Bytes
  value : Bytes
  headers : Headers
  timestamp : Int64

def Record.message (record : Record) : RecordMessage where
  partition := record.partition
  offset := record.offset
  key := record.key
  value := record.value
  headers := record.headers

def createRecordMessage (topic : Bytes) (record : Record) (range : RangeOrder record.headers) :
    Except Err Message := do
  let body ← record.message.marshal range
  pure { version := protocolVersion, type := messageTypeRecord, topic := topic, body := body }

structure AckMessage where
  partition : Bytes
  offset : UInt64
  deriving DecidableEq

namespace AckMessage

def marshal (a : AckMessage) : Except Err Bytes :=
  marshalPosition a.partition a.offset

def unmarshal (data : Bytes) : Except Stop AckMessage :=
  (decode unmarshalPosition data).map fun fields => ⟨fields.1, fields.2⟩

end AckMessage

structure HeadMessage where
  partition : Bytes
  offset : UInt64
  deriving DecidableEq

namespace HeadMessage

def marshal (h : HeadMessage) : Except Err Bytes :=
  marshalPosition h.partition h.offset

def unmarshal (data : Bytes) : Except Stop HeadMessage :=
  (decode unmarshalPosition data).map fun fields => ⟨fields.1, fields.2⟩

end HeadMessage

structure FetchMessage where
  partition : Bytes
  offset : UInt64
  count : UInt32
  deriving DecidableEq

namespace FetchMessage

def marshal (f : FetchMessage) : Except Err Bytes :=
  followedBy (marshalPosition f.partition f.offset) (.ok (bigEndian 4 f.count.toNat))

def reader : Reader FetchMessage := do
  let position ← unmarshalPosition
  let count ← wrapping "failed to read count" (readUint 4)
  pure { partition := position.1, offset := position.2, count := UInt32.ofNat count }

def unmarshal (data : Bytes) : Except Stop FetchMessage :=
  decode reader data

end FetchMessage

structure DirectRecordMessage where
  partition : Bytes
  offset : UInt64
  key : Bytes
  value : Bytes
  headers : Headers

namespace DirectRecordMessage

def toRecord (d : DirectRecordMessage) : RecordMessage where
  partition := d.partition
  offset := d.offset
  key := d.key
  value := d.value
  headers := d.headers

def marshal (d : DirectRecordMessage) (range : RangeOrder d.headers) : Except Err Bytes :=
  d.toRecord.marshal range

def unmarshal (data : Bytes) : Except Stop DirectRecordMessage :=
  (RecordMessage.unmarshal data).map fun r =>
    { partition := r.partition, offset := r.offset, key := r.key, value := r.value
      headers := r.headers }

end DirectRecordMessage

structure DirectHeadMessage where
  partition : Bytes
  offset : UInt64
  deriving DecidableEq

namespace DirectHeadMessage

def marshal (d : DirectHeadMessage) : Except Err Bytes :=
  HeadMessage.marshal ⟨d.partition, d.offset⟩

def unmarshal (data : Bytes) : Except Stop DirectHeadMessage :=
  (HeadMessage.unmarshal data).map fun h => ⟨h.partition, h.offset⟩

end DirectHeadMessage

section RoundTrip

theorem reads_readString {text : Bytes} (hlength : text.length ≤ 255) :
    Reads readString (shortString text) text := by
  have hfirst : Reads (readSome 1) [UInt8.ofNat text.length] [UInt8.ofNat text.length] :=
    reads_readSome (by simp)
  apply hfirst.bind
  simp only [List.headD_cons, UInt8.toNat_ofNat_of_lt' (Nat.lt_succ_of_le hlength)]
  split
  · rename_i hempty
    rw [List.length_eq_zero_iff.mp hempty]
    exact .pure []
  · rename_i hne
    exact reads_readSome fun hnil => hne (by rw [hnil]; rfl)

theorem codes_marshalString (name : String) (text : Bytes) :
    Codes (marshalString name text) readString text := by
  unfold marshalString
  split
  · rintro bytes ⟨⟩
  · exact .of_reads (reads_readString (by omega))

def insertAll (headers : Headers) (entries : List Header) : Headers :=
  entries.foldl (fun headers entry => headers.insert entry.1 entry.2) headers

theorem lookup_insertAll {entries : List Header} (hnodup : entries.NodupKeys) (headers : Headers)
    (key : Bytes) :
    (insertAll headers entries).lookup key =
      (entries.dlookup key).or (headers.lookup key) := by
  induction entries generalizing headers with
  | nil => rfl
  | cons entry rest ih =>
    obtain ⟨hnew, hrest⟩ := List.nodupKeys_cons.mp hnodup
    rw [insertAll, List.foldl_cons]
    refine (ih hrest _).trans ?_
    rcases eq_or_ne key entry.1 with rfl | hne
    · rw [List.dlookup_eq_none.mpr hnew, Finmap.lookup_insert]
      exact (congrArg (Option.or · _) (List.dlookup_cons_eq rest entry.1 entry.2)).symm
    · rw [Finmap.lookup_insert_of_ne _ hne, List.dlookup_cons_ne _ _ hne]

theorem insertAll_entries {headers : Headers} (range : RangeOrder headers) :
    insertAll ∅ range.entries = headers := by
  apply Finmap.ext_lookup
  intro key
  have hnodup : range.entries.NodupKeys := range.list.nodupKeys
  rw [lookup_insertAll hnodup, Finmap.lookup_empty, Option.or_none]
  exact congrArg (Finmap.lookup key) range.toFinmap_eq

theorem codes_marshalEntries (entries : List Header) (i : Nat) (headers : Headers) :
    Codes (marshalEntries entries) (readHeaders entries.length i headers)
      (insertAll headers entries) := by
  induction entries generalizing i headers with
  | nil => exact .of_reads (.pure headers)
  | cons entry rest ih =>
    rw [marshalEntries]
    split
    · rintro bytes ⟨⟩
    · intro bytes hbytes
      obtain ⟨before, after, hbefore, hafter, rfl⟩ := followedBy_eq_ok_iff.mp hbytes
      cases hbefore
      rw [List.append_assoc]
      apply ((reads_readString (by omega)).wrapping _).bind
      apply ((reads_readString (by omega)).wrapping _).bind
      exact ih _ _ after hafter

theorem codes_marshalHeaders {headers : Headers} (range : RangeOrder headers) :
    Codes (marshalHeaders range) unmarshalHeaders headers := by
  unfold marshalHeaders
  split
  · rintro bytes ⟨⟩
  · have hcount : (UInt8.ofNat range.entries.length).toNat = range.entries.length := by
      rw [UInt8.toNat_ofNat']
      omega
    apply (Codes.of_reads ((reads_readByte _).wrapping _)).followedBy
    rw [hcount]
    have hloop := codes_marshalEntries range.entries 0 ∅
    rwa [insertAll_entries range] at hloop

theorem codes_marshalHello (address : Bytes) {headers : Headers} (range : RangeOrder headers) :
    Codes (marshalHello address range) unmarshalHello (address, headers) :=
  ((codes_marshalString _ address).wrapping _).followedBy (codes_marshalHeaders range).bind_pure

theorem reads_uint64 (value : UInt64) :
    Reads (readUint 8) (bigEndian 8 value.toNat) value.toNat :=
  reads_readUint (by simpa using value.toNat_lt)

theorem codes_marshalPosition (partition : Bytes) (offset : UInt64) :
    Codes (marshalPosition partition offset) unmarshalPosition (partition, offset) := by
  have hoffset := (Codes.of_reads ((reads_uint64 offset).wrapping "failed to read offset")).bind_pure
    (f := fun value => (partition, UInt64.ofNat value))
  rw [UInt64.ofNat_toNat] at hoffset
  exact ((codes_marshalString _ partition).wrapping _).followedBy hoffset

theorem codes_marshalSized (name : String) {limit width : Nat} (hlimit : limit < 256 ^ width)
    (data : Bytes) : Codes (marshalSized name limit width data) (unmarshalSized name width) data := by
  unfold marshalSized
  split
  · rintro bytes ⟨⟩
  · apply Codes.of_reads
    apply ((reads_readUint (by omega)).wrapping _).bind
    split
    · rename_i hpos
      exact (reads_readSome (List.ne_nil_of_length_pos hpos)).wrapping _
    · have hnil : data = [] := List.eq_nil_of_length_eq_zero (by omega)
      subst hnil
      exact Reads.pure []

theorem codes_record (r : RecordMessage) (range : RangeOrder r.headers) :
    Codes (r.marshal range) RecordMessage.reader r := by
  apply (codes_marshalPosition r.partition r.offset).followedBy
  apply (codes_marshalSized "key" (by decide) r.key).followedBy
  apply (codes_marshalSized "value" (by decide) r.value).followedBy
  exact (codes_marshalHeaders range).bind_pure

theorem codes_fetch (f : FetchMessage) : Codes f.marshal FetchMessage.reader f := by
  have hcount : Reads (readUint 4) (bigEndian 4 f.count.toNat) f.count.toNat :=
    reads_readUint (by simpa using f.count.toNat_lt)
  apply (codes_marshalPosition f.partition f.offset).followedBy
  have hlast := (Codes.of_reads (hcount.wrapping "failed to read count")).bind_pure
    (f := fun count => FetchMessage.mk f.partition f.offset (UInt32.ofNat count))
  rwa [UInt32.ofNat_toNat] at hlast

theorem reads_unmarshalTopic {topic : Bytes} (hlength : topic.length ≤ 255) :
    Reads Message.unmarshalTopic (shortString topic) topic := by
  apply ((reads_readByte (UInt8.ofNat topic.length)).wrapping _).bind
  rw [UInt8.toNat_ofNat_of_lt' (Nat.lt_succ_of_le hlength)]
  split
  · rename_i hpos
    exact (reads_readSome (List.ne_nil_of_length_pos hpos)).wrapping _
  · have hnil : topic = [] := List.eq_nil_of_length_eq_zero (by omega)
    subst hnil
    exact .pure []

theorem unmarshal_marshal {m : Message} {data : Bytes} (hdata : m.marshal = .ok data) :
    Message.unmarshal data = .ok m := by
  unfold Message.marshal at hdata
  split at hdata
  · cases hdata
  rename_i htopic
  cases hdata
  have hshort : ¬ (m.header ++ m.body).length < 5 := by
    simp [Message.header, shortString]
  rw [Message.unmarshal, if_neg hshort]
  have hread : Reads Message.unmarshalTopic (shortString m.topic) m.topic :=
    reads_unmarshalTopic (not_lt.mp htopic)
  have hrun : Message.reader.run (m.header ++ m.body) = .ok m [] :=
    hread.run_bind (f := fun topic => readRest >>= fun body =>
      pure (Message.mk m.version m.type topic body)) m.body
  exact decode_ok hrun

end RoundTrip

section Bodies

inductive Body where
  | storeHello (m : StoreHelloMessage)
  | consumerHello (m : ConsumerHelloMessage)
  | record (m : RecordMessage)
  | ack (m : AckMessage)
  | head (m : HeadMessage)
  | fetch (m : FetchMessage)
  | directRecord (m : DirectRecordMessage)
  | directHead (m : DirectHeadMessage)

inductive BodyKind where
  | storeHello
  | consumerHello
  | record
  | ack
  | head
  | fetch
  | directRecord
  | directHead
  deriving DecidableEq

namespace Body

def kind : Body → BodyKind
  | .storeHello _ => .storeHello
  | .consumerHello _ => .consumerHello
  | .record _ => .record
  | .ack _ => .ack
  | .head _ => .head
  | .fetch _ => .fetch
  | .directRecord _ => .directRecord
  | .directHead _ => .directHead

def headers : Body → Headers
  | .storeHello m => m.headers
  | .consumerHello m => m.headers
  | .record m => m.headers
  | .directRecord m => m.headers
  | _ => ∅

def marshal : (body : Body) → RangeOrder body.headers → Except Err Bytes
  | .storeHello m, range => m.marshal range
  | .consumerHello m, range => m.marshal range
  | .record m, range => m.marshal range
  | .ack m, _ => m.marshal
  | .head m, _ => m.marshal
  | .fetch m, _ => m.marshal
  | .directRecord m, range => m.marshal range
  | .directHead m, _ => m.marshal

def unmarshal : BodyKind → Bytes → Except Stop Body
  | .storeHello, data => (StoreHelloMessage.unmarshal data).map .storeHello
  | .consumerHello, data => (ConsumerHelloMessage.unmarshal data).map .consumerHello
  | .record, data => (RecordMessage.unmarshal data).map .record
  | .ack, data => (AckMessage.unmarshal data).map .ack
  | .head, data => (HeadMessage.unmarshal data).map .head
  | .fetch, data => (FetchMessage.unmarshal data).map .fetch
  | .directRecord, data => (DirectRecordMessage.unmarshal data).map .directRecord
  | .directHead, data => (DirectHeadMessage.unmarshal data).map .directHead

theorem unmarshal_marshal {body : Body} {range : RangeOrder body.headers} {data : Bytes}
    (hdata : body.marshal range = .ok data) : unmarshal body.kind data = .ok body := by
  rcases body with m | m | m | m | m | m | m | m
  · have hread := (codes_marshalHello m.address range).decode hdata
    simp [kind, unmarshal, StoreHelloMessage.unmarshal, hread, headers, Except.map]
  · have hread := (codes_marshalHello m.address range).decode hdata
    simp [kind, unmarshal, ConsumerHelloMessage.unmarshal, hread, headers, Except.map]
  · have hread := (codes_record m range).decode hdata
    simp [kind, unmarshal, RecordMessage.unmarshal, hread, Except.map]
  · have hread := (codes_marshalPosition m.partition m.offset).decode hdata
    simp [kind, unmarshal, AckMessage.unmarshal, hread, Except.map]
  · have hread := (codes_marshalPosition m.partition m.offset).decode hdata
    simp [kind, unmarshal, HeadMessage.unmarshal, hread, Except.map]
  · have hread := (codes_fetch m).decode hdata
    simp [kind, unmarshal, FetchMessage.unmarshal, hread, Except.map]
  · have hread := (codes_record m.toRecord range).decode hdata
    simp [kind, unmarshal, DirectRecordMessage.unmarshal, RecordMessage.unmarshal, hread,
      DirectRecordMessage.toRecord, Except.map]
  · have hread := (codes_marshalPosition m.partition m.offset).decode hdata
    simp [kind, unmarshal, DirectHeadMessage.unmarshal, HeadMessage.unmarshal, hread, Except.map]

def marshalIn (body : Body) (range : RangeOrder body.headers) (version type : UInt8)
    (topic : Bytes) : Except Err Bytes := do
  let bytes ← body.marshal range
  Message.marshal { version := version, type := type, topic := topic, body := bytes }

end Body

/-- Whatever could be marshalled is unmarshalled again: the message and then
the body in it. -/
theorem body_unmarshal_marshalIn (body : Body) (range : RangeOrder body.headers)
    (version type : UInt8) (topic : Bytes) :
    (∃ err, body.marshalIn range version type topic = .error err) ∨
      ∃ data m, body.marshalIn range version type topic = .ok data ∧
        Message.unmarshal data = .ok m ∧ m.version = version ∧ m.type = type ∧ m.topic = topic ∧
        Body.unmarshal body.kind m.body = .ok body := by
  rcases hbody : body.marshal range with err | bytes
  · left
    refine ⟨err, ?_⟩
    rw [Body.marshalIn, hbody]
    rfl
  · have hmarshal : body.marshalIn range version type topic =
        Message.marshal { version := version, type := type, topic := topic, body := bytes } := by
      rw [Body.marshalIn, hbody]
      rfl
    rcases hdata : body.marshalIn range version type topic with err | data
    · exact Or.inl ⟨err, rfl⟩
    · right
      rw [hmarshal] at hdata
      exact ⟨data, _, rfl, unmarshal_marshal hdata, rfl, rfl, rfl, Body.unmarshal_marshal hbody⟩

end Bodies

end Zmq4.DafkaMessages
