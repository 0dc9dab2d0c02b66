import Zmq4.MalamuteMessages
import Zmq4.ZyreMessages

namespace Zmq4.CutMessages

open ByteCodec BufferReader CutBuffers MapFields
open DuplexProgram hiding readFull
open DafkaMessages (Headers RangeOrder shortString)

variable {α β : Type}

theorem map_error_iff {x : Except Stop α} {f : α → β} :
    (∃ err, x.map f = .error (.fail err)) ↔ ∃ err, x = .error (.fail err) := by
  rcases x with stop | a <;> simp [Except.map]

variable {d data : Bytes} {m : Message}

section Dafka

open DafkaMessages hiding Header

/-- The bytes at the end of the wire form that one `Read` takes. -/
def dafkaLastField : (body : Body) → RangeOrder body.headers → Bytes
  | .storeHello _, range => lastValue range.entries
  | .consumerHello _, range => lastValue range.entries
  | .record _, range => lastValue range.entries
  | .directRecord _, range => lastValue range.entries
  | _, _ => []

theorem framed_headers {headers : Headers} (range : RangeOrder headers) :
    Framed (marshalHeaders range) unmarshalHeaders headers (lastValue range.entries).length := by
  rw [marshalHeaders_eq, unmarshalHeaders_eq]
  exact framed_marshalMap "header" range

theorem refuses_headers_nil : Refuses unmarshalHeaders [] :=
  (refuses_readByte_nil.wrapping _).bind _

theorem framed_dafkaHello (address : Bytes) {headers : Headers} (range : RangeOrder headers) :
    Framed (marshalHello address range) unmarshalHello (address, headers)
      (lastValue range.entries).length := by
  apply ((framed_marshalString _ address).wrapping _).followedBy
    (Or.inr fun _ => refuses_headers_nil.bind _)
  exact (framed_headers range).bind_pure

theorem framed_position (partition : Bytes) (offset : UInt64) :
    Framed (marshalPosition partition offset) unmarshalPosition (partition, offset) 0 := by
  have hoffset : offset.toNat < 256 ^ 8 := by simpa using offset.toNat_lt
  have hlast := ((framed_readUint hoffset).wrapping "failed to read offset").bind_pure
    (f := fun value => (partition, UInt64.ofNat value))
  rw [UInt64.ofNat_toNat] at hlast
  exact ((framed_marshalString _ partition).wrapping _).followedBy
    (Or.inr fun _ => ((refuses_readUint (by decide)).wrapping _).bind _) hlast

theorem framed_record (r : RecordMessage) (range : RangeOrder r.headers) :
    Framed (r.marshal range) RecordMessage.reader r (lastValue range.entries).length := by
  apply (framed_position r.partition r.offset).followedBy (Or.inl rfl)
  apply (framed_marshalSized "key" (by decide) r.key).followedBy
    (Or.inr fun _ => (refuses_sized_nil _ (by decide)).bind _)
  apply (framed_marshalSized "value" (by decide) r.value).followedBy
    (Or.inr fun _ => refuses_headers_nil.bind _)
  exact (framed_headers range).bind_pure

theorem framed_fetch (f : FetchMessage) : Framed f.marshal FetchMessage.reader f 0 := by
  have hcount : f.count.toNat < 256 ^ 4 := by simpa using f.count.toNat_lt
  apply (framed_position f.partition f.offset).followedBy (Or.inl rfl)
  have hlast := ((framed_readUint hcount).wrapping "failed to read count").bind_pure
    (f := fun count => FetchMessage.mk f.partition f.offset (UInt32.ofNat count))
  rwa [UInt32.ofNat_toNat] at hlast

theorem cut_topic {topic : Bytes} (hlength : topic.length ≤ 255) :
    Cut Message.unmarshalTopic (shortString topic) topic.length := by
  apply ((cut_readByte (UInt8.ofNat topic.length)).wrapping _).bind
    (readsOn_of_reads ((reads_readByte _).wrapping _)) (Or.inl rfl)
  rw [UInt8.toNat_ofNat_of_lt' (Nat.lt_succ_of_le hlength)]
  split
  · exact (cut_readSome topic).wrapping _
  · have hnil : topic = [] := List.eq_nil_of_length_eq_zero (by omega)
    subst hnil
    exact .pure []

theorem cut_header (hlength : m.topic.length ≤ 255) :
    Cut Message.reader m.header m.topic.length := by
  have hsignature : Reads (require (protocolSignature1 = protocolSignature1 ∧
      protocolSignature2 = protocolSignature2) (.text ("invalid protocol signature: " ++
        showHex protocolSignature1 ++ " " ++ showHex protocolSignature2))) [] () :=
    fun rest => require_ok rest ⟨rfl, rfl⟩
  have hbyte : ∀ byte, ReadsOn readByte [byte] byte :=
    fun byte => readsOn_of_reads (reads_readByte byte)
  change Cut Message.reader ([protocolSignature1] ++ ([protocolSignature2] ++ ([] ++
    ([m.version] ++ ([m.type] ++ shortString m.topic))))) m.topic.length
  apply (cut_readByte protocolSignature1).bind (hbyte _) (Or.inl rfl)
  apply (cut_readByte protocolSignature2).bind (hbyte _) (Or.inl rfl)
  apply Cut.of_nil.bind (readsOn_of_reads hsignature) (Or.inl rfl)
  apply (cut_readByte m.version).bind (hbyte _) (Or.inl rfl)
  apply (cut_readByte m.type).bind (hbyte _) (Or.inl rfl)
  exact (cut_topic hlength).bind_last fun topic => ⟨_, rfl⟩

theorem message_rejected_iff (hdata : m.marshal = .ok data) (hd : d <+: data)
    (hlt : d.length + m.body.length < data.length) :
    (∃ err, Message.unmarshal d = .error (.fail err)) ↔
      d.length + m.body.length + m.topic.length ≤ data.length := by
  unfold Message.marshal at hdata
  split at hdata
  · cases hdata
  rename_i htopic
  cases hdata
  have hlength : m.header.length = 5 + m.topic.length := by
    simp [Message.header, shortString]
    omega
  rw [List.length_append] at hlt ⊢
  rw [Message.unmarshal]
  split
  · rename_i hshort
    exact ⟨fun _ => by omega, fun _ => ⟨_, rfl⟩⟩
  · have hheader : d <+: m.header :=
      List.prefix_of_prefix_length_le hd (List.prefix_append _ _) (by omega)
    rw [(cut_header (not_lt.mp htopic)).decode_error_iff hheader (by omega)]
    omega

end Dafka

section Malamute

open MalamuteMessages

theorem value_rejected_iff {v : Value} {range : RangeOrder v.attributes}
    (hdata : v.marshal range = .ok data) (hd : d <+: data) (hlt : d.length < data.length) :
    (∃ err, Value.unmarshal v.kind d = .error (.fail err)) ↔
      d.length + (v.lastField range).length ≤ data.length := by
  rcases v with m | m | m | m | m | m | m | m
  · apply map_error_iff.trans
    have hlength := message_length_ge hdata
    rw [Message.unmarshal]
    split
    · rename_i hshort
      refine ⟨fun _ => ?_, fun _ => ⟨_, rfl⟩⟩
      change d.length + m.body.length ≤ data.length
      omega
    · exact ((framed_message m range).cut data hdata).decode_error_iff hd hlt
  · exact map_error_iff.trans
      (((framed_connectionOpen m range).cut data hdata).decode_error_iff hd hlt)
  · exact map_error_iff.trans
      (((framed_streamWrite m range).cut data hdata).decode_error_iff hd hlt)
  · exact (map_error_iff.trans map_error_iff).trans
      (((framed_marshalPattern "stream" m.stream m.pattern range).cut data hdata).decode_error_iff
        hd hlt)
  · exact map_error_iff.trans
      (((framed_mailboxSend m range).cut data hdata).decode_error_iff hd hlt)
  · exact (map_error_iff.trans map_error_iff).trans
      (((framed_marshalPattern "service" m.service m.pattern range).cut data
        hdata).decode_error_iff hd hlt)
  · exact map_error_iff.trans
      (((framed_creditRequest m).cut data hdata).decode_error_iff hd hlt)
  · exact map_error_iff.trans (((framed_error m range).cut data hdata).decode_error_iff hd hlt)

end Malamute

section Zre

open ZyreMessages

theorem header_take_accepted (m : Message) :
    ∃ cut, Message.unmarshal (m.header.take 21) = .ok cut := by
  have hsequence : Reads (readUint 2) (bigEndian 2 m.sequence.toNat) m.sequence.toNat :=
    reads_readUint (by simpa using m.sequence.toNat_lt)
  have hlength : (m.header.take 21).length = 21 := by
    rw [List.length_take, header_length]
    rfl
  have hcut : m.header.take 21 = [protocolSignature1, protocolSignature2, m.version, m.type] ++
      (bigEndian 2 m.sequence.toNat ++ m.senderUUID.val.take 15) := by
    rw [Message.header, List.take_append, List.take_append, bigEndian_length,
      List.take_of_length_le (by simp), List.take_of_length_le (by simp [bigEndian_length])]
    rfl
  rw [Message.unmarshal, if_neg (by omega), hcut]
  have hrun := hsequence.run_bind (f := fun sequence => Message.readUUID >>= fun uuid =>
    readRest >>= fun body => pure (Message.mk m.version m.type (UInt16.ofNat sequence) uuid body))
    (m.senderUUID.val.take 15)
  exact ⟨_, decode_ok hrun⟩

theorem zreMessage_rejected_iff (hd : d <+: m.header ++ m.body) (hlt : d.length < m.header.length) :
    (∃ err, Message.unmarshal d = .error (.fail err)) ↔ d.length + 2 ≤ m.header.length := by
  have hlength := header_length m
  have hheader : d <+: m.header :=
    List.prefix_of_prefix_length_le hd (List.prefix_append _ _) hlt.le
  rcases Nat.lt_or_ge d.length 21 with hshort | hlong
  · rw [Message.unmarshal, if_pos hshort]
    exact ⟨fun _ => by omega, fun _ => ⟨_, rfl⟩⟩
  · have hcut : d = m.header.take 21 := by
      rw [List.prefix_iff_eq_take.mp hheader]
      congr 1
      omega
    obtain ⟨cut, hok⟩ := header_take_accepted m
    rw [hcut, hok]
    constructor
    · rintro ⟨err, herr⟩
      cases herr
    · intro hfit
      rw [List.length_take] at hfit
      omega

theorem zreBody_rejected_iff {body : Body} {range : RangeOrder body.headers}
    (hdata : body.marshal range = .ok data) (hd : d <+: data) (hlt : d.length < data.length) :
    (∃ err, Body.unmarshal body.kind d = .error (.fail err)) ↔
      d.length + (body.lastField range).length ≤ data.length := by
  rcases body with m | m | m | m | m
  · exact map_error_iff.trans (((framed_hello m range).cut data hdata).decode_error_iff hd hlt)
  · exact (map_error_iff.trans map_error_iff).trans
      ((cut_multipart hdata).decode_error_iff hd hlt)
  · exact map_error_iff.trans ((cut_shout hdata).decode_error_iff hd hlt)
  · exact (map_error_iff.trans map_error_iff).trans
      (((framed_groupStatus m.group m.status).cut data hdata).decode_error_iff hd hlt)
  · exact (map_error_iff.trans map_error_iff).trans
      (((framed_groupStatus m.group m.status).cut data hdata).decode_error_iff hd hlt)

end Zre

inductive Sent where
  | dafkaMessage (m : DafkaMessages.Message)
  | dafkaBody (body : DafkaMessages.Body)
  | malamute (v : MalamuteMessages.Value)
  | zreMessage (m : ZyreMessages.Message)
  | zreBody (body : ZyreMessages.Body)

namespace Sent

def headers : Sent → Headers
  | .dafkaBody body => body.headers
  | .malamute v => v.attributes
  | .zreBody body => body.headers
  | _ => ∅

def marshal : (v : Sent) → RangeOrder v.headers → Except Err Bytes
  | .dafkaMessage m, _ => m.marshal
  | .dafkaBody body, range => body.marshal range
  | .malamute v, range => v.marshal range
  | .zreMessage m, _ => m.marshal
  | .zreBody body, range => body.marshal range

def Rejects : Sent → Bytes → Prop
  | .dafkaMessage _, d => ∃ err, DafkaMessages.Message.unmarshal d = .error (.fail err)
  | .dafkaBody body, d => ∃ err, DafkaMessages.Body.unmarshal body.kind d = .error (.fail err)
  | .malamute v, d => ∃ err, MalamuteMessages.Value.unmarshal v.kind d = .error (.fail err)
  | .zreMessage _, d => ∃ err, ZyreMessages.Message.unmarshal d = .error (.fail err)
  | .zreBody body, d => ∃ err, ZyreMessages.Body.unmarshal body.kind d = .error (.fail err)

/-- The body of a message that goes on to the end of the data, without a
length of its own. -/
def openEnd : Sent → Bytes
  | .dafkaMessage m => m.body
  | .zreMessage m => m.body
  | _ => []

/-- The number of bytes in front of the open end that may be cut off unnoticed,
except for all of them. -/
def slack : (v : Sent) → RangeOrder v.headers → Nat
  | .dafkaMessage m, _ => m.topic.length
  | .dafkaBody body, range => (dafkaLastField body range).length
  | .malamute v, range => (v.lastField range).length
  | .zreMessage _, _ => 2
  | .zreBody body, range => (body.lastField range).length

end Sent

/-- A message cut off before its open end is rejected if and only if the cut is
not inside the bytes that a single `Read` takes last. -/
theorem cut_rejected_iff (v : Sent) (range : RangeOrder v.headers) {data d : Bytes}
    (hdata : v.marshal range = .ok data) (hd : d <+: data)
    (hlt : d.length + v.openEnd.length < data.length) :
    v.Rejects d ↔ d.length + v.openEnd.length + v.slack range ≤ data.length := by
  rcases v with m | body | v | m | body
  · exact message_rejected_iff hdata hd hlt
  · rcases body with m | m | m | m | m | m | m | m
    · exact (map_error_iff.trans map_error_iff).trans
        (((framed_dafkaHello m.address range).cut data hdata).decode_error_iff hd hlt)
    · exact (map_error_iff.trans map_error_iff).trans
        (((framed_dafkaHello m.address range).cut data hdata).decode_error_iff hd hlt)
    · exact map_error_iff.trans (((framed_record m range).cut data hdata).decode_error_iff hd hlt)
    · exact (map_error_iff.trans map_error_iff).trans
        (((framed_position m.partition m.offset).cut data hdata).decode_error_iff hd hlt)
    · exact (map_error_iff.trans map_error_iff).trans
        (((framed_position m.partition m.offset).cut data hdata).decode_error_iff hd hlt)
    · exact map_error_iff.trans (((framed_fetch m).cut data hdata).decode_error_iff hd hlt)
    · exact (map_error_iff.trans map_error_iff).trans
        (((framed_record m.toRecord range).cut data hdata).decode_error_iff hd hlt)
    · exact (map_error_iff.trans (map_error_iff.trans map_error_iff)).trans
        (((framed_position m.partition m.offset).cut data hdata).decode_error_iff hd hlt)
  · exact value_rejected_iff hdata hd hlt
  · cases hdata
    change d.length + m.body.length < _ at hlt
    change _ ↔ d.length + m.body.length + 2 ≤ _
    rw [List.length_append] at hlt ⊢
    apply (zreMessage_rejected_iff hd (by omega)).trans
    omega
  · exact zreBody_rejected_iff hdata hd hlt

/-- The topic `ab` of a DAFKA message comes back with a zero in place of its
second byte. -/
def cutTopic : DafkaMessages.Message where
  version := DafkaMessages.protocolVersion
  type := DafkaMessages.messageTypeRecord
  topic := ascii "ab"
  body := []

def zreHeader : ZyreMessages.Message :=
  ZyreMessages.ping

def malamuteFrame : MalamuteMessages.Message where
  type := 10
  version := 1
  sequence := 0
  clientID := []
  attributes := Finmap.singleton [107] [118]
  body := [5, 6]

def malamuteWire : Bytes :=
  [10, 1, 0, 0, 0, 0, 0, 1, 1, 107, 1, 118, 0, 0, 0, 2, 5, 6]

theorem malamuteFrame_cut_rejected_iff :
    (Sent.malamute (.message malamuteFrame)).marshal (singleRange [107] [118]) =
        .ok malamuteWire ∧
      malamuteWire.take 16 <+: malamuteWire ∧
      ((Sent.malamute (.message malamuteFrame)).Rejects (malamuteWire.take 16) ↔
        (malamuteWire.take 16).length + 0 + 2 ≤ malamuteWire.length) := by
  have hdata : (Sent.malamute (.message malamuteFrame)).marshal (singleRange [107] [118]) =
      .ok malamuteWire := by decide
  exact ⟨hdata, List.take_prefix _ _, cut_rejected_iff (.malamute (.message malamuteFrame))
    (singleRange [107] [118]) hdata
    (List.take_prefix 16 _) (by decide)⟩

theorem cut_messages_accepted :
    cutTopic.marshal = .ok [0xAA, 0xA0, 1, 3, 2, 97, 98] ∧
      DafkaMessages.Message.unmarshal [0xAA, 0xA0, 1, 3, 2, 97] =
        .ok { cutTopic with topic := [97, 0] } ∧
      malamuteFrame.marshal (singleRange [107] [118]) = .ok malamuteWire ∧
      (MalamuteMessages.Message.unmarshal (malamuteWire.take 17)).toOption.map
        MalamuteMessages.Message.body = some [5, 0] ∧
      ZyreMessages.Message.unmarshal (zreHeader.header.take 21) =
        .ok { zreHeader with senderUUID := ⟨List.replicate 15 7 ++ [0], by decide⟩ } ∧
      ZyreMessages.WhisperMessage.marshal ⟨[[1, 2]]⟩ = .ok [1, 0, 2, 1, 2] ∧
      ZyreMessages.WhisperMessage.unmarshal [1, 0, 2, 1] = .ok ⟨[[1, 0]]⟩ := by
  decide

end Zmq4.CutMessages
