import Zmq4.CutBuffers
import Zmq4.DafkaMessages

namespace Zmq4.MapFields

open ByteCodec BufferReader CutBuffers
open DuplexProgram hiding readFull
open DafkaMessages (Header Headers RangeOrder shortString marshalString readString
  reads_readString insertAll insertAll_entries marshalEntries marshalHeaders readHeaders
  unmarshalHeaders marshalSized unmarshalSized)

def marshalPairs (noun : String) : List Header → Except Err Bytes
  | [] => .ok []
  | ⟨key, value⟩ :: rest =>
    if key.length > 255 ∨ value.length > 255 then
      .error (.text (noun ++ " key or value too long"))
    else followedBy (.ok (shortString key ++ shortString value)) (marshalPairs noun rest)

def marshalMap (noun : String) {headers : Headers} (range : RangeOrder headers) :
    Except Err Bytes :=
  if range.entries.length > 255 then
    .error (.text ("too many " ++ noun ++ "s: " ++ toString range.entries.length))
  else followedBy (.ok [UInt8.ofNat range.entries.length]) (marshalPairs noun range.entries)

def readPairs (noun : String) : Nat → Nat → Headers → Reader Headers
  | 0, _, headers => pure headers
  | left + 1, i, headers => do
      let key ← wrapping ("failed to read " ++ noun ++ " key " ++ toString i) readString
      let value ← wrapping ("failed to read " ++ noun ++ " value " ++ toString i) readString
      readPairs noun left (i + 1) (headers.insert key value)

def unmarshalMap (noun : String) : Reader Headers := do
  let count ← wrapping ("failed to read " ++ noun ++ " count") readByte
  readPairs noun count.toNat 0 ∅

def singleRange (key value : Bytes) : RangeOrder (Finmap.singleton key value) where
  list := AList.singleton key value
  toFinmap_eq := rfl

def lastValue (entries : List Header) : Bytes :=
  (entries.getLast?.map Sigma.snd).getD []

section Dafka

theorem marshalEntries_eq (entries : List Header) :
    marshalEntries entries = marshalPairs "header" entries := by
  induction entries with
  | nil => rfl
  | cons entry rest ih =>
    rw [marshalEntries, marshalPairs, ih]
    rfl

theorem marshalHeaders_eq {headers : Headers} (range : RangeOrder headers) :
    marshalHeaders range = marshalMap "header" range := by
  rw [marshalHeaders, marshalMap, marshalEntries_eq]
  rfl

theorem readHeaders_eq (left i : Nat) (headers : Headers) :
    readHeaders left i headers = readPairs "header" left i headers := by
  induction left generalizing i headers with
  | zero => rfl
  | succ left ih =>
    rw [readHeaders, readPairs]
    simp only [ih]
    rfl

theorem unmarshalHeaders_eq : unmarshalHeaders = unmarshalMap "header" := by
  rw [unmarshalHeaders, unmarshalMap]
  simp only [readHeaders_eq]
  rfl

end Dafka

section Strings

theorem framed_readUint {width value : Nat} (hvalue : value < 256 ^ width) :
    Framed (.ok (bigEndian width value)) (readUint width) value 0 :=
  Framed.of_reads (reads_readUint hvalue) (cut_readUint width value)

theorem framed_readByte (byte : UInt8) : Framed (.ok [byte]) readByte byte 0 :=
  Framed.of_reads (reads_readByte byte) (cut_readByte byte)

theorem refuses_readString_nil : Refuses readString [] :=
  (refuses_readSome_nil 1).bind _

theorem cut_readString {text : Bytes} (hlength : text.length ≤ 255) :
    Cut readString (shortString text) text.length := by
  have hfirst : Reads (readSome 1) [UInt8.ofNat text.length] [UInt8.ofNat text.length] :=
    reads_readSome (by simp)
  have hcut : Cut (readSome 1) [UInt8.ofNat text.length] 0 :=
    Cut.of_singleton (refuses_readSome_nil 1)
  apply hcut.bind (readsOn_of_reads hfirst) (Or.inl rfl)
  simp only [List.headD_cons, UInt8.toNat_ofNat_of_lt' (Nat.lt_succ_of_le hlength)]
  split
  · rename_i hempty
    rw [List.length_eq_zero_iff.mp hempty]
    exact .pure []
  · exact cut_readSome text

theorem framed_readString {text : Bytes} (hlength : text.length ≤ 255) :
    Framed (.ok (shortString text)) readString text text.length :=
  Framed.of_reads (reads_readString hlength) (cut_readString hlength)

theorem framed_marshalString (name : String) (text : Bytes) :
    Framed (marshalString name text) readString text text.length := by
  unfold marshalString
  split
  · exact .of_error
  · exact framed_readString (by omega)

theorem framed_sized {width : Nat} (name : String) {data : Bytes}
    (hlength : data.length < 256 ^ width) :
    Framed (.ok (bigEndian width data.length ++ data)) (unmarshalSized name width) data
      data.length := by
  apply ((framed_readUint hlength).wrapping _).append (Or.inl rfl)
  split
  · rename_i hpos
    exact (Framed.of_reads (reads_readSome (List.ne_nil_of_length_pos hpos))
      (cut_readSome data)).wrapping _
  · have hnil : data = [] := List.eq_nil_of_length_eq_zero (by omega)
    subst hnil
    exact .of_reads (.pure []) (.pure [])

theorem framed_marshalSized (name : String) {limit width : Nat} (hlimit : limit < 256 ^ width)
    (data : Bytes) :
    Framed (marshalSized name limit width data) (unmarshalSized name width) data
      data.length := by
  unfold marshalSized
  split
  · exact .of_error
  · exact framed_sized name (by omega)

theorem refuses_sized_nil (name : String) {width : Nat} (hwidth : 0 < width) :
    Refuses (unmarshalSized name width) [] :=
  ((refuses_readUint hwidth).wrapping _).bind _

end Strings

section Maps

theorem refuses_unmarshalMap_nil (noun : String) : Refuses (unmarshalMap noun) [] :=
  (refuses_readByte_nil.wrapping _).bind _

theorem framed_marshalPairs (noun : String) (entries : List Header) (i : Nat)
    (headers : Headers) :
    Framed (marshalPairs noun entries) (readPairs noun entries.length i headers)
      (insertAll headers entries) (lastValue entries).length := by
  induction entries generalizing i headers with
  | nil => exact .of_reads (.pure headers) (.pure headers)
  | cons entry rest ih =>
    rw [marshalPairs]
    split
    · exact .of_error
    · have hfits : entry.1.length ≤ 255 ∧ entry.2.length ≤ 255 := by omega
      have hkey := (framed_readString hfits.1).wrapping
        ("failed to read " ++ noun ++ " key " ++ toString i)
      have hvalue := (framed_readString hfits.2).wrapping
        ("failed to read " ++ noun ++ " value " ++ toString i)
      rw [followedBy_append]
      apply hkey.followedBy (Or.inr fun key => (refuses_readString_nil.wrapping _).bind _)
      rcases rest with _ | ⟨next, more⟩
      · rw [marshalPairs, followedBy_nil]
        exact hvalue.bind_pure
      · apply hvalue.followedBy (Or.inr fun value => ((refuses_readString_nil.wrapping _).bind _))
        exact ih _ _

theorem framed_marshalMap (noun : String) {headers : Headers} (range : RangeOrder headers) :
    Framed (marshalMap noun range) (unmarshalMap noun) headers
      (lastValue range.entries).length := by
  unfold marshalMap
  split
  · exact .of_error
  · have hcount : (UInt8.ofNat range.entries.length).toNat = range.entries.length := by
      rw [UInt8.toNat_ofNat']
      omega
    apply ((framed_readByte _).wrapping _).followedBy (Or.inl rfl)
    rw [hcount]
    have hloop := framed_marshalPairs noun range.entries 0 ∅
    rwa [insertAll_entries range] at hloop

end Maps

end Zmq4.MapFields
