import Zmq4.DafkaMessages

namespace Zmq4.DafkaLog

open ByteCodec BufferReader DafkaMessages
open DuplexProgram hiding readFull

structure LogEntry where
  offset : UInt64
  timestamp : Int64
  keySize : UInt32
  valueSize : UInt32
  headerCount : UInt8
  deriving DecidableEq

def entrySize : Nat := 25

def LogEntry.encode (entry : LogEntry) : Bytes :=
  bigEndian 8 entry.offset.toNat ++ (bigEndian 8 entry.timestamp.toUInt64.toNat ++
    (bigEndian 4 entry.keySize.toNat ++ (bigEndian 4 entry.valueSize.toNat ++
      [entry.headerCount])))

def LogEntry.decode (bytes : Bytes) : LogEntry where
  offset := UInt64.ofNat (bigEndianValue (slice bytes 0 8))
  timestamp := (UInt64.ofNat (bigEndianValue (slice bytes 8 16))).toInt64
  keySize := UInt32.ofNat (bigEndianValue (slice bytes 16 20))
  valueSize := UInt32.ofNat (bigEndianValue (slice bytes 20 24))
  headerCount := bytes.getD 24 0

structure PartitionStore where
  topic : Bytes
  partition : Bytes
  headOffset : UInt64
  index : UInt64 → Option Nat
  recordCount : UInt64

def PartitionStore.enter (p : PartitionStore) (offset : UInt64) (pos : Nat) : PartitionStore :=
  { p with
    index := Function.update p.index offset (some pos)
    headOffset := if offset > p.headOffset then offset else p.headOffset
    recordCount := p.recordCount + 1 }

namespace PartitionStore

@[simp] theorem enter_index_self (p : PartitionStore) (offset : UInt64) (pos : Nat) :
    (p.enter offset pos).index offset = some pos :=
  Function.update_self ..

theorem enter_index_of_ne (p : PartitionStore) {offset other : UInt64} {pos : Nat}
    (hne : other ≠ offset) : (p.enter offset pos).index other = p.index other :=
  Function.update_of_ne hne ..

end PartitionStore

def newPartition (topic partition : Bytes) : PartitionStore where
  topic := topic
  partition := partition
  headOffset := 0
  index := fun _ => none
  recordCount := 0

structure Write where
  record : Record
  range : RangeOrder record.headers
  now : Int64

namespace Write

def entry (w : Write) : LogEntry where
  offset := w.record.offset
  timestamp := w.now
  keySize := UInt32.ofNat w.record.key.length
  valueSize := UInt32.ofNat w.record.value.length
  headerCount := UInt8.ofNat w.range.entries.length

def headerBytes (header : Header) : Bytes :=
  bigEndian 2 header.1.length ++ header.1 ++ (bigEndian 2 header.2.length ++ header.2)

def payload (w : Write) : Bytes :=
  w.record.key ++ (w.record.value ++ w.range.entries.flatMap headerBytes)

def bytes (w : Write) : Bytes :=
  w.entry.encode ++ w.payload

end Write

/-- All writes to the file succeed. -/
def writeRecord (file : Bytes) (p : PartitionStore) (w : Write) : Bytes × PartitionStore :=
  (file ++ w.bytes, p.enter w.record.offset file.length)

/-- `File.Read`, which reads nothing without error if nothing is asked for. -/
def fileRead (size : Nat) : Reader Bytes :=
  if size = 0 then pure [] else readSome size

def readEntry : Reader LogEntry := do
  let bytes ← readFull entrySize
  pure (LogEntry.decode bytes)

def readHeader : Reader Header := do
  let keyLen ← wrapping "failed to read header key length" (readUint 2)
  let key ← wrapping "failed to read header key" (fileRead keyLen)
  let valueLen ← wrapping "failed to read header value length" (readUint 2)
  let value ← wrapping "failed to read header value" (fileRead valueLen)
  pure ⟨key, value⟩

def readFileHeaders : Nat → Headers → Reader Headers
  | 0, headers => pure headers
  | left + 1, headers => do
      let header ← readHeader
      readFileHeaders left (headers.insert header.1 header.2)

def readRecord (topic partition : Bytes) : Reader Record := do
  let entry ← wrapping "failed to read log entry" readEntry
  let key ← wrapping "failed to read key" (fileRead entry.keySize.toNat)
  let value ← wrapping "failed to read value" (fileRead entry.valueSize.toNat)
  let headers ← readFileHeaders entry.headerCount.toNat ∅
  pure { topic := topic, partition := partition, offset := entry.offset, key := key
         value := value, headers := headers, timestamp := entry.timestamp }

def readRecords (file : Bytes) (p : PartitionStore) : Nat → UInt64 → List Record × Option Stop
  | 0, _ => ([], none)
  | left + 1, offset =>
    match p.index offset with
    | none => ([], none)
    | some pos =>
      match decode (wrapping "failed to read record" (readRecord p.topic p.partition))
          (file.drop pos) with
      | .error stop => ([], some stop)
      | .ok record =>
        let later := readRecords file p left (offset + 1)
        (record :: later.1, later.2)

section Reading

theorem encode_length (entry : LogEntry) : entry.encode.length = entrySize := by
  simp [LogEntry.encode, entrySize]

theorem Write.bytes_length (w : Write) : w.bytes.length = entrySize + w.payload.length := by
  rw [Write.bytes, List.length_append, encode_length]

theorem decode_encode (entry : LogEntry) : LogEntry.decode entry.encode = entry := by
  have hoffset : bigEndianValue (slice entry.encode 0 8) = entry.offset.toNat := by
    rw [LogEntry.encode, ← List.nil_append (bigEndian 8 _ ++ _), slice_append (by simp) (by simp)]
    exact bigEndianValue_bigEndian (by simpa using entry.offset.toNat_lt)
  have htimestamp : bigEndianValue (slice entry.encode 8 16) = entry.timestamp.toUInt64.toNat := by
    rw [LogEntry.encode, slice_append (by simp) (by simp)]
    exact bigEndianValue_bigEndian (by simpa using entry.timestamp.toUInt64.toNat_lt)
  have hkey : bigEndianValue (slice entry.encode 16 20) = entry.keySize.toNat := by
    rw [LogEntry.encode, ← List.append_assoc, slice_append (by simp) (by simp)]
    exact bigEndianValue_bigEndian (by simpa using entry.keySize.toNat_lt)
  have hvalue : bigEndianValue (slice entry.encode 20 24) = entry.valueSize.toNat := by
    rw [LogEntry.encode, ← List.append_assoc, ← List.append_assoc,
      slice_append (by simp) (by simp)]
    exact bigEndianValue_bigEndian (by simpa using entry.valueSize.toNat_lt)
  have hcount : entry.encode.getD 24 0 = entry.headerCount := by
    simp [LogEntry.encode]
  simp only [LogEntry.decode, hoffset, htimestamp, hkey, hvalue, hcount, UInt64.ofNat_toNat,
    UInt32.ofNat_toNat, Int64.toInt64_toUInt64]

theorem reads_readEntry (entry : LogEntry) : Reads readEntry entry.encode entry := by
  have hbytes : Reads (readFull entrySize) entry.encode entry.encode :=
    encode_length entry ▸ reads_readFull entry.encode
  have hentry := hbytes.bind_pure (f := LogEntry.decode)
  rwa [decode_encode] at hentry

theorem reads_fileRead (field : Bytes) : Reads (fileRead field.length) field field := by
  unfold fileRead
  split
  · rename_i hempty
    rw [List.eq_nil_of_length_eq_zero hempty]
    exact .pure []
  · rename_i hne
    exact reads_readSome fun hnil => hne (by rw [hnil]; rfl)

variable {buffer rest : Bytes}

theorem fileRead_length {size : Nat} {bytes : Bytes}
    (hread : (fileRead size).run buffer = .ok bytes rest) : bytes.length = size := by
  unfold fileRead at hread
  split at hread
  · rename_i hzero
    cases hread
    exact hzero.symm
  · exact readSome_length hread

structure HeaderFits (header : Header) : Prop where
  key_lt : header.1.length < 2 ^ 16
  value_lt : header.2.length < 2 ^ 16

structure Fits (record : Record) : Prop where
  key_lt : record.key.length < 2 ^ 32
  value_lt : record.value.length < 2 ^ 32
  count_lt : record.headers.keys.card < 2 ^ 8
  headers : ∀ key value, record.headers.lookup key = some value → HeaderFits ⟨key, value⟩

theorem reads_readHeader {header : Header} (hfits : HeaderFits header) :
    Reads readHeader (Write.headerBytes header) header := by
  rw [Write.headerBytes, List.append_assoc]
  apply ((reads_readUint (by simpa using hfits.key_lt)).wrapping _).bind
  apply ((reads_fileRead header.1).wrapping _).bind
  apply ((reads_readUint (by simpa using hfits.value_lt)).wrapping _).bind
  exact ((reads_fileRead header.2).wrapping _).bind_pure

theorem reads_readFileHeaders {entries : List Header} (hfits : ∀ header ∈ entries, HeaderFits header)
    (headers : Headers) :
    Reads (readFileHeaders entries.length headers) (entries.flatMap Write.headerBytes)
      (insertAll headers entries) := by
  induction entries generalizing headers with
  | nil => exact .pure headers
  | cons header rest ih =>
    obtain ⟨hheader, hrest⟩ := List.forall_mem_cons.mp hfits
    rw [List.flatMap_cons]
    exact (reads_readHeader hheader).bind (ih hrest _)

def Write.readBack (w : Write) (topic partition : Bytes) : Record :=
  { w.record with topic := topic, partition := partition, timestamp := w.now }

theorem reads_readRecord {w : Write} (hfits : Fits w.record) (topic partition : Bytes) :
    Reads (readRecord topic partition) w.bytes (w.readBack topic partition) := by
  have hkey : w.entry.keySize.toNat = w.record.key.length :=
    UInt32.toNat_ofNat_of_lt hfits.key_lt
  have hvalue : w.entry.valueSize.toNat = w.record.value.length :=
    UInt32.toNat_ofNat_of_lt hfits.value_lt
  have hcount : w.entry.headerCount.toNat = w.range.entries.length :=
    UInt8.toNat_ofNat_of_lt (w.range.entries_length ▸ hfits.count_lt)
  have hheaders : ∀ header ∈ w.range.entries, HeaderFits header :=
    fun header hmem => hfits.headers _ _ ((w.range.mem_entries_iff header).mp hmem)
  apply ((reads_readEntry w.entry).wrapping _).bind
  rw [Write.payload, hkey]
  apply ((reads_fileRead w.record.key).wrapping _).bind
  rw [hvalue]
  apply ((reads_fileRead w.record.value).wrapping _).bind
  rw [hcount]
  have hread := (reads_readFileHeaders hheaders ∅).bind_pure
    (f := fun headers => { w.readBack topic partition with headers := headers })
  rwa [insertAll_entries] at hread

theorem readFileHeaders_fits {left : Nat} {before headers : Headers}
    (hbefore : ∀ key value, before.lookup key = some value → HeaderFits ⟨key, value⟩)
    (hread : (readFileHeaders left before).run buffer = .ok headers rest) :
    headers.keys.card ≤ before.keys.card + left ∧
      ∀ key value, headers.lookup key = some value → HeaderFits ⟨key, value⟩ := by
  induction left generalizing buffer before with
  | zero =>
    cases hread
    exact ⟨le_refl _, hbefore⟩
  | succ left ih =>
    rw [readFileHeaders, bind_eq_ok_iff] at hread
    obtain ⟨header, middle, hheader, hread⟩ := hread
    have hnew : ∀ key value, (before.insert header.1 header.2).lookup key = some value →
        HeaderFits ⟨key, value⟩ := by
      intro key value hlookup
      rcases eq_or_ne key header.1 with rfl | hne
      · rw [Finmap.lookup_insert, Option.some.injEq] at hlookup
        subst hlookup
        rw [readHeader, bind_eq_ok_iff] at hheader
        obtain ⟨keyLen, first, hkeyLen, hheader⟩ := hheader
        obtain ⟨key, second, hkey, hheader⟩ := bind_eq_ok_iff.mp hheader
        obtain ⟨valueLen, third, hvalueLen, hheader⟩ := bind_eq_ok_iff.mp hheader
        obtain ⟨value, fourth, hvalue, hpure⟩ := bind_eq_ok_iff.mp hheader
        cases hpure
        constructor
        · rw [fileRead_length (wrapping_eq_ok hkey)]
          exact readUint_lt (wrapping_eq_ok hkeyLen)
        · rw [fileRead_length (wrapping_eq_ok hvalue)]
          exact readUint_lt (wrapping_eq_ok hvalueLen)
      · rw [Finmap.lookup_insert_of_ne _ hne] at hlookup
        exact hbefore key value hlookup
    obtain ⟨hcard, hfits⟩ := ih hnew hread
    have hinsert : (before.insert header.1 header.2).keys.card ≤ before.keys.card + 1 := by
      have hkeys : (before.insert header.1 header.2).keys = insert header.1 before.keys := by
        ext key
        simp [Finmap.mem_keys]
      rw [hkeys]
      exact Finset.card_insert_le _ _
    exact ⟨by omega, hfits⟩

theorem readRecord_fits {topic partition : Bytes} {record : Record}
    (hread : (readRecord topic partition).run buffer = .ok record rest) : Fits record := by
  rw [readRecord, bind_eq_ok_iff] at hread
  obtain ⟨entry, first, -, hread⟩ := hread
  obtain ⟨key, second, hkey, hread⟩ := bind_eq_ok_iff.mp hread
  obtain ⟨value, third, hvalue, hread⟩ := bind_eq_ok_iff.mp hread
  obtain ⟨headers, fourth, hheaders, hpure⟩ := bind_eq_ok_iff.mp hread
  cases hpure
  obtain ⟨hcard, hfits⟩ := readFileHeaders_fits (fun key value hlookup => by simp at hlookup) hheaders
  refine ⟨?_, ?_, ?_, hfits⟩
  · rw [fileRead_length (wrapping_eq_ok hkey)]
    exact entry.keySize.toNat_lt
  · rw [fileRead_length (wrapping_eq_ok hvalue)]
    exact entry.valueSize.toNat_lt
  · have hcount := entry.headerCount.toNat_lt
    rw [Finmap.keys_empty, Finset.card_empty] at hcard
    exact lt_of_le_of_lt hcard (by omega)

end Reading

section Fetching

def contents (record : Record) : Bytes × Bytes × Headers :=
  (record.key, record.value, record.headers)

theorem fits_congr {first second : Record} (hcontents : contents first = contents second) :
    Fits first ↔ Fits second := by
  simp only [contents, Prod.mk.injEq] at hcontents
  obtain ⟨hkey, hvalue, hheaders⟩ := hcontents
  constructor
  · rintro ⟨hkeyLt, hvalueLt, hcount, hfits⟩
    exact ⟨hkey ▸ hkeyLt, hvalue ▸ hvalueLt, hheaders ▸ hcount, hheaders ▸ hfits⟩
  · rintro ⟨hkeyLt, hvalueLt, hcount, hfits⟩
    exact ⟨hkey ▸ hkeyLt, hvalue ▸ hvalueLt, hheaders ▸ hcount, hheaders ▸ hfits⟩

def writeAll (file : Bytes) (p : PartitionStore) (writes : List Write) : Bytes × PartitionStore :=
  writes.foldl (fun log w => writeRecord log.1 log.2 w) (file, p)

theorem writeAll_concat (file : Bytes) (p : PartitionStore) (writes : List Write) (w : Write) :
    writeAll file p (writes ++ [w]) =
      writeRecord (writeAll file p writes).1 (writeAll file p writes).2 w := by
  simp [writeAll]

def lastWritten (writes : List Write) (offset : UInt64) : Option Write :=
  writes.reverse.find? fun w => w.record.offset = offset

theorem lastWritten_concat (writes : List Write) (w : Write) (offset : UInt64) :
    lastWritten (writes ++ [w]) offset =
      if w.record.offset = offset then some w else lastWritten writes offset := by
  rw [lastWritten, List.reverse_append, List.reverse_singleton, List.singleton_append,
    List.find?_cons]
  split
  · rename_i hoffset
    rw [if_pos (of_decide_eq_true hoffset)]
  · rename_i hoffset
    rw [if_neg (of_decide_eq_false hoffset)]
    rfl

/-- The last records written at `offset` and the offsets behind it, up to the
first at which none was written. -/
def fetchable (writes : List Write) : Nat → UInt64 → List Write
  | 0, _ => []
  | left + 1, offset =>
    match lastWritten writes offset with
    | none => []
    | some w => w :: fetchable writes left (offset + 1)

def Indexed (writes : List Write) (log : Bytes × PartitionStore) : Prop :=
  ∀ offset,
    match lastWritten writes offset with
    | none => log.2.index offset = none
    | some w => ∃ before after, log.1 = before ++ (w.bytes ++ after) ∧
        log.2.index offset = some before.length

variable {writes : List Write} {log : Bytes × PartitionStore}

theorem indexed_writeRecord (hlog : Indexed writes log) (w : Write) :
    Indexed (writes ++ [w]) (writeRecord log.1 log.2 w) := by
  intro offset
  rw [lastWritten_concat]
  rcases eq_or_ne w.record.offset offset with rfl | hne
  · rw [if_pos rfl]
    refine ⟨log.1, [], by simp [writeRecord], ?_⟩
    exact PartitionStore.enter_index_self ..
  · rw [if_neg hne]
    have hindex : (writeRecord log.1 log.2 w).2.index offset = log.2.index offset :=
      PartitionStore.enter_index_of_ne log.2 hne.symm
    have hoffset := hlog offset
    split
    · rename_i hnone
      rw [hnone] at hoffset
      exact hindex.trans hoffset
    · rename_i last hlast
      rw [hlast] at hoffset
      obtain ⟨before, after, hfile, hpos⟩ := hoffset
      refine ⟨before, after ++ w.bytes, ?_, hindex.trans hpos⟩
      simp [writeRecord, hfile]

theorem indexed_writeAll (topic partition : Bytes) (writes : List Write) :
    Indexed writes (writeAll [] (newPartition topic partition) writes) := by
  induction writes using List.reverseRecOn with
  | nil =>
    intro offset
    rfl
  | append_singleton writes w ih =>
    rw [writeAll_concat]
    exact indexed_writeRecord ih w

/-- A fetch returned the records of these writes, and no error. -/
def Returns (result : List Record × Option Stop) (writes : List Write) : Prop :=
  result.2 = none ∧ result.1.map contents = writes.map fun w => contents w.record

theorem decode_readRecord_iff (topic partition after : Bytes) (w : Write) :
    (∃ record, decode (wrapping "failed to read record" (readRecord topic partition))
        (w.bytes ++ after) = .ok record ∧ contents record = contents w.record) ↔ Fits w.record := by
  constructor
  · rintro ⟨record, hdecode, hcontents⟩
    obtain ⟨rest, hread⟩ := decode_eq_ok_iff.mp hdecode
    exact (fits_congr hcontents).mp (readRecord_fits (wrapping_eq_ok hread))
  · intro hfits
    have hread := (reads_readRecord hfits topic partition).wrapping "failed to read record" after
    exact ⟨_, decode_ok hread, rfl⟩

theorem readRecords_returns_iff (hlog : Indexed writes log) (count : Nat) (offset : UInt64) :
    Returns (readRecords log.1 log.2 count offset) (fetchable writes count offset) ↔
      ∀ w ∈ fetchable writes count offset, Fits w.record := by
  induction count generalizing offset with
  | zero => simp [readRecords, fetchable, Returns]
  | succ left ih =>
    have hoffset := hlog offset
    rw [readRecords, fetchable]
    rcases hlast : lastWritten writes offset with _ | w
    · rw [hlast] at hoffset
      simp [hoffset, Returns]
    · rw [hlast] at hoffset
      obtain ⟨before, after, hfile, hpos⟩ := hoffset
      have hdrop : log.1.drop before.length = w.bytes ++ after := by
        rw [hfile, List.drop_left]
      have hfirst := decode_readRecord_iff log.2.topic log.2.partition after w
      simp only [hpos, hdrop, List.forall_mem_cons, ← hfirst, ← ih]
      rcases decode (wrapping "failed to read record" (readRecord log.2.topic log.2.partition))
        (w.bytes ++ after) with stop | record
      · simp [Returns]
      · simp [Returns, and_left_comm]

/-- A fetch returns the last record written at each offset if and only if these
records fit the fields of the log. -/
theorem readRecords_writeAll_iff (topic partition : Bytes) (writes : List Write) (offset : UInt64)
    (count : UInt32) :
    Returns
        (readRecords (writeAll [] (newPartition topic partition) writes).1
          (writeAll [] (newPartition topic partition) writes).2 count.toNat offset)
        (fetchable writes count.toNat offset) ↔
      ∀ w ∈ fetchable writes count.toNat offset, Fits w.record :=
  readRecords_returns_iff (indexed_writeAll topic partition writes) count.toNat offset

def headerWrite (offset : UInt64) (length : Nat) : Write where
  record :=
    { topic := ascii "t", partition := ascii "p", offset := offset, key := ascii "k"
      value := ascii "v", timestamp := 0
      headers := (AList.singleton (ascii "h") (zeros length)).toFinmap }
  range := ⟨AList.singleton (ascii "h") (zeros length), rfl⟩
  now := 0

theorem length_lt_of_fits {offset : UInt64} {length : Nat}
    (hfits : Fits (headerWrite offset length).record) : length < 2 ^ 16 := by
  have hmem : ⟨ascii "h", zeros length⟩ ∈ (headerWrite offset length).range.entries :=
    List.mem_singleton_self _
  have hheader := hfits.headers _ _ ((RangeOrder.mem_entries_iff _ _).mp hmem)
  have hvalue := hheader.value_lt
  rwa [zeros_length] at hvalue

theorem fits_headerWrite (offset : UInt64) {length : Nat} (hlength : length < 2 ^ 16) :
    Fits (headerWrite offset length).record := by
  have hkey : (headerWrite offset length).record.key.length = 1 := rfl
  have hvalue : (headerWrite offset length).record.value.length = 1 := rfl
  have hcount : (headerWrite offset length).range.entries.length = 1 := rfl
  have hheader : (ascii "h").length = 1 := rfl
  refine ⟨by omega, by omega, ?_, fun key value hlookup => ?_⟩
  · rw [← (headerWrite offset length).range.entries_length, hcount]
    decide
  · have hmem := ((headerWrite offset length).range.mem_entries_iff ⟨key, value⟩).mpr hlookup
    cases List.mem_singleton.mp hmem
    exact ⟨by rw [hheader]; decide, by rwa [zeros_length]⟩

/-- A header value of 65536 bytes is written with length zero, without error,
and comes back empty. -/
theorem readRecords_long_header :
    fetchable [headerWrite 0 65536] 1 0 = [headerWrite 0 65536] ∧
      ¬ Returns
        (readRecords (writeAll [] (newPartition (ascii "t") (ascii "p")) [headerWrite 0 65536]).1
          (writeAll [] (newPartition (ascii "t") (ascii "p")) [headerWrite 0 65536]).2 1 0)
        [headerWrite 0 65536] := by
  have hfetch : fetchable [headerWrite 0 65536] 1 0 = [headerWrite 0 65536] := rfl
  refine ⟨hfetch, fun hreturns => ?_⟩
  rw [← hfetch] at hreturns
  have hfits := (readRecords_returns_iff (indexed_writeAll _ _ _) 1 0).mp hreturns
  rw [hfetch] at hfits
  exact absurd (length_lt_of_fits (hfits _ List.mem_cons_self)) (by decide)

end Fetching

end Zmq4.DafkaLog
