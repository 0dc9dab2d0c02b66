import Zmq4.DafkaIndex

namespace Zmq4.DafkaFailedWrites

open ByteCodec DafkaMessages DafkaLog DafkaIndex
open DuplexProgram hiding readFull

def headerSteps (header : Header) : List (String × Bytes) :=
  [("failed to write header key length", bigEndian 2 header.1.length),
    ("failed to write header key", header.1),
    ("failed to write header value length", bigEndian 2 header.2.length),
    ("failed to write header value", header.2)]

def steps (w : Write) : List (String × Bytes) :=
  ("failed to write log entry", w.entry.encode) ::
    ((if 0 < w.record.key.length then [("failed to write key", w.record.key)] else []) ++
      ((if 0 < w.record.value.length then [("failed to write value", w.record.value)] else []) ++
        w.range.entries.flatMap headerSteps))

/-- Which of the writes in a call fail, after how many bytes and with which
error. -/
abbrev Faults := Nat → Option (Nat × Err)

/-- What gets into the file from write number `i` on, and the error. -/
def writeSteps (faults : Faults) : Nat → List (String × Bytes) → Bytes × Option Err
  | _, [] => ([], none)
  | i, (text, bytes) :: rest =>
    match faults i with
    | some (count, err) => (bytes.take count, some (.wrap text err))
    | none =>
      let later := writeSteps faults (i + 1) rest
      (bytes ++ later.1, later.2)

def writeRecord (log : Bytes × PartitionStore) (w : Write) (faults : Faults) :
    (Bytes × PartitionStore) × Option Err :=
  let written := writeSteps faults 0 (steps w)
  match written.2 with
  | some err => ((log.1 ++ written.1, log.2), some err)
  | none => ((log.1 ++ written.1, log.2.enter w.record.offset log.1.length), none)

def writeCalls (log : Bytes × PartitionStore) (calls : List (Write × Faults)) :
    Bytes × PartitionStore :=
  calls.foldl (fun log call => (writeRecord log call.1 call.2).1) log

/-- After any further calls of `writeRecord`, that may fail too, the next call,
every read and the loader give the same on both logs. -/
def Alike (first second : Bytes × PartitionStore) : Prop :=
  ∀ calls,
    (∀ w faults, (writeRecord (writeCalls first calls) w faults).2 =
      (writeRecord (writeCalls second calls) w faults).2) ∧
    (∀ count offset,
      readRecords (writeCalls first calls).1 (writeCalls first calls).2 count offset =
        readRecords (writeCalls second calls).1 (writeCalls second calls).2 count offset) ∧
    ∀ topic partition,
      loadPartitionIndex (writeCalls first calls).1 (newPartition topic partition) =
        loadPartitionIndex (writeCalls second calls).1 (newPartition topic partition)

section Writing

variable {faults : Faults} {i : Nat} {writes : List (String × Bytes)}

theorem writeSteps_eq_none_iff :
    (writeSteps faults i writes).2 = none ↔ ∀ j < writes.length, faults (i + j) = none := by
  induction writes generalizing i with
  | nil => simp [writeSteps]
  | cons write rest ih =>
    rw [writeSteps, List.length_cons]
    constructor
    · intro hnone j hj
      rcases hfault : faults i with _ | ⟨count, err⟩
      · rw [hfault] at hnone
        rcases j with _ | j
        · exact hfault
        · rw [← ih.mp hnone j (by omega)]
          congr 1
          omega
      · rw [hfault] at hnone
        cases hnone
    · intro hfaults
      rw [show faults i = none from hfaults 0 (by omega)]
      refine ih.mpr fun j hj => ?_
      rw [← hfaults (j + 1) (by omega)]
      congr 1
      omega

theorem writeSteps_of_none (hfaults : ∀ j, faults j = none) :
    (writeSteps faults i writes).1 = writes.flatMap Prod.snd := by
  induction writes generalizing i with
  | nil => rfl
  | cons write rest ih =>
    rw [writeSteps, hfaults i, List.flatMap_cons, ← ih]

theorem flatMap_steps (w : Write) : (steps w).flatMap Prod.snd = w.bytes := by
  have hnil : ∀ (text : String) (bytes : Bytes), List.flatMap Prod.snd
      (if 0 < bytes.length then [(text, bytes)] else []) = bytes := by
    intro text bytes
    rcases bytes with _ | ⟨byte, rest⟩ <;> simp
  have hheaders : (w.range.entries.flatMap headerSteps).flatMap Prod.snd =
      w.range.entries.flatMap Write.headerBytes := by
    rw [List.flatMap_assoc]
    congr 1
    funext header
    simp [headerSteps, Write.headerBytes]
  rw [steps, List.flatMap_cons, List.flatMap_append, List.flatMap_append, hnil, hnil, hheaders]
  rfl

theorem writeRecord_of_none (log : Bytes × PartitionStore) (w : Write)
    (hfaults : ∀ j, faults j = none) :
    writeRecord log w faults = (DafkaLog.writeRecord log.1 log.2 w, none) := by
  have hnone : (writeSteps faults 0 (steps w)).2 = none :=
    writeSteps_eq_none_iff.mpr fun j _ => hfaults _
  simp only [writeRecord, hnone, writeSteps_of_none hfaults, flatMap_steps, DafkaLog.writeRecord]

theorem writeSteps_eq_nil_iff {w : Write} :
    (writeSteps faults 0 (steps w)).1 = [] ↔ ∃ err, faults 0 = some (0, err) := by
  have hlength := encode_length w.entry
  have hne : w.entry.encode ≠ [] := by
    intro hnil
    rw [hnil] at hlength
    cases hlength
  rw [steps, writeSteps]
  rcases faults 0 with _ | ⟨count, err⟩
  · simp [hne]
  · simp [hne]

end Writing

section Loading

variable {pos : Nat} {p p' : PartitionStore}

theorem zeros_add (first second : Nat) : zeros (first + second) = zeros first ++ zeros second :=
  List.replicate_add ..

theorem zeros_drop (count n : Nat) : (zeros n).drop count = zeros (n - count) :=
  List.drop_replicate

theorem loadFrom_padded (buffer : Bytes) {n : Nat} (hn : 1045 ≤ n) :
    loadFrom pos (buffer ++ zeros n) p =
      loadFrom (pos + stride (buffer ++ zeros 1045))
        ((buffer ++ zeros n).drop (stride (buffer ++ zeros 1045)))
        (p.enter (frontEntry (buffer ++ zeros 1045)).offset pos) := by
  have hcount := (frontEntry (buffer ++ zeros 1045)).headerCount.toNat_lt
  have hload := loadFrom_stride (buffer ++ zeros 1045)
    (by rw [List.length_append, zeros_length, entrySize]; omega) pos (zeros (n - 1045)) p
  rwa [List.append_assoc, ← zeros_add, Nat.add_sub_of_le hn] at hload

theorem loadFrom_settles (buffer : Bytes) (pos : Nat) (p : PartitionStore) :
    ∃ past p', ∀ n, past + 1045 ≤ n →
      loadFrom pos (buffer ++ zeros n) p =
        loadFrom (pos + buffer.length + past) (zeros (n - past)) p' := by
  induction hlength : buffer.length using Nat.strong_induction_on generalizing buffer pos p with
  | _ length ih =>
    subst hlength
    rcases eq_or_ne buffer [] with rfl | hne
    · exact ⟨0, p, fun n _ => rfl⟩
    have hpos : 0 < buffer.length := List.length_pos_iff.mpr hne
    have hstride : 0 < stride (buffer ++ zeros 1045) := by
      rw [stride, entrySize]
      omega
    rcases le_or_gt (stride (buffer ++ zeros 1045)) buffer.length with hle | hgt
    · obtain ⟨past, p', hpast⟩ := ih (buffer.drop (stride (buffer ++ zeros 1045))).length
        (by rw [List.length_drop]; omega) _ (pos + stride (buffer ++ zeros 1045)) _ rfl
      refine ⟨past, p', fun n hn => ?_⟩
      rw [loadFrom_padded buffer (by omega), List.drop_append_of_le_length hle, hpast n hn,
        List.length_drop]
      congr 2
      omega
    · refine ⟨stride (buffer ++ zeros 1045) - buffer.length,
        p.enter (frontEntry (buffer ++ zeros 1045)).offset pos, fun n hn => ?_⟩
      rw [loadFrom_padded buffer (by omega), List.drop_append, List.drop_eq_nil_of_le hgt.le,
        List.nil_append, zeros_drop]
      congr 1
      omega

theorem loadFrom_zeros (n pos : Nat) (p : PartitionStore) :
    loadFrom pos (zeros (25 + n)) p = loadFrom (pos + 25) (zeros n) (p.enter 0 pos) := by
  have hstride : stride (zeros 25) = 25 := by decide
  have hload := loadFrom_stride (zeros 25) (by decide) pos (zeros n) p
  rwa [hstride, List.drop_left' (zeros_length 25), ← zeros_add] at hload

theorem loadFrom_zeros_isOk (count pos : Nat) (p : PartitionStore) :
    ∃ p', loadFrom pos (zeros (25 * count)) p = .ok p' := by
  induction count generalizing pos p with
  | zero => exact ⟨p, loadFrom_nil pos p⟩
  | succ count ih =>
    rw [Nat.mul_succ, Nat.add_comm, loadFrom_zeros]
    exact ih _ _

theorem entrySize_le_of_load {rest : Bytes} (hne : rest ≠ [])
    (hload : loadFrom pos rest p = .ok p') : entrySize ≤ rest.length := by
  rcases hentry : loadEntry.run rest with ⟨⟨entry, size⟩, behind⟩ | ⟨stop, behind⟩
  · rw [loadEntry, bind_eq_ok_iff] at hentry
    obtain ⟨read, middle, hread, -⟩ := hentry
    have hlength := readEntry_length (rescue_eq_ok (fun _ _ => by simp) hread)
    omega
  · rcases eq_or_ne stop (.fail .eof) with rfl | hstop
    · exact absurd (eq_nil_of_loadEntry_eof hentry) hne
    · rw [loadFrom_stop hstop hentry] at hload
      cases hload

theorem index_of_loadFrom_zeros {n : Nat} (hn : 0 < n)
    (hload : loadFrom pos (zeros n) p = .ok p') : p'.index 0 = some (pos + n - 25) := by
  induction n using Nat.strong_induction_on generalizing pos p with
  | _ n ih =>
    have hne : zeros n ≠ [] := List.ne_nil_of_length_pos (by rwa [zeros_length])
    have hle := entrySize_le_of_load hne hload
    rw [zeros_length] at hle
    obtain ⟨rest, rfl⟩ := Nat.exists_eq_add_of_le hle
    rw [entrySize, loadFrom_zeros] at hload
    rcases rest.eq_zero_or_pos with rfl | hrest
    · rw [zeros, List.replicate_zero, loadFrom_nil] at hload
      cases hload
      exact PartitionStore.enter_index_self ..
    · rw [ih rest (by rw [entrySize]; omega) hrest hload, entrySize]
      congr 1
      omega

/-- A record of zeros: the size of its value is a multiple of 2^32, and is
written as zero. -/
def blank (count : Nat) : Write where
  record :=
    { topic := [], partition := [], offset := 0, key := [], value := zeros (2 ^ 32 * count)
      headers := ∅, timestamp := 0 }
  range := ⟨∅, Finmap.empty_toFinmap⟩
  now := 0

theorem blank_bytes (count : Nat) : (blank count).bytes = zeros (25 + 2 ^ 32 * count) := by
  have hsize : UInt32.ofNat (zeros (2 ^ 32 * count)).length = 0 := by
    apply UInt32.toNat_inj.mp
    rw [zeros_length, UInt32.toNat_ofNat', Nat.mul_mod_right]
    rfl
  have hentry : (blank count).entry = ⟨0, 0, 0, 0, 0⟩ := by
    rw [Write.entry, blank, hsize]
    rfl
  have hpayload : (blank count).payload = zeros (2 ^ 32 * count) :=
    List.append_nil _
  have hzeros : LogEntry.encode ⟨0, 0, 0, 0, 0⟩ = zeros 25 := by decide
  rw [Write.bytes, hentry, hpayload, hzeros, zeros_add]

theorem not_alike_of_written {file written : Bytes} (hwritten : written ≠ []) :
    ¬ Alike (file, p) (file ++ written, p) := by
  intro halike
  have hpos : 0 < written.length := List.length_pos_iff.mpr hwritten
  obtain ⟨past, p₁, hfirst⟩ := loadFrom_settles file 0 (newPartition [] [])
  obtain ⟨past', p₂, hsecond⟩ := loadFrom_settles (file ++ written) 0 (newPartition [] [])
  obtain ⟨count, k, hk, hlarge⟩ : ∃ count k, 25 + 2 ^ 32 * count = past + 25 * k ∧
      1045 + past' ≤ 25 * k := by
    refine ⟨6 * past + 25 * (past' + 1045),
      1 + 1030792151 * past + 2 ^ 32 * (past' + 1045), ?_, ?_⟩ <;> omega
  obtain ⟨-, -, hloads⟩ := halike [(blank count, fun _ => none)]
  have hload := hloads [] []
  simp only [writeCalls, List.foldl_cons, List.foldl_nil, writeRecord_of_none _ _ fun _ => rfl,
    DafkaLog.writeRecord, blank_bytes, loadPartitionIndex] at hload
  rw [hfirst _ (by omega), hsecond _ (by omega), hk, Nat.add_sub_cancel_left] at hload
  obtain ⟨loaded, hloaded⟩ := loadFrom_zeros_isOk k (0 + file.length + past) p₁
  have hplace := index_of_loadFrom_zeros (by omega) hloaded
  rw [hload] at hloaded
  have hplace' := index_of_loadFrom_zeros (by omega) hloaded
  rw [hplace, Option.some.injEq, List.length_append] at hplace'
  omega

/-- A call of `writeRecord` in which a write fails returns an error.  It leaves
no trace if and only if the first write failed before a byte was written. -/
theorem failedWrite_traceless_iff (log : Bytes × PartitionStore) (w : Write) (faults : Faults)
    (hfaults : ∃ i < (steps w).length, faults i ≠ none) :
    ((writeRecord log w faults).2 ≠ none ∧ Alike log (writeRecord log w faults).1) ↔
      ∃ err, faults 0 = some (0, err) := by
  have herr : (writeSteps faults 0 (steps w)).2 ≠ none := by
    obtain ⟨i, hi, hfault⟩ := hfaults
    intro hnone
    refine hfault ?_
    rw [← writeSteps_eq_none_iff.mp hnone i hi, Nat.zero_add]
  obtain ⟨err, herr⟩ := Option.ne_none_iff_exists'.mp herr
  simp only [writeRecord, herr, ne_eq, reduceCtorEq, not_false_eq_true, true_and]
  rw [← writeSteps_eq_nil_iff (w := w)]
  constructor
  · intro halike
    by_contra hwritten
    exact not_alike_of_written hwritten halike
  · intro hnil
    rw [hnil, List.append_nil]
    exact fun _ => ⟨fun _ _ => rfl, fun _ _ => rfl, fun _ _ => rfl⟩

def emptyLog : Bytes × PartitionStore :=
  ([], newPartition [] [])

def diskFull : Faults :=
  fun _ => some (10, .text "no space left on device")

theorem blankWrite_traceless_iff :
    ((writeRecord emptyLog (blank 0) diskFull).2 ≠ none ∧
      Alike emptyLog (writeRecord emptyLog (blank 0) diskFull).1) ↔
      ∃ err, diskFull 0 = some (0, err) :=
  failedWrite_traceless_iff emptyLog (blank 0) diskFull ⟨0, by decide, nofun⟩

/-- Ten bytes of an entry are written, then all of it: the file cannot be loaded
any more. -/
theorem retriedWrite_unloadable :
    (writeRecord emptyLog (blank 0) diskFull).2 =
        some (.wrap "failed to write log entry" (.text "no space left on device")) ∧
      loadPartitionIndex
          (writeCalls emptyLog [(blank 0, diskFull), (blank 0, fun _ => none)]).1 emptyLog.2 =
        .error (.fail (.wrap "failed to read log entry" .unexpectedEof)) ∧
      loadPartitionIndex (writeCalls emptyLog [(blank 0, fun _ => none)]).1 emptyLog.2 =
        .ok (writeCalls emptyLog [(blank 0, fun _ => none)]).2 := by
  refine ⟨rfl, ?_, ?_⟩
  · have hfile : (writeCalls emptyLog [(blank 0, diskFull), (blank 0, fun _ => none)]).1 =
        zeros (25 + 10) := rfl
    rw [hfile, loadPartitionIndex, loadFrom_zeros]
    exact loadFrom_stop (by simp) rfl
  · exact (loadFrom_zeros 0 0 _).trans (loadFrom_nil _ _)

end Loading

end Zmq4.DafkaFailedWrites
