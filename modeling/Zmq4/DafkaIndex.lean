import Zmq4.DafkaLog

namespace Zmq4.DafkaIndex

open ByteCodec BufferReader DafkaMessages DafkaLog
open DuplexProgram hiding readFull

def skipHeaders : Nat → Reader Nat
  | 0 => pure 0
  | left + 1 => do
      let keyLen ← wrapping "failed to read header key length" (readUint 2)
      let valueLen ← wrapping "failed to read header value length" (readUint 2)
      let later ← skipHeaders left
      pure ((keyLen + valueLen + 4) % 2 ^ 16 + later)

/-- One round of the loader: the entry, and how far it seeks from where it has
read to. -/
def loadEntry : Reader (LogEntry × Nat) := do
  let entry ← rescue readEntry fun err =>
    failWith (if err = .eof then .eof else .wrap "failed to read log entry" err)
  let headers ← skipHeaders entry.headerCount.toNat
  pure (entry, (entry.keySize + entry.valueSize).toNat + headers)

variable {buffer rest : Bytes} {entry : LogEntry}

theorem readEntry_length (hread : readEntry.run buffer = .ok entry rest) :
    rest.length + entrySize = buffer.length := by
  rw [readEntry, bind_eq_ok_iff] at hread
  obtain ⟨bytes, middle, hbytes, hpure⟩ := hread
  cases hpure
  obtain ⟨hlength, rfl⟩ := readFull_eq_ok_iff.mp hbytes
  rw [List.length_append, hlength]
  omega

variable {left size : Nat}

theorem skipHeaders_length (hskip : (skipHeaders left).run buffer = .ok size rest) :
    rest.length ≤ buffer.length := by
  induction left generalizing buffer size with
  | zero =>
    cases hskip
    exact le_refl _
  | succ left ih =>
    rw [skipHeaders, bind_eq_ok_iff] at hskip
    obtain ⟨keyLen, first, hkey, hskip⟩ := hskip
    obtain ⟨valueLen, second, hvalue, hskip⟩ := bind_eq_ok_iff.mp hskip
    obtain ⟨later, third, hlater, hpure⟩ := bind_eq_ok_iff.mp hskip
    cases hpure
    obtain ⟨keyBytes, -, rfl, -⟩ := readUint_eq_ok_iff.mp (wrapping_eq_ok hkey)
    obtain ⟨valueBytes, -, rfl, -⟩ := readUint_eq_ok_iff.mp (wrapping_eq_ok hvalue)
    have hle := ih hlater
    simp only [List.length_append]
    omega

theorem loadEntry_length (hload : loadEntry.run buffer = .ok (entry, size) rest) :
    rest.length < buffer.length := by
  rw [loadEntry, bind_eq_ok_iff] at hload
  obtain ⟨read, middle, hread, hload⟩ := hload
  obtain ⟨headers, last, hskip, hpure⟩ := bind_eq_ok_iff.mp hload
  cases hpure
  have hentry := readEntry_length (rescue_eq_ok (fun _ _ => by simp) hread)
  have hheaders := skipHeaders_length hskip
  have hsize : entrySize = 25 := rfl
  omega

/-- The loop of `loadPartitionIndex` at position `pos`, where `rest` is left of
the file.  A seek past the end is no error. -/
def loadFrom (pos : Nat) (rest : Bytes) (p : PartitionStore) : Except Stop PartitionStore :=
  match _hload : loadEntry.run rest with
  | .ok (entry, skipSize) behind =>
    loadFrom (pos + (rest.length - behind.length) + skipSize) (behind.drop skipSize)
      (p.enter entry.offset pos)
  | .error (.fail .eof) _ => .ok p
  | .error stop _ => .error stop
termination_by rest.length
decreasing_by
  have hlength := loadEntry_length _hload
  rw [List.length_drop]
  omega

def loadPartitionIndex (file : Bytes) (p : PartitionStore) : Except Stop PartitionStore :=
  loadFrom 0 file p

section Loading

variable {pos : Nat} {rest buffer : Bytes} {p : PartitionStore} {writes : List Write}

theorem loadFrom_entry {behind : Bytes} (hload : loadEntry.run rest = .ok (entry, size) behind) :
    loadFrom pos rest p =
      loadFrom (pos + (rest.length - behind.length) + size) (behind.drop size)
        (p.enter entry.offset pos) := by
  rw [loadFrom]
  split
  · rename_i entry' size' behind' hload'
    rw [hload] at hload'
    cases hload'
    rfl
  · rename_i hload'
    rw [hload] at hload'
    cases hload'
  · rename_i hload'
    rw [hload] at hload'
    cases hload'

theorem loadFrom_stop {behind : Bytes} {stop : Stop} (hne : stop ≠ .fail .eof)
    (hload : loadEntry.run rest = .error stop behind) :
    loadFrom pos rest p = .error stop := by
  rw [loadFrom]
  split
  · rename_i hload'
    rw [hload] at hload'
    cases hload'
  · rename_i hload'
    rw [hload] at hload'
    cases hload'
    exact absurd rfl hne
  · rename_i hload'
    rw [hload] at hload'
    cases hload'
    rfl

theorem loadFrom_nil (pos : Nat) (p : PartitionStore) : loadFrom pos [] p = .ok p := by
  rw [loadFrom]
  rfl

theorem skipHeaders_ne_eof : (skipHeaders left).run buffer ≠ .error (.fail .eof) rest := by
  induction left generalizing buffer with
  | zero =>
    intro heof
    cases heof
  | succ left ih =>
    intro heof
    rw [skipHeaders] at heof
    rcases bind_eq_error_iff.mp heof with hkey | ⟨keyLen, first, -, heof⟩
    · exact wrapping_ne_eof hkey
    rcases bind_eq_error_iff.mp heof with hvalue | ⟨valueLen, second, -, heof⟩
    · exact wrapping_ne_eof hvalue
    rcases bind_eq_error_iff.mp heof with hlater | ⟨later, third, -, hpure⟩
    · exact ih hlater
    · cases hpure

theorem readEntry_eof {err : Err} (hread : readEntry.run buffer = .error (.fail err) rest) :
    err = .eof ↔ buffer = [] := by
  rcases bind_eq_error_iff.mp hread with hfull | ⟨bytes, middle, -, hpure⟩
  · simp only [readFull, EStateM.run] at hfull
    split at hfull
    · cases hfull
    · cases hfull
      simp
  · cases hpure

theorem eq_nil_of_loadEntry_eof (heof : loadEntry.run buffer = .error (.fail .eof) rest) :
    buffer = [] := by
  rw [loadEntry] at heof
  rcases bind_eq_error_iff.mp heof with hentry | ⟨entry, middle, -, heof⟩
  · rcases hread : readEntry.run buffer with ⟨entry, middle⟩ | ⟨stop, middle⟩
    · rw [rescue_ok hread] at hentry
      cases hentry
    · rcases stop with _ | text | err
      · rw [rescue_blocked hread] at hentry
        cases hentry
      · rw [rescue_panicked hread] at hentry
        cases hentry
      · rw [rescue_fail hread, failWith_run] at hentry
        by_contra hne
        rw [if_neg (fun herr => hne ((readEntry_eof hread).mp herr))] at hentry
        cases hentry
  · rcases bind_eq_error_iff.mp heof with hskip | ⟨headers, last, -, hpure⟩
    · exact absurd hskip skipHeaders_ne_eof
    · cases hpure

variable {p' : PartitionStore}

theorem loadFrom_index (hload : loadFrom pos rest p = .ok p') :
    (∀ offset place, p'.index offset = some place → p.index offset = some place ∨ pos ≤ place) ∧
      (rest ≠ [] → ∃ offset place, p'.index offset = some place ∧ pos ≤ place) := by
  induction pos, rest, p using loadFrom.induct with
  | case1 pos rest p entry size behind hentry ih =>
    rw [loadFrom_entry hentry] at hload
    obtain ⟨hplaces, hsome⟩ := ih hload
    refine ⟨fun offset place hplace => ?_, fun _ => ?_⟩
    · rcases hplaces offset place hplace with hentered | hbehind
      · rcases eq_or_ne offset entry.offset with rfl | hne
        · rw [PartitionStore.enter_index_self, Option.some.injEq] at hentered
          exact Or.inr hentered.le
        · rw [PartitionStore.enter_index_of_ne _ hne] at hentered
          exact Or.inl hentered
      · exact Or.inr (by omega)
    · rcases eq_or_ne (behind.drop size) [] with hend | hmore
      · rw [hend, loadFrom_nil] at hload
        cases hload
        exact ⟨entry.offset, pos, PartitionStore.enter_index_self .., le_refl pos⟩
      · obtain ⟨offset, place, hplace, hle⟩ := hsome hmore
        exact ⟨offset, place, hplace, by omega⟩
  | case2 pos rest p behind heof =>
    have hnil := eq_nil_of_loadEntry_eof heof
    subst hnil
    rw [loadFrom_nil] at hload
    cases hload
    exact ⟨fun _ _ hplace => Or.inl hplace, fun hne => absurd rfl hne⟩
  | case3 pos rest p stop behind hne hstop =>
    rw [loadFrom_stop hne hstop] at hload
    cases hload

theorem loadFrom_names (hload : loadFrom pos rest p = .ok p') :
    p'.topic = p.topic ∧ p'.partition = p.partition := by
  induction pos, rest, p using loadFrom.induct with
  | case1 pos rest p entry size behind hentry ih =>
    rw [loadFrom_entry hentry] at hload
    exact ih hload
  | case2 pos rest p behind heof =>
    have hnil := eq_nil_of_loadEntry_eof heof
    subst hnil
    rw [loadFrom_nil] at hload
    cases hload
    exact ⟨rfl, rfl⟩
  | case3 pos rest p stop behind hne hstop =>
    rw [loadFrom_stop hne hstop] at hload
    cases hload

/-- What the loader takes for the lengths of `left` headers: four bytes for each
of them, at the front of the buffer. -/
def takenLengths : Nat → Bytes → Nat
  | 0, _ => 0
  | left + 1, buffer =>
    (bigEndianValue (slice buffer 0 2) + bigEndianValue (slice buffer 2 4) + 4) % 2 ^ 16 +
      takenLengths left (buffer.drop 4)

theorem readUint_two (hlength : 2 ≤ buffer.length) :
    (readUint 2).run buffer = .ok (bigEndianValue (buffer.take 2)) (buffer.drop 2) := by
  apply readUint_eq_ok_iff.mpr
  exact ⟨buffer.take 2, List.length_take_of_le hlength, (List.take_append_drop 2 buffer).symm, rfl⟩

theorem skipHeaders_run (hlength : 4 * left ≤ buffer.length) :
    (skipHeaders left).run buffer = .ok (takenLengths left buffer) (buffer.drop (4 * left)) := by
  induction left generalizing buffer with
  | zero => rfl
  | succ left ih =>
    have hsecond : 2 ≤ (buffer.drop 2).length := by
      rw [List.length_drop]
      omega
    have hrest : 4 * left ≤ (buffer.drop 4).length := by
      rw [List.length_drop]
      omega
    have hkey : (readUint 2).run buffer = _ := readUint_two (by omega)
    have hvalue := readUint_two hsecond
    have hlater := ih hrest
    rw [List.drop_drop] at hvalue
    rw [skipHeaders, bind_ok (wrapping_ok hkey), bind_ok (wrapping_ok hvalue), bind_ok hlater,
      List.drop_drop]
    have hdrop : 4 + 4 * left = 4 * (left + 1) := by omega
    rw [hdrop]
    rfl

/-- How far the loader gets with a record: past its entry, past what it takes
for the lengths of the headers, and then by the sizes it has summed up. -/
def leap (w : Write) : Nat :=
  entrySize + 4 * w.entry.headerCount.toNat +
    ((w.entry.keySize + w.entry.valueSize).toNat +
      takenLengths w.entry.headerCount.toNat w.payload)

theorem entrySize_le_leap (w : Write) : entrySize ≤ leap w := by
  rw [leap]
  omega

/-- Each header has four bytes for its own lengths, so the loader finds as many
as it looks for. -/
theorem headers_le_payload (w : Write) :
    4 * w.entry.headerCount.toNat ≤ w.payload.length := by
  have hcount : w.entry.headerCount.toNat ≤ w.range.entries.length := by
    rw [Write.entry, UInt8.toNat_ofNat']
    exact Nat.mod_le _ _
  have hheaders : ∀ entries : List Header,
      4 * entries.length ≤ (entries.flatMap Write.headerBytes).length := by
    intro entries
    induction entries with
    | nil => exact le_refl 0
    | cons header rest ih =>
      rw [List.flatMap_cons, List.length_append, List.length_cons]
      simp only [Write.headerBytes, List.length_append, bigEndian_length]
      omega
  have hpayload := hheaders w.range.entries
  simp only [Write.payload, List.length_append]
  omega

theorem takenLengths_append (hlength : 4 * left ≤ buffer.length) (rest : Bytes) :
    takenLengths left (buffer ++ rest) = takenLengths left buffer := by
  induction left generalizing buffer with
  | zero => rfl
  | succ left ih =>
    have hfirst : slice (buffer ++ rest) 0 2 = slice buffer 0 2 := by
      simp only [slice, List.drop_zero]
      rw [List.take_append_of_le_length (by omega)]
    have hsecond : slice (buffer ++ rest) 2 4 = slice buffer 2 4 := by
      simp only [slice]
      rw [List.drop_append_of_le_length (by omega),
        List.take_append_of_le_length (by rw [List.length_drop]; omega)]
    rw [takenLengths, takenLengths, hfirst, hsecond, List.drop_append_of_le_length (by omega),
      ih (by rw [List.length_drop]; omega)]

def frontEntry (buffer : Bytes) : LogEntry :=
  LogEntry.decode (buffer.take entrySize)

def stride (buffer : Bytes) : Nat :=
  entrySize + 4 * (frontEntry buffer).headerCount.toNat +
    (((frontEntry buffer).keySize + (frontEntry buffer).valueSize).toNat +
      takenLengths (frontEntry buffer).headerCount.toNat (buffer.drop entrySize))

/-- What the loader does with an entry does not depend on what follows the
lengths that it reads. -/
theorem loadFrom_stride (buffer : Bytes)
    (hlength : entrySize + 4 * (frontEntry buffer).headerCount.toNat ≤ buffer.length)
    (pos : Nat) (rest : Bytes) (p : PartitionStore) :
    loadFrom pos (buffer ++ rest) p =
      loadFrom (pos + stride buffer) ((buffer ++ rest).drop (stride buffer))
        (p.enter (frontEntry buffer).offset pos) := by
  have hread : readEntry.run (buffer ++ rest) =
      .ok (frontEntry buffer) (buffer.drop entrySize ++ rest) := by
    refine bind_ok (readFull_eq_ok_iff.mpr ⟨List.length_take_of_le (by omega), ?_⟩)
    rw [← List.append_assoc, List.take_append_drop]
  have hheaders : 4 * (frontEntry buffer).headerCount.toNat ≤ (buffer.drop entrySize).length := by
    rw [List.length_drop]
    omega
  have hskip := skipHeaders_run (hheaders.trans (List.sublist_append_left _ rest).length_le)
  rw [takenLengths_append hheaders] at hskip
  have hload : loadEntry.run (buffer ++ rest) = _ :=
    (bind_ok (rescue_ok hread)).trans (bind_ok hskip)
  have hsize : entrySize = 25 := rfl
  have hgone : (buffer ++ rest).length - ((buffer.drop entrySize ++ rest).drop
      (4 * (frontEntry buffer).headerCount.toNat)).length =
        entrySize + 4 * (frontEntry buffer).headerCount.toNat := by
    simp only [List.length_append, List.length_drop]
    omega
  rw [loadFrom_entry hload, hgone, List.drop_drop, stride,
    ← List.drop_append_of_le_length (by omega), List.drop_drop]
  simp only [Nat.add_assoc]

theorem loadFrom_write (pos : Nat) (w : Write) (rest : Bytes) (p : PartitionStore) :
    loadFrom pos (w.bytes ++ rest) p =
      loadFrom (pos + leap w) ((w.bytes ++ rest).drop (leap w)) (p.enter w.record.offset pos) := by
  have hentry : frontEntry w.bytes = w.entry := by
    rw [frontEntry, Write.bytes, ← encode_length w.entry, List.take_left, decode_encode]
  have hpayload : w.bytes.drop entrySize = w.payload := by
    rw [Write.bytes, ← encode_length w.entry, List.drop_left]
  have hstride : stride w.bytes = leap w := by
    rw [stride, hentry, hpayload, leap]
  have hload := loadFrom_stride w.bytes
    (by rw [hentry, w.bytes_length]; have := headers_le_payload w; omega) pos rest p
  rwa [hstride, hentry] at hload

variable {w : Write}

theorem loadFrom_writeAll (hleaps : ∀ w ∈ writes, leap w = w.bytes.length) (p : PartitionStore)
    (rest : Bytes) :
    loadFrom 0 ((writeAll [] p writes).1 ++ rest) p =
      loadFrom (writeAll [] p writes).1.length rest (writeAll [] p writes).2 := by
  induction writes using List.reverseRecOn generalizing rest with
  | nil => rfl
  | append_singleton writes w ih =>
    have hlast : leap w = w.bytes.length := hleaps w (by simp)
    have hwrites : ∀ v ∈ writes, leap v = v.bytes.length :=
      fun v hv => hleaps v (by simp [hv])
    rw [writeAll_concat]
    simp only [writeRecord]
    rw [List.append_assoc, ih hwrites, loadFrom_write, hlast, List.drop_left, List.length_append]

theorem writeAll_index_lt (topic partition : Bytes) (writes : List Write) {offset : UInt64}
    {place : Nat}
    (hplace : (writeAll [] (newPartition topic partition) writes).2.index offset = some place) :
    place < (writeAll [] (newPartition topic partition) writes).1.length := by
  have hindexed := indexed_writeAll topic partition writes offset
  rcases hlast : lastWritten writes offset with _ | w
  · rw [hlast] at hindexed
    rw [hindexed] at hplace
    cases hplace
  · rw [hlast] at hindexed
    obtain ⟨before, after, hfile, hindex⟩ := hindexed
    rw [hindex, Option.some.injEq] at hplace
    have hpos : entrySize = 25 := rfl
    rw [hfile, List.length_append, List.length_append, w.bytes_length]
    omega

/-- The loader finds in the file what the writing process holds. -/
def Reloads (topic partition : Bytes) (writes : List Write) : Prop :=
  loadPartitionIndex (writeAll [] (newPartition topic partition) writes).1
      (newPartition topic partition) =
    .ok (writeAll [] (newPartition topic partition) writes).2

theorem reloads_concat_eq (topic partition : Bytes) (hleaps : ∀ w ∈ writes, leap w = w.bytes.length)
    (w : Write) (rest : Bytes) :
    loadPartitionIndex ((writeAll [] (newPartition topic partition) (writes ++ [w])).1 ++ rest)
        (newPartition topic partition) =
      loadFrom ((writeAll [] (newPartition topic partition) writes).1.length + leap w)
        ((w.bytes ++ rest).drop (leap w))
        (writeAll [] (newPartition topic partition) (writes ++ [w])).2 := by
  rw [writeAll_concat, loadPartitionIndex]
  simp only [writeRecord]
  rw [List.append_assoc, loadFrom_writeAll hleaps, loadFrom_write]

theorem reloads_concat_iff (topic partition : Bytes)
    (hleaps : ∀ w ∈ writes, leap w = w.bytes.length) (w : Write) :
    Reloads topic partition (writes ++ [w]) ↔ w.bytes.length ≤ leap w := by
  have hload := reloads_concat_eq topic partition hleaps w []
  simp only [List.append_nil] at hload
  rw [Reloads, hload]
  constructor
  · intro hreload
    by_contra hlt
    have hrest : w.bytes.drop (leap w) ≠ [] := by
      rw [ne_eq, List.drop_eq_nil_iff]
      exact hlt
    obtain ⟨offset, place, hplace, hle⟩ := (loadFrom_index hreload).2 hrest
    have hsize : entrySize = 25 := rfl
    have hleap := entrySize_le_leap w
    rw [writeAll_concat] at hplace
    rcases eq_or_ne offset w.record.offset with rfl | hne
    · rw [writeRecord, PartitionStore.enter_index_self, Option.some.injEq] at hplace
      omega
    · rw [writeRecord, PartitionStore.enter_index_of_ne _ hne] at hplace
      have hlt := writeAll_index_lt topic partition writes hplace
      omega
  · intro hle
    rw [List.drop_eq_nil_of_le hle, loadFrom_nil]

theorem not_reloads_of_lt (topic partition : Bytes) (hleaps : ∀ w ∈ writes, leap w = w.bytes.length)
    {v : Write} (hlt : v.bytes.length < leap v) (w : Write) :
    ¬ Reloads topic partition (writes ++ [v] ++ [w]) := by
  have hload := reloads_concat_eq topic partition hleaps v w.bytes
  have hlength : (writeAll [] (newPartition topic partition) (writes ++ [v])).1.length =
      (writeAll [] (newPartition topic partition) writes).1.length + v.bytes.length := by
    rw [writeAll_concat, writeRecord, List.length_append]
  intro hreload
  rw [Reloads, writeAll_concat _ _ (writes ++ [v])] at hreload
  simp only [writeRecord] at hreload
  rw [hload] at hreload
  rcases (loadFrom_index hreload).1 _ _ (PartitionStore.enter_index_self ..) with hbefore | hbehind
  · exact absurd (writeAll_index_lt topic partition _ hbefore) (lt_irrefl _)
  · omega

theorem leaps_of_reloads (topic partition : Bytes)
    (hleaps : ∀ w ∈ writes.dropLast, leap w = w.bytes.length)
    (hlast : ∀ w ∈ writes.getLast?, w.bytes.length ≤ leap w)
    (hreload : Reloads topic partition (writes ++ [w])) :
    ∀ v ∈ writes, leap v = v.bytes.length := by
  rcases List.eq_nil_or_concat writes with rfl | ⟨before, v, rfl⟩
  · simp
  · rw [List.concat_eq_append] at hleaps hlast hreload ⊢
    rw [List.dropLast_concat] at hleaps
    rcases (hlast v (by simp)).lt_or_eq with hlt | heq
    · exact absurd hreload (not_reloads_of_lt topic partition hleaps hlt w)
    · exact List.forall_mem_append.mpr ⟨hleaps, List.forall_mem_singleton.mpr heq.symm⟩

/-- At every moment the index can be rebuilt from the file, if and only if the
loader gets from each record exactly to the next, and with the last record at
least to the end of the file. -/
theorem reloads_prefixes_iff (topic partition : Bytes) (writes : List Write) :
    (∀ first, first <+: writes → Reloads topic partition first) ↔
      (∀ w ∈ writes.dropLast, leap w = w.bytes.length) ∧
        ∀ w ∈ writes.getLast?, w.bytes.length ≤ leap w := by
  induction writes using List.reverseRecOn with
  | nil =>
    constructor
    · intro _
      exact ⟨fun w hw => by simp at hw, fun w hw => by simp at hw⟩
    · intro _ first hfirst
      rw [List.prefix_nil.mp hfirst, Reloads, loadPartitionIndex]
      exact loadFrom_nil 0 _
  | append_singleton writes w ih =>
    have hprefixes : (∀ first, first <+: writes ++ [w] → Reloads topic partition first) ↔
        (∀ first, first <+: writes → Reloads topic partition first) ∧
          Reloads topic partition (writes ++ [w]) := by
      simp only [List.prefix_concat_iff, or_imp, forall_and, forall_eq]
      exact and_comm
    rw [hprefixes, ih, List.dropLast_concat, List.getLast?_concat]
    simp only [Option.mem_some_iff, forall_eq']
    constructor
    · rintro ⟨⟨hleaps, hlast⟩, hreload⟩
      have hall := leaps_of_reloads topic partition hleaps hlast hreload
      exact ⟨hall, (reloads_concat_iff topic partition hall w).mp hreload⟩
    · rintro ⟨hleaps, hlast⟩
      refine ⟨⟨fun v hv => hleaps v (List.mem_of_mem_dropLast hv), fun v hv => ?_⟩,
        (reloads_concat_iff topic partition hleaps w).mpr hlast⟩
      exact (hleaps v (List.mem_of_mem_getLast? hv)).ge

/-- Two records with an ordinary header: the loader takes the key and the value
of the first one for the length of its header. -/
theorem not_reloads_headers :
    Fits (headerWrite 0 0).record ∧ Fits (headerWrite 1 0).record ∧
      ¬ Reloads (ascii "t") (ascii "p") [headerWrite 0 0, headerWrite 1 0] := by
  refine ⟨fits_headerWrite 0 (by decide), fits_headerWrite 1 (by decide), ?_⟩
  have hlt : (headerWrite 0 0).bytes.length < leap (headerWrite 0 0) := by decide
  have hnone : ∀ w ∈ ([] : List Write), leap w = w.bytes.length := by simp
  exact not_reloads_of_lt (ascii "t") (ascii "p") hnone hlt (headerWrite 1 0)

theorem leap_of_no_headers (hheaders : w.range.entries = [])
    (hsize : w.record.key.length + w.record.value.length < 2 ^ 32) :
    leap w = w.bytes.length := by
  have hcount : w.entry.headerCount = 0 := by
    rw [Write.entry, hheaders]
    rfl
  have hsum : (w.entry.keySize + w.entry.valueSize).toNat =
      w.record.key.length + w.record.value.length := by
    rw [Write.entry, ← UInt32.ofNat_add]
    exact UInt32.toNat_ofNat_of_lt hsize
  have hpayload : w.payload.length = w.record.key.length + w.record.value.length := by
    simp [Write.payload, hheaders]
  rw [leap, hcount, hsum, w.bytes_length, hpayload]
  rfl

theorem reloads_of_no_headers (topic partition : Bytes)
    (hheaders : ∀ w ∈ writes, w.range.entries = [])
    (hsize : ∀ w ∈ writes, w.record.key.length + w.record.value.length < 2 ^ 32) :
    Reloads topic partition writes := by
  have hleaps : ∀ w ∈ writes, leap w = w.bytes.length :=
    fun w hw => leap_of_no_headers (hheaders w hw) (hsize w hw)
  have hload := loadFrom_writeAll hleaps (newPartition topic partition) []
  rw [List.append_nil, loadFrom_nil] at hload
  exact hload

end Loading

end Zmq4.DafkaIndex
