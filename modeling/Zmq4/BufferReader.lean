import Zmq4.DuplexProgram

namespace Zmq4.BufferReader

open ByteCodec
open DuplexProgram hiding readFull

variable {α β : Type}

abbrev Reader (α : Type) := Program Bytes α

def readFull (size : Nat) : Reader Bytes := fun buffer =>
  if size ≤ buffer.length then .ok (buffer.take size) (buffer.drop size)
  else .error (.fail (if buffer = [] then .eof else .unexpectedEof)) []

/-- One `Read` into a zeroed slice.  At the end of the buffer it fails, also if
nothing is asked for.  Before the end it takes what there is. -/
def readSome (size : Nat) : Reader Bytes := fun buffer =>
  if buffer = [] then .error (.fail .eof) []
  else .ok ((buffer ++ zeros size).take size) (buffer.drop size)

def readByte : Reader UInt8 := fun buffer =>
  match buffer with
  | [] => .error (.fail .eof) []
  | byte :: rest => .ok byte rest

def readRest : Reader Bytes := fun buffer => .ok buffer []

def readUint (width : Nat) : Reader Nat := do
  let bytes ← readFull width
  pure (bigEndianValue bytes)

def decode (x : Reader α) (buffer : Bytes) : Except Stop α :=
  match x.run buffer with
  | .ok a _ => .ok a
  | .error stop _ => .error stop

def onRest (x : Reader α) : Reader α := do
  let remaining ← readRest
  fromExcept (decode x remaining)

variable {x : Reader α} {buffer : Bytes}

theorem decode_ok {rest : Bytes} {a : α} (hx : x.run buffer = .ok a rest) :
    decode x buffer = .ok a := by
  rw [decode, hx]

theorem decode_eq_ok_iff {a : α} : decode x buffer = .ok a ↔ ∃ rest, x.run buffer = .ok a rest := by
  rw [decode]
  cases x.run buffer with
  | ok | error => simp

theorem onRest_ok {rest : Bytes} {a : α} (hx : x.run buffer = .ok a rest) :
    (onRest x).run buffer = .ok a [] := by
  have hrest : readRest.run buffer = .ok buffer [] := rfl
  rw [onRest, bind_ok hrest]
  exact fromExcept_ok [] (decode_ok hx)

def Reads (x : Reader α) (field : Bytes) (a : α) : Prop :=
  ∀ rest, x.run (field ++ rest) = .ok a rest

variable {f : α → Reader β}

namespace Reads

variable {x : Reader α} {field : Bytes} {a : α}

theorem run_bind (hx : Reads x field a) (rest : Bytes) :
    (x >>= f).run (field ++ rest) = (f a).run rest :=
  bind_ok (hx rest)

theorem decode (hx : Reads x field a) : decode x field = .ok a := by
  have hrun := hx []
  rw [List.append_nil] at hrun
  exact decode_ok hrun

theorem pure (a : α) : Reads (Pure.pure a) [] a :=
  fun _ => rfl

theorem bind {first second : Bytes} {b : β} (hx : Reads x first a) (hf : Reads (f a) second b) :
    Reads (x >>= f) (first ++ second) b := by
  intro rest
  rw [List.append_assoc, hx.run_bind]
  exact hf rest

theorem bind_pure {f : α → β} (hx : Reads x field a) :
    Reads (x >>= fun a => Pure.pure (f a)) field (f a) := by
  intro rest
  rw [hx.run_bind]
  rfl

theorem wrapping (message : String) (hx : Reads x field a) : Reads (wrapping message x) field a :=
  fun rest => wrapping_ok (hx rest)

end Reads

def followedBy (first second : Except Err Bytes) : Except Err Bytes := do
  let before ← first
  let after ← second
  pure (before ++ after)

variable {bytes : Bytes}

theorem followedBy_eq_ok_iff {first second : Except Err Bytes} :
    followedBy first second = .ok bytes ↔
      ∃ before after, first = .ok before ∧ second = .ok after ∧ bytes = before ++ after := by
  rcases first with err | before <;> rcases second with err' | after <;>
    simp [followedBy, bind, Except.bind, pure, Except.pure, eq_comm]

theorem followedBy_append (first second : Bytes) (w : Except Err Bytes) :
    followedBy (.ok (first ++ second)) w = followedBy (.ok first) (followedBy (.ok second) w) := by
  rcases w with err | third
  · rfl
  · simp [followedBy, bind, Except.bind, pure, Except.pure]

theorem followedBy_nil (w : Except Err Bytes) : followedBy w (.ok []) = w := by
  rcases w with err | first
  · rfl
  · simp [followedBy, bind, Except.bind, pure, Except.pure]

def Codes (w : Except Err Bytes) (x : Reader α) (a : α) : Prop :=
  ∀ bytes, w = .ok bytes → Reads x bytes a

namespace Codes

variable {x : Reader α} {a : α} {w : Except Err Bytes}

theorem of_reads {field : Bytes} (hx : Reads x field a) : Codes (.ok field) x a := by
  rintro bytes ⟨⟩
  exact hx

theorem decode (hx : Codes w x a) (hw : w = .ok bytes) : decode x bytes = .ok a :=
  (hx bytes hw).decode

theorem followedBy {v : Except Err Bytes} {b : β} (hx : Codes w x a) (hf : Codes v (f a) b) :
    Codes (followedBy w v) (x >>= f) b := by
  intro bytes hbytes
  obtain ⟨before, after, hw, hv, rfl⟩ := followedBy_eq_ok_iff.mp hbytes
  exact (hx before hw).bind (hf after hv)

theorem bind_pure {f : α → β} (hx : Codes w x a) : Codes w (x >>= fun a => pure (f a)) (f a) :=
  fun bytes hw => (hx bytes hw).bind_pure

theorem wrapping (message : String) (hx : Codes w x a) : Codes w (wrapping message x) a :=
  fun bytes hw => (hx bytes hw).wrapping message

end Codes

variable {buffer rest : Bytes}

theorem readFull_eq_ok_iff {size : Nat} :
    (readFull size).run buffer = .ok bytes rest ↔
      bytes.length = size ∧ buffer = bytes ++ rest := by
  simp only [readFull, EStateM.run]
  constructor
  · intro hread
    split at hread
    · rename_i hsize
      cases hread
      exact ⟨List.length_take_of_le hsize, (List.take_append_drop size buffer).symm⟩
    · cases hread
  · rintro ⟨rfl, rfl⟩
    simp

theorem reads_readFull (field : Bytes) : Reads (readFull field.length) field field :=
  fun _ => readFull_eq_ok_iff.mpr ⟨rfl, rfl⟩

theorem reads_readSome {field : Bytes} (hne : field ≠ []) :
    Reads (readSome field.length) field field := by
  intro rest
  simp [readSome, EStateM.run, hne]

theorem readSome_length {size : Nat} (hread : (readSome size).run buffer = .ok bytes rest) :
    bytes.length = size := by
  simp only [readSome, EStateM.run] at hread
  split at hread
  · cases hread
  · cases hread
    rw [List.length_take_of_le]
    simp

theorem readByte_eq_ok_iff {byte : UInt8} :
    readByte.run buffer = .ok byte rest ↔ buffer = byte :: rest := by
  rcases buffer with _ | ⟨first, more⟩ <;> simp [readByte, EStateM.run]

theorem reads_readByte (byte : UInt8) : Reads readByte [byte] byte :=
  fun _ => rfl

variable {width value : Nat}

theorem readUint_eq_ok_iff :
    (readUint width).run buffer = .ok value rest ↔
      ∃ bytes, bytes.length = width ∧ buffer = bytes ++ rest ∧ value = bigEndianValue bytes := by
  rw [readUint, bind_eq_ok_iff]
  constructor
  · rintro ⟨bytes, middle, hread, hpure⟩
    cases hpure
    obtain ⟨hlength, hbuffer⟩ := readFull_eq_ok_iff.mp hread
    exact ⟨bytes, hlength, hbuffer, rfl⟩
  · rintro ⟨bytes, hlength, hbuffer, rfl⟩
    exact ⟨bytes, rest, readFull_eq_ok_iff.mpr ⟨hlength, hbuffer⟩, rfl⟩

theorem readUint_lt (hread : (readUint width).run buffer = .ok value rest) :
    value < 256 ^ width := by
  obtain ⟨bytes, rfl, -, rfl⟩ := readUint_eq_ok_iff.mp hread
  exact bigEndianValue_lt bytes

theorem reads_readUint (hvalue : value < 256 ^ width) :
    Reads (readUint width) (bigEndian width value) value := by
  intro rest
  apply readUint_eq_ok_iff.mpr
  exact ⟨_, bigEndian_length width value, rfl, (bigEndianValue_bigEndian hvalue).symm⟩

end Zmq4.BufferReader
