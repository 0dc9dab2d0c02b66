import Mathlib.Data.List.Basic
import Mathlib.Tactic.Ring

namespace Zmq4.ByteCodec

abbrev Bytes := List UInt8

-- Named, so that every module decides membership of byte strings with the same proof.
instance lawfulBEqBytes : LawfulBEq Bytes :=
  inferInstance

def ascii (text : String) : Bytes :=
  text.toList.map fun char => UInt8.ofNat char.toNat

def showBytes (bytes : Bytes) : String :=
  String.ofList (bytes.map fun byte => Char.ofNat byte.toNat)

def showHex (byte : UInt8) : String :=
  String.ofList [Nat.digitChar (byte.toNat / 16), Nat.digitChar (byte.toNat % 16)]

def zeros (length : Nat) : Bytes :=
  List.replicate length 0

@[simp] theorem zeros_length (length : Nat) : (zeros length).length = length := by
  simp [zeros]

def slice (data : Bytes) (low high : Nat) : Bytes :=
  (data.drop low).take (high - low)

theorem slice_length_le (data : Bytes) (low high : Nat) :
    (slice data low high).length ≤ high - low :=
  List.length_take_le _ _

/-- A field that follows `before` and has the width of the slice is read back
exactly.  The offsets are hypotheses so that callers can state them as
literals. -/
theorem slice_append {before field after : Bytes} {low high : Nat}
    (hlow : before.length = low) (hhigh : low + field.length = high) :
    slice (before ++ (field ++ after)) low high = field := by
  subst hlow hhigh
  simp [slice]

def littleEndian : Nat → Nat → Bytes
  | 0, _ => []
  | width + 1, value => UInt8.ofNat value :: littleEndian width (value / 256)

def littleEndianValue : Bytes → Nat
  | [] => 0
  | byte :: rest => byte.toNat + 256 * littleEndianValue rest

@[simp] theorem littleEndian_length (width value : Nat) :
    (littleEndian width value).length = width := by
  induction width generalizing value with
  | zero => rfl
  | succ width ih => simp [littleEndian, ih]

theorem littleEndianValue_littleEndian {width value : Nat}
    (hvalue : value < 256 ^ width) :
    littleEndianValue (littleEndian width value) = value := by
  induction width generalizing value with
  | zero =>
    have hzero : value = 0 := by simpa using hvalue
    subst value
    rfl
  | succ width ih =>
    have hquotient : value / 256 < 256 ^ width := by
      apply Nat.div_lt_of_lt_mul
      rw [pow_succ] at hvalue
      omega
    simp only [littleEndian, littleEndianValue, ih hquotient, UInt8.toNat_ofNat']
    omega

theorem littleEndianValue_lt (bytes : Bytes) : littleEndianValue bytes < 256 ^ bytes.length := by
  induction bytes with
  | nil => simp [littleEndianValue]
  | cons byte rest ih =>
    have hbyte := byte.toNat_lt
    rw [littleEndianValue, List.length_cons, pow_succ]
    omega

def bigEndian (width value : Nat) : Bytes :=
  (littleEndian width value).reverse

def bigEndianValue (bytes : Bytes) : Nat :=
  littleEndianValue bytes.reverse

@[simp] theorem bigEndian_length (width value : Nat) :
    (bigEndian width value).length = width := by
  simp [bigEndian]

theorem bigEndianValue_bigEndian {width value : Nat}
    (hvalue : value < 256 ^ width) :
    bigEndianValue (bigEndian width value) = value := by
  simp [bigEndianValue, bigEndian, littleEndianValue_littleEndian hvalue]

theorem bigEndianValue_lt (bytes : Bytes) : bigEndianValue bytes < 256 ^ bytes.length := by
  rw [bigEndianValue, ← List.length_reverse]
  exact littleEndianValue_lt _

structure FixedBytes (size : Nat) where
  bytes : Bytes
  length_eq : bytes.length = size
  deriving DecidableEq

namespace FixedBytes

variable {size : Nat}

@[simp] theorem bytes_length (array : FixedBytes size) : array.bytes.length = size :=
  array.length_eq

theorem ext_bytes {first second : FixedBytes size} (hbytes : first.bytes = second.bytes) :
    first = second := by
  cases first
  cases second
  simpa using hbytes

/-- Copy a byte string into a zeroed array: what does not fit is dropped and
what is missing stays zero. -/
def ofCopy (size : Nat) (source : Bytes) : FixedBytes size where
  bytes := (source ++ zeros size).take size
  length_eq := by simp

theorem ofCopy_bytes {source : Bytes} (hlength : source.length = size) :
    (ofCopy size source).bytes = source := by
  subst hlength
  simp [ofCopy]

@[simp] theorem ofCopy_self (array : FixedBytes size) : ofCopy size array.bytes = array :=
  ext_bytes (ofCopy_bytes array.length_eq)

end FixedBytes

end Zmq4.ByteCodec
