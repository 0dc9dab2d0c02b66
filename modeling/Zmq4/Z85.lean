import Zmq4.DuplexProgram
import Zmq4.RadixCodes
import Mathlib.Data.Nat.Bitwise
import Mathlib.Tactic.NormNum

namespace Zmq4.Z85

open ByteCodec RadixCodes
open DuplexProgram (Err)

def encodedLen (n : Nat) : Nat :=
  n * 5 / 4

def decodedLen (n : Nat) : Nat :=
  n * 4 / 5

def errInvalidLength : Err :=
  .text "z85: invalid input length"

def errInvalidChar : Err :=
  .text "z85: invalid character"

/-- A byte as the verb `%q` of `fmt` prints it. -/
def quote (char : UInt8) : String :=
  let escaped :=
    if char = 7 then "\\a"
    else if char = 8 then "\\b"
    else if char = 9 then "\\t"
    else if char = 10 then "\\n"
    else if char = 11 then "\\v"
    else if char = 12 then "\\f"
    else if char = 13 then "\\r"
    else if char = 39 then "\\'"
    else if char = 92 then "\\\\"
    else if char < 32 ∨ char = 127 then "\\x" ++ showHex char
    else if 127 < char ∧ char ≤ 160 ∨ char = 173 then "\\u00" ++ showHex char
    else showBytes [char]
  "'" ++ escaped ++ "'"

def alphabet : Bytes :=
  ascii ("0123456789abcdefghijklmnopqrstuvwxyzABCDEFGHIJKLMNOPQRSTUVWXYZ" ++
    ".-:+=^!/*?&<>()[]\x7b\x7d@%$#")

def decoder : Bytes :=
  [255, 255, 255, 255, 255, 255, 255, 255, 255, 255, 255, 255, 255, 255, 255, 255,
   255, 255, 255, 255, 255, 255, 255, 255, 255, 255, 255, 255, 255, 255, 255, 255,
   255, 68,  255, 84,  83,  82,  72,  255, 75,  76,  70,  65,  255, 63,  62,  69,
   0,   1,   2,   3,   4,   5,   6,   7,   8,   9,   64,  255, 73,  66,  74,  71,
   81,  36,  37,  38,  39,  40,  41,  42,  43,  44,  45,  46,  47,  48,  49,  50,
   51,  52,  53,  54,  55,  56,  57,  58,  59,  60,  61,  77,  255, 78,  67,  255,
   255, 10,  11,  12,  13,  14,  15,  16,  17,  18,  19,  20,  21,  22,  23,  24,
   25,  26,  27,  28,  29,  30,  31,  32,  33,  34,  35,  79,  255, 80,  255, 255,
   255, 255, 255, 255, 255, 255, 255, 255, 255, 255, 255, 255, 255, 255, 255, 255,
   255, 255, 255, 255, 255, 255, 255, 255, 255, 255, 255, 255, 255, 255, 255, 255,
   255, 255, 255, 255, 255, 255, 255, 255, 255, 255, 255, 255, 255, 255, 255, 255,
   255, 255, 255, 255, 255, 255, 255, 255, 255, 255, 255, 255, 255, 255, 255, 255,
   255, 255, 255, 255, 255, 255, 255, 255, 255, 255, 255, 255, 255, 255, 255, 255,
   255, 255, 255, 255, 255, 255, 255, 255, 255, 255, 255, 255, 255, 255, 255, 255,
   255, 255, 255, 255, 255, 255, 255, 255, 255, 255, 255, 255, 255, 255, 255, 255,
   255, 255, 255, 255, 255, 255, 255, 255, 255, 255, 255, 255, 255, 255, 255, 255]

def alphabetAt (value : Nat) : UInt8 :=
  alphabet.getD value 0

def decoderAt (char : UInt8) : UInt8 :=
  decoder.getD char.toNat 255

def word (b0 b1 b2 b3 : UInt8) : Nat :=
  b0.toNat <<< 24 ||| b1.toNat <<< 16 ||| b2.toNat <<< 8 ||| b3.toNat

def encodeWord (value : Nat) : Bytes :=
  let value3 := value / 85
  let value2 := value3 / 85
  let value1 := value2 / 85
  let value0 := value1 / 85
  [alphabetAt (value0 % 85), alphabetAt (value1 % 85), alphabetAt (value2 % 85),
    alphabetAt (value3 % 85), alphabetAt (value % 85)]

def encodeGroups : Bytes → Bytes
  | b0 :: b1 :: b2 :: b3 :: rest => encodeWord (word b0 b1 b2 b3) ++ encodeGroups rest
  | _ => []

def sourceLength (length divisor : Nat) : Err :=
  .wrap s!"source length {length} not divisible by {divisor}" errInvalidLength

def bufferTooSmall (need got : Nat) : Err :=
  .text s!"z85: destination buffer too small: need {need}, got {got}"

def encode (dst src : Bytes) : Except Err Bytes :=
  if src.length % 4 ≠ 0 then
    .error (sourceLength src.length 4)
  else if dst.length < encodedLen src.length then
    .error (bufferTooSmall (encodedLen src.length) dst.length)
  else
    .ok (encodeGroups src ++ dst.drop (encodeGroups src).length)

def encodeToString (src : Bytes) : Except Err Bytes :=
  if src.length % 4 ≠ 0 then
    .error (sourceLength src.length 4)
  else
    encode (zeros (encodedLen src.length)) src

def decodeChars (position value : Nat) : Bytes → Except Err Nat
  | [] => .ok value
  | char :: rest =>
    if 128 ≤ char then
      .error (.wrap s!"character 0x{showHex char} at position {position}" errInvalidChar)
    else if decoderAt char = 255 then
      .error (.wrap s!"character {quote char} at position {position}" errInvalidChar)
    else
      decodeChars (position + 1) (value * 85 + (decoderAt char).toNat) rest

def decodeGroup (position : Nat) (group : Bytes) : Except Err Nat := do
  let value ← decodeChars position 0 group
  if value > 0xFFFFFFFF then
    .error (.text s!"z85: decoded value overflow at position {position}")
  else
    .ok value

def wordBytes (value : Nat) : Bytes :=
  [UInt8.ofNat (value >>> 24), UInt8.ofNat (value >>> 16), UInt8.ofNat (value >>> 8),
    UInt8.ofNat value]

/-- The loop of `Decode` over the groups of five characters: the bytes it writes, and
how it ends. -/
def decodeGroups (position : Nat) : Bytes → Bytes × Except Err Unit
  | c0 :: c1 :: c2 :: c3 :: c4 :: rest =>
    match decodeGroup position [c0, c1, c2, c3, c4] with
    | .error err => ([], .error err)
    | .ok value =>
      let later := decodeGroups (position + 5) rest
      (wordBytes value ++ later.1, later.2)
  | _ => ([], .ok ())

/-- `Decode`: the destination afterwards, and the number of bytes or an error. -/
def decode (dst src : Bytes) : Bytes × Except Err Nat :=
  if src.length % 5 ≠ 0 then
    (dst, .error (sourceLength src.length 5))
  else if dst.length < decodedLen src.length then
    (dst, .error (bufferTooSmall (decodedLen src.length) dst.length))
  else
    let written := decodeGroups 0 src
    (written.1 ++ dst.drop written.1.length, written.2.map fun _ => written.1.length)

def decodeString (s : Bytes) : Except Err Bytes :=
  if s.length % 5 ≠ 0 then
    .error (sourceLength s.length 5)
  else
    let decoded := decode (zeros (decodedLen s.length)) s
    decoded.2.map fun n => decoded.1.take n

def validateChars (position : Nat) : Bytes → Except Err Unit
  | [] => .ok ()
  | char :: rest =>
    if 128 ≤ char ∨ decoderAt char = 255 then
      .error (.wrap s!"character {quote char} at position {position}" errInvalidChar)
    else
      validateChars (position + 1) rest

def validateString (s : Bytes) : Except Err Unit :=
  if s.length % 5 ≠ 0 then
    .error (.wrap s!"length {s.length} not divisible by 5" errInvalidLength)
  else
    validateChars 0 s

/-! ### The characters and the bytes as digits -/

def charDigit (char : UInt8) : Option Nat :=
  if 128 ≤ char ∨ decoderAt char = 255 then none else some (decoderAt char).toNat

theorem charDigit_alphabetAt : ∀ d < 85, charDigit (alphabetAt d) = some d := by
  decide +kernel

theorem alphabetAt_charDigit :
    ∀ n < 256, ∀ d ∈ charDigit (UInt8.ofNat n), d < 85 ∧ alphabetAt d = UInt8.ofNat n := by
  decide +kernel

def characters : Numerals UInt8 where
  base := 85
  symbol := alphabetAt
  digit := charDigit
  base_pos := by decide
  digit_eq_some_iff := by
    intro char d
    constructor
    · intro hdigit
      have hchar := alphabetAt_charDigit char.toNat char.toNat_lt
      rw [UInt8.ofNat_toNat] at hchar
      exact hchar d hdigit
    · rintro ⟨hd, rfl⟩
      exact charDigit_alphabetAt d hd

def octets : Numerals UInt8 where
  base := 256
  symbol := UInt8.ofNat
  digit byte := some byte.toNat
  base_pos := by decide
  digit_eq_some_iff := by
    intro byte d
    constructor
    · intro hdigit
      obtain rfl := Option.some.inj hdigit
      exact ⟨byte.toNat_lt, UInt8.ofNat_toNat⟩
    · rintro ⟨hd, rfl⟩
      simp [Nat.mod_eq_of_lt hd]

theorem shiftLeft_or_byte (high : Nat) (byte : UInt8) :
    high <<< 8 ||| byte.toNat = high * 256 + byte.toNat := by
  rw [← Nat.shiftLeft_add_eq_or_of_lt byte.toNat_lt, Nat.shiftLeft_eq]

theorem octets_read (b0 b1 b2 b3 : UInt8) :
    octets.read [b0, b1, b2, b3] = some (word b0 b1 b2 b3) := by
  have hword : word b0 b1 b2 b3 =
      ((b0.toNat <<< 8 ||| b1.toNat) <<< 8 ||| b2.toNat) <<< 8 ||| b3.toNat := by
    simp only [word, Nat.shiftLeft_or_distrib, ← Nat.shiftLeft_add]
  rw [hword, shiftLeft_or_byte, shiftLeft_or_byte, shiftLeft_or_byte]
  simp [Numerals.read, Numerals.readFrom, octets]

theorem octets_write (value : Nat) : octets.write 4 value = wordBytes value := by
  have hlow (n : Nat) : UInt8.ofNat (n % 256) = UInt8.ofNat n := UInt8.ofNat_mod_size
  simp [Numerals.write, octets, wordBytes, hlow, Nat.shiftRight_eq_div_pow,
    Nat.div_div_eq_div_mul]

theorem characters_write (value : Nat) : characters.write 5 value = encodeWord value := rfl

theorem word_le (b0 b1 b2 b3 : UInt8) : word b0 b1 b2 b3 ≤ 0xFFFFFFFF := by
  have hword : word b0 b1 b2 b3 < 256 ^ 4 := octets.read_lt (octets_read b0 b1 b2 b3)
  omega

theorem wordBytes_word (b0 b1 b2 b3 : UInt8) :
    wordBytes (word b0 b1 b2 b3) = [b0, b1, b2, b3] := by
  rw [← octets_write]
  exact octets.write_of_read (octets_read b0 b1 b2 b3)

variable {value position : Nat} {src s : Bytes}

theorem word_of_wordBytes {b0 b1 b2 b3 : UInt8} (hvalue : value ≤ 0xFFFFFFFF)
    (hbytes : wordBytes value = [b0, b1, b2, b3]) : word b0 b1 b2 b3 = value := by
  have hread : octets.read (octets.write 4 value) = some value := by
    apply octets.read_write
    change value < 256 ^ 4
    omega
  rw [octets_write, hbytes, octets_read] at hread
  exact Option.some.inj hread

theorem characters_read_encodeWord (hvalue : value ≤ 0xFFFFFFFF) :
    characters.read (encodeWord value) = some value := by
  rw [← characters_write]
  apply characters.read_write
  change value < 85 ^ 5
  omega

/-! ### Groups -/

theorem decodeChars_eq_ok_iff (position : Nat) {result : Nat} {chars : Bytes} :
    decodeChars position value chars = .ok result ↔
      characters.readFrom value chars = some result := by
  induction chars generalizing position value with
  | nil => simp [decodeChars, Numerals.readFrom]
  | cons char chars ih =>
    rw [decodeChars, Numerals.readFrom]
    change _ ↔ (charDigit char).bind _ = _
    split
    · next hhigh => simp [charDigit, hhigh]
    · next hlow =>
        split
        · next hunknown => simp [charDigit, hunknown]
        · next hknown =>
            rw [ih]
            simp [charDigit, hlow, hknown, characters]

theorem decodeGroup_eq_ok_iff {group : Bytes} :
    decodeGroup position group = .ok value ↔
      characters.read group = some value ∧ value ≤ 0xFFFFFFFF := by
  rw [Numerals.read, ← decodeChars_eq_ok_iff position]
  cases hchars : decodeChars position 0 group with
  | error err => simp [decodeGroup, hchars, bind, Except.bind]
  | ok result =>
    simp only [decodeGroup, hchars, bind, Except.bind]
    split
    · next hover =>
        constructor
        · rintro ⟨⟩
        · rintro ⟨⟨⟩, hfits⟩
          omega
    · next hfits =>
        constructor
        · rintro ⟨⟩
          exact ⟨rfl, by omega⟩
        · rintro ⟨⟨⟩, -⟩
          rfl

theorem decodeGroups_append {group : Bytes} (hlength : group.length = 5)
    (hgroup : decodeGroup position group = .ok value) (rest : Bytes) :
    decodeGroups position (group ++ rest) =
      (wordBytes value ++ (decodeGroups (position + 5) rest).1,
        (decodeGroups (position + 5) rest).2) := by
  match group with
  | [c0, c1, c2, c3, c4] =>
    change decodeGroups position (c0 :: c1 :: c2 :: c3 :: c4 :: rest) = _
    rw [decodeGroups, hgroup]

theorem eq_nil_of_short_source (hlength : src.length % 4 = 0)
    (hshort : ∀ b0 b1 b2 b3 rest, src = b0 :: b1 :: b2 :: b3 :: rest → False) : src = [] := by
  match src with
  | [] => rfl
  | [_] | [_, _] | [_, _, _] => simp at hlength
  | b0 :: b1 :: b2 :: b3 :: rest => exact absurd rfl (hshort b0 b1 b2 b3 rest)

theorem eq_nil_of_short_text (hlength : s.length % 5 = 0)
    (hshort : ∀ c0 c1 c2 c3 c4 rest, s = c0 :: c1 :: c2 :: c3 :: c4 :: rest → False) :
    s = [] := by
  match s with
  | [] => rfl
  | [_] | [_, _] | [_, _, _] | [_, _, _, _] => simp at hlength
  | c0 :: c1 :: c2 :: c3 :: c4 :: rest => exact absurd rfl (hshort c0 c1 c2 c3 c4 rest)

theorem decodeGroups_encodeGroups (hlength : src.length % 4 = 0) (position : Nat) :
    decodeGroups position (encodeGroups src) = (src, .ok ()) := by
  induction src using encodeGroups.induct generalizing position with
  | case1 b0 b1 b2 b3 rest ih =>
    have hrest : rest.length % 4 = 0 := by
      simp only [List.length_cons] at hlength
      omega
    have hgroup : decodeGroup position (encodeWord (word b0 b1 b2 b3)) =
        .ok (word b0 b1 b2 b3) :=
      decodeGroup_eq_ok_iff.mpr
        ⟨characters_read_encodeWord (word_le b0 b1 b2 b3), word_le b0 b1 b2 b3⟩
    rw [encodeGroups, decodeGroups_append rfl hgroup, ih hrest, wordBytes_word]
    rfl
  | case2 src hshort =>
    obtain rfl := eq_nil_of_short_source hlength hshort
    rfl

theorem decodeGroups_cons_ok_iff {c0 c1 c2 c3 c4 : UInt8} {rest : Bytes} :
    (decodeGroups position (c0 :: c1 :: c2 :: c3 :: c4 :: rest)).2 = .ok () ↔
      ∃ value, decodeGroup position [c0, c1, c2, c3, c4] = .ok value ∧
        (decodeGroups (position + 5) rest).2 = .ok () := by
  rw [decodeGroups]
  cases hgroup : decodeGroup position [c0, c1, c2, c3, c4] with
  | error | ok => simp

theorem encodeGroups_decodeGroups (hlength : s.length % 5 = 0)
    (hok : (decodeGroups position s).2 = .ok ()) :
    encodeGroups (decodeGroups position s).1 = s ∧
      (decodeGroups position s).1.length % 4 = 0 := by
  induction position, s using decodeGroups.induct with
  | case1 position c0 c1 c2 c3 c4 rest err hgroup =>
    obtain ⟨value, hvalue, -⟩ := decodeGroups_cons_ok_iff.mp hok
    rw [hgroup] at hvalue
    contradiction
  | case2 position c0 c1 c2 c3 c4 rest value hgroup ih =>
    obtain ⟨-, -, hlater⟩ := decodeGroups_cons_ok_iff.mp hok
    have hrest : rest.length % 5 = 0 := by
      simp only [List.length_cons] at hlength
      omega
    obtain ⟨hencode, hmod⟩ := ih hrest hlater
    obtain ⟨hread, hfits⟩ := decodeGroup_eq_ok_iff.mp hgroup
    have hdecode := decodeGroups_append rfl hgroup rest
    simp only [List.cons_append, List.nil_append] at hdecode
    rw [hdecode]
    constructor
    · change encodeWord (word _ _ _ _) ++ encodeGroups (decodeGroups (position + 5) rest).1 = _
      rw [word_of_wordBytes hfits rfl, hencode, ← characters_write,
        show characters.write 5 value = _ from characters.write_of_read hread]
      rfl
    · have hword : (wordBytes value).length = 4 := rfl
      rw [List.length_append, hword]
      omega
  | case3 s position hshort =>
    obtain rfl := eq_nil_of_short_text hlength hshort
    exact ⟨rfl, rfl⟩

/-! ### Strings -/

theorem encodeGroups_length (hlength : src.length % 4 = 0) :
    (encodeGroups src).length = encodedLen src.length ∧ (encodeGroups src).length % 5 = 0 := by
  induction src using encodeGroups.induct with
  | case1 b0 b1 b2 b3 rest ih =>
    have hword : (encodeWord (word b0 b1 b2 b3)).length = 5 := rfl
    simp only [List.length_cons] at hlength
    obtain ⟨hencoded, hmod⟩ := ih (by omega)
    rw [encodedLen] at hencoded
    simp only [encodeGroups, encodedLen, List.length_append, List.length_cons, hword]
    omega
  | case2 src hshort =>
    obtain rfl := eq_nil_of_short_source hlength hshort
    exact ⟨rfl, rfl⟩

theorem encodeToString_eq_ok_iff :
    encodeToString src = .ok s ↔ src.length % 4 = 0 ∧ encodeGroups src = s := by
  by_cases hlength : src.length % 4 = 0
  · have hencoded := (encodeGroups_length hlength).1
    simp [encodeToString, encode, hlength, hencoded, List.drop_eq_nil_of_le]
  · simp [encodeToString, hlength]

theorem decodeString_eq_ok_iff {b : Bytes} :
    decodeString s = .ok b ↔
      s.length % 5 = 0 ∧ (decodeGroups 0 s).2 = .ok () ∧ (decodeGroups 0 s).1 = b := by
  by_cases hlength : s.length % 5 = 0
  · cases hresult : (decodeGroups 0 s).2 with
    | error | ok => simp [decodeString, decode, hlength, hresult, Except.map]
  · simp [decodeString, hlength]

theorem decodeString_encode {b : Bytes} (hencode : encodeToString b = .ok s) :
    decodeString s = .ok b := by
  obtain ⟨hlength, rfl⟩ := encodeToString_eq_ok_iff.mp hencode
  rw [decodeString_eq_ok_iff, decodeGroups_encodeGroups hlength]
  exact ⟨(encodeGroups_length hlength).2, rfl, rfl⟩

theorem encodeToString_decode {b : Bytes} (hdecode : decodeString s = .ok b) :
    encodeToString b = .ok s := by
  obtain ⟨hlength, hok, rfl⟩ := decodeString_eq_ok_iff.mp hdecode
  obtain ⟨hencode, hmod⟩ := encodeGroups_decodeGroups hlength hok
  exact encodeToString_eq_ok_iff.mpr ⟨hmod, hencode⟩

/-- Encoding and decoding are inverse to each other, between the byte strings of a
length divisible by four and the strings that are accepted. -/
theorem decode_encode_inverse :
    (∀ b : Bytes, b.length % 4 = 0 →
      ∃ s, encodeToString b = .ok s ∧ decodeString s = .ok b) ∧
    (∀ s b, decodeString s = .ok b → encodeToString b = .ok s) ∧
    (∀ s, (∃ b, decodeString s = .ok b) ↔ ∃ b, encodeToString b = .ok s) := by
  refine ⟨?_, ?_, ?_⟩
  · intro b hlength
    have hencode : encodeToString b = .ok (encodeGroups b) :=
      encodeToString_eq_ok_iff.mpr ⟨hlength, rfl⟩
    exact ⟨_, hencode, decodeString_encode hencode⟩
  · intro s b hdecode
    exact encodeToString_decode hdecode
  · intro s
    constructor
    · rintro ⟨b, hdecode⟩
      exact ⟨b, encodeToString_decode hdecode⟩
    · rintro ⟨b, hencode⟩
      exact ⟨b, decodeString_encode hencode⟩

/-! ### Validation -/

def groups : Bytes → List Bytes
  | c0 :: c1 :: c2 :: c3 :: c4 :: rest => [c0, c1, c2, c3, c4] :: groups rest
  | _ => []

/-- No group of characters stands for a number of more than 32 bits. -/
def Fits (s : Bytes) : Prop :=
  ∀ group ∈ groups s, ∀ value, characters.read group = some value → value ≤ 0xFFFFFFFF

theorem charDigit_isSome_iff {char : UInt8} :
    (charDigit char).isSome ↔ ¬ (128 ≤ char ∨ decoderAt char = 255) := by
  rw [charDigit]
  split
  · next hinvalid => simp [hinvalid]
  · next hvalid => simp [hvalid]

theorem validateChars_eq_ok_iff {chars : Bytes} :
    validateChars position chars = .ok () ↔ ∀ char ∈ chars, (charDigit char).isSome := by
  induction chars generalizing position with
  | nil => simp [validateChars]
  | cons char chars ih =>
    rw [validateChars, List.forall_mem_cons, charDigit_isSome_iff]
    split
    · next hinvalid => simp [hinvalid]
    · next hvalid => simp [hvalid, ih]

theorem validateString_eq_ok_iff :
    validateString s = .ok () ↔ s.length % 5 = 0 ∧ ∀ char ∈ s, (charDigit char).isSome := by
  by_cases hlength : s.length % 5 = 0
  · simp only [validateString, hlength, ne_eq, not_true_eq_false, if_false, true_and]
    exact validateChars_eq_ok_iff
  · simp [validateString, hlength]

theorem decodeGroups_ok_iff :
    (decodeGroups position s).2 = .ok () ↔
      ∀ group ∈ groups s, ∃ value, characters.read group = some value ∧ value ≤ 0xFFFFFFFF := by
  induction s using groups.induct generalizing position with
  | case1 c0 c1 c2 c3 c4 rest ih =>
    rw [decodeGroups_cons_ok_iff, groups, List.forall_mem_cons, ih]
    simp only [decodeGroup_eq_ok_iff, exists_and_right]
  | case2 s hshort =>
    rw [decodeGroups.eq_2 _ _ hshort, groups.eq_2 _ hshort]
    simp

theorem forall_mem_groups_iff (hlength : s.length % 5 = 0) :
    (∀ group ∈ groups s, (characters.read group).isSome) ↔
      ∀ char ∈ s, (charDigit char).isSome := by
  induction s using groups.induct with
  | case1 c0 c1 c2 c3 c4 rest ih =>
    have hrest : rest.length % 5 = 0 := by
      simp only [List.length_cons] at hlength
      omega
    rw [groups, List.forall_mem_cons, ih hrest, Numerals.read, Numerals.readFrom_isSome_iff]
    simp [characters, and_assoc]
  | case2 s hshort =>
    obtain rfl := eq_nil_of_short_text hlength hshort
    simp [groups]

theorem exists_decodeString_iff :
    (∃ b, decodeString s = .ok b) ↔ validateString s = .ok () ∧ Fits s := by
  simp only [decodeString_eq_ok_iff, validateString_eq_ok_iff, decodeGroups_ok_iff]
  constructor
  · rintro ⟨-, hlength, hgroups, -⟩
    refine ⟨⟨hlength, ?_⟩, ?_⟩
    · rw [← forall_mem_groups_iff hlength]
      intro group hgroup
      obtain ⟨value, hread, -⟩ := hgroups group hgroup
      simp [hread]
    · intro group hgroup value hread
      obtain ⟨value', hread', hfits⟩ := hgroups group hgroup
      rw [hread] at hread'
      obtain rfl := Option.some.inj hread'
      exact hfits
  · rintro ⟨⟨hlength, hchars⟩, hfits⟩
    refine ⟨_, hlength, ?_, rfl⟩
    intro group hgroup
    have hsome := (forall_mem_groups_iff hlength).mpr hchars group hgroup
    obtain ⟨value, hread⟩ := Option.isSome_iff_exists.mp hsome
    exact ⟨value, hread, hfits group hgroup value hread⟩

/-- `ValidateString` and `DecodeString` agree unless all that is wrong with a string is
a group whose number is too large. -/
theorem validateString_agrees_iff (s : Bytes) :
    (validateString s = .ok () ↔ ∃ b, decodeString s = .ok b) ↔
      s.length % 5 ≠ 0 ∨ (∃ char ∈ s, charDigit char = none) ∨ Fits s := by
  have hvalid : ¬ validateString s = .ok () ↔
      s.length % 5 ≠ 0 ∨ ∃ char ∈ s, charDigit char = none := by
    rw [validateString_eq_ok_iff]
    simp only [not_and_or, not_forall, Option.isSome_iff_ne_none, ne_eq, not_not, exists_prop]
  rw [exists_decodeString_iff, ← or_assoc, ← hvalid]
  constructor
  · intro hagree
    by_cases hok : validateString s = .ok ()
    · exact .inr (hagree.mp hok).2
    · exact .inl hok
  · rintro (hrefused | hfits)
    · simp [hrefused]
    · simp [hfits]

theorem validateString_accepts_overflow :
    validateString (ascii "#####") = .ok () ∧
      decodeString (ascii "#####") =
        .error (.text "z85: decoded value overflow at position 0") := by
  decide +kernel

end Zmq4.Z85
