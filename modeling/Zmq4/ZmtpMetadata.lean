import Zmq4.DuplexProgram

/-!
Connection metadata and its encoding (`protocol_zmtp.go`).

A map is the list of its entries in the order an iteration visits them, so a
statement about every list of entries is about every iteration order.
-/

namespace Zmq4.ZmtpMetadata

open ByteCodec DuplexProgram

/-- What the code takes from elsewhere: lower-casing outside ASCII, the title
caser, and the capacity the allocator gives to a slice of a requested size. -/
structure Platform where
  unicodeToLower : Bytes → Bytes
  toTitle : Bytes → Bytes
  roundUpSize : Nat → Nat
  le_roundUpSize : ∀ size, size ≤ roundUpSize size

def plainPlatform : Platform where
  unicodeToLower := id
  toTitle := id
  roundUpSize := id
  le_roundUpSize _ := le_rfl

def errEmptyAppMDKey : Err := .text "zmq4: empty application metadata key"
def errDupAppMDKey : Err := .text "zmq4: duplicate application metadata key"

def sysSockType : Bytes := ascii "Socket-Type"
def sysSockId : Bytes := ascii "Identity"

def asciiToLower (byte : UInt8) : UInt8 :=
  if 65 ≤ byte ∧ byte ≤ 90 then byte + 32 else byte

/-- Lower-casing goes byte by byte on ASCII texts and by code point on the
others. -/
def toLower (P : Platform) (text : Bytes) : Bytes :=
  if text.all (· < 0x80) then text.map asciiToLower else P.unicodeToLower text

structure Metadata where
  entries : List (Bytes × Bytes)
  nodup : (entries.map Prod.fst).Nodup

def Metadata.empty : Metadata where
  entries := []
  nodup := by simp

def Metadata.get (md : Metadata) (key : Bytes) : Bytes :=
  (md.entries.lookup key).getD []

def assign (entries : List (Bytes × Bytes)) (key value : Bytes) : List (Bytes × Bytes) :=
  entries.map fun entry => if entry.1 = key then (key, value) else entry

theorem assign_keys (entries : List (Bytes × Bytes)) (key value : Bytes) :
    (assign entries key value).map Prod.fst = entries.map Prod.fst := by
  simp only [assign, List.map_map]
  apply List.map_congr_left
  intro entry _
  by_cases hkey : entry.1 = key
  · simp [hkey]
  · simp [hkey]

def Metadata.set (md : Metadata) (key value : Bytes) : Metadata where
  entries :=
    if key ∈ md.entries.map Prod.fst then assign md.entries key value
    else md.entries ++ [(key, value)]
  nodup := by
    split
    · rw [assign_keys]
      exact md.nodup
    · rename_i hkey
      rw [List.map_append, List.nodup_append]
      refine ⟨md.nodup, by simp, ?_⟩
      intro first hfirst second hsecond heq
      have hsecond' : second = key := by simpa using hsecond
      exact hkey (hsecond' ▸ heq ▸ hfirst)

structure Property where
  key : Bytes
  value : Bytes
  deriving DecidableEq

/-- Write the entry to a buffer with room for `room` bytes.  The bound check
comes first and panics. -/
def Property.read (P : Platform) (prop : Property) (room : Nat) : Except Stop Bytes :=
  if room < 1 + prop.key.length + 4 + prop.value.length then
    .error (.panicked "slice bounds out of range")
  else
    .ok (UInt8.ofNat prop.key.length :: (P.toTitle prop.key).take prop.key.length ++
      (bigEndian 4 prop.value.length ++ prop.value))

/-- Read an entry from the front of `data` and return it with the number of
bytes it took.  Slicing past the end of `data` panics: its capacity is its
length, as for every slice that `make` returns. -/
def Property.write (P : Platform) (data : Bytes) : Except Stop (Property × Nat) :=
  match data with
  | [] => .error (.panicked "index out of range")
  | size :: rest =>
    let klen := size.toNat
    if klen > rest.length + 1 then .error (.fail .unexpectedEof)
    else if klen > rest.length then .error (.panicked "slice bounds out of range")
    else if klen + 4 > rest.length then .error (.panicked "slice bounds out of range")
    else
      let vlen := bigEndianValue (slice rest klen (klen + 4))
      if klen + 4 + vlen > rest.length then .error (.fail .unexpectedEof)
      else
        .ok ({ key := P.toTitle (rest.take klen)
               value := slice rest (klen + 4) (klen + 4 + vlen) },
          1 + klen + 4 + vlen)

structure Buffer where
  bytes : Bytes
  capacity : Nat

/-- Make room for at least 512 more bytes: by reslicing when the capacity
allows it, otherwise by moving to a slice of at least twice the capacity. -/
def Buffer.grow (P : Platform) (buf : Buffer) : Buffer :=
  if buf.bytes.length + 512 ≤ buf.capacity then buf
  else
    { buf with
      capacity := P.roundUpSize (max (buf.bytes.length + 512) (2 * buf.capacity)) }

def Buffer.readFrom (P : Platform) (buf : Buffer) (prop : Property) : Except Stop Buffer :=
  let grown := buf.grow P
  match prop.read P (grown.capacity - grown.bytes.length) with
  | .error stop => .error stop
  | .ok written => .ok { grown with bytes := grown.bytes ++ written }

theorem Buffer.grow_room (P : Platform) (buf : Buffer) :
    (buf.grow P).bytes = buf.bytes ∧ buf.bytes.length + 512 ≤ (buf.grow P).capacity := by
  unfold Buffer.grow
  split
  · exact ⟨rfl, ‹_›⟩
  · exact ⟨rfl, (le_max_left _ _).trans (P.le_roundUpSize _)⟩

def wireProperty (k key v : Bytes) : Property :=
  if k = sysSockId ∨ k = sysSockType then { key := k, value := v }
  else { key := ascii "X-" ++ key, value := v }

/-- The iteration of `MarshalZMTP`, with the lower-cased keys met so far and
the bytes written so far. -/
def marshalLoop (P : Platform) :
    List (Bytes × Bytes) → List Bytes → Buffer → Except Stop Bytes
  | [], _, buf => .ok buf.bytes
  | (k, v) :: rest, keys, buf =>
    if k.length = 0 then .error (.fail errEmptyAppMDKey)
    else
      let key := toLower P k
      if key ∈ keys then .error (.fail errDupAppMDKey)
      else
        match buf.readFrom P (wireProperty k key v) with
        | .error stop => .error stop
        | .ok buf' => marshalLoop P rest (key :: keys) buf'

def Metadata.marshalZmtp (P : Platform) (md : Metadata) : Except Stop Bytes :=
  marshalLoop P md.entries [] { bytes := [], capacity := 0 }

/-- The loop of `UnmarshalZMTP` on the bytes that are left.  Every entry takes
at least five bytes, so as many rounds as there are bytes are enough. -/
def unmarshalLoop (P : Platform) : Nat → Bytes → Program Metadata Unit
  | 0, _ => pure ()
  | rounds + 1, data =>
    if data = [] then pure ()
    else
      match Property.write P data with
      | .error stop => throw stop
      | .ok (prop, size) => do
          modify fun md => md.set (P.toTitle prop.key) prop.value
          unmarshalLoop P rounds (data.drop size)

def unmarshalZmtp (P : Platform) (data : Bytes) : Program Metadata Unit :=
  unmarshalLoop P data.length data

/-- Short entries always fit: the buffer has room for 512 bytes at each. -/
theorem Buffer.readFrom_short (P : Platform) (buf : Buffer) (prop : Property)
    (hshort : prop.key.length + prop.value.length ≤ 507) :
    ∃ buf', buf.readFrom P prop = .ok buf' := by
  obtain ⟨hbytes, hroom⟩ := buf.grow_room P
  have hfits : ¬ (buf.grow P).capacity - (buf.grow P).bytes.length <
      1 + prop.key.length + 4 + prop.value.length := by
    rw [hbytes]
    omega
  simp [Buffer.readFrom, Property.read, hfits]

theorem marshalLoop_short (P : Platform) {entries : List (Bytes × Bytes)} {keys : List Bytes}
    (buf : Buffer) (hnamed : ∀ entry ∈ entries, entry.1 ≠ [])
    (hfresh : ((entries.map fun entry => toLower P entry.1) ++ keys).Nodup)
    (hshort : ∀ entry ∈ entries,
      (wireProperty entry.1 (toLower P entry.1) entry.2).key.length + entry.2.length ≤ 507) :
    ∃ bytes, marshalLoop P entries keys buf = .ok bytes := by
  induction entries generalizing keys buf with
  | nil => exact ⟨buf.bytes, rfl⟩
  | cons entry entries ih =>
    obtain ⟨k, v⟩ := entry
    obtain ⟨hk, hnamed⟩ := List.forall_mem_cons.mp hnamed
    obtain ⟨hkv, hshort⟩ := List.forall_mem_cons.mp hshort
    rw [List.map_cons, List.cons_append, List.nodup_cons] at hfresh
    obtain ⟨hnew, hfresh⟩ := hfresh
    have hvalue : (wireProperty k (toLower P k) v).value = v := by
      unfold wireProperty
      split <;> rfl
    obtain ⟨buf', hbuf⟩ := buf.readFrom_short P (wireProperty k (toLower P k) v)
      (by rw [hvalue]; exact hkv)
    have hkeys : toLower P k ∉ keys := fun hmem => hnew (List.mem_append_right _ hmem)
    have hnext : ((entries.map fun entry => toLower P entry.1) ++
        toLower P k :: keys).Nodup :=
      (List.perm_middle.nodup_iff).mpr (List.nodup_cons.mpr ⟨hnew, hfresh⟩)
    obtain ⟨bytes, hbytes⟩ := ih buf' hnamed hnext hshort
    refine ⟨bytes, ?_⟩
    rw [marshalLoop, if_neg (by simpa using hk)]
    simp only [if_neg hkeys, hbuf]
    exact hbytes

end Zmq4.ZmtpMetadata
