import Zmq4.ZmtpMetadata

namespace Zmq4.MetadataParsing

open ByteCodec DuplexProgram ZmtpMetadata

/-- `Property.Write` on a slice with the bytes `spare` between its length and its
capacity. -/
def writeSlice (P : Platform) (spare data : Bytes) : Except Stop (Property × Nat) :=
  match data with
  | [] => .error (.panicked "index out of range")
  | size :: rest =>
    let klen := size.toNat
    if klen > rest.length + 1 then .error (.fail .unexpectedEof)
    else if klen > (rest ++ spare).length then .error (.panicked "slice bounds out of range")
    else if klen + 4 > (rest ++ spare).length then
      .error (.panicked "slice bounds out of range")
    else
      let vlen := bigEndianValue (slice (rest ++ spare) klen (klen + 4))
      if klen + 4 + vlen > rest.length then .error (.fail .unexpectedEof)
      else
        .ok ({ key := P.toTitle ((rest ++ spare).take klen)
               value := slice rest (klen + 4) (klen + 4 + vlen) },
          1 + klen + 4 + vlen)

def unmarshalSliceLoop (P : Platform) (spare : Bytes) : Nat → Bytes → Program Metadata Unit
  | 0, _ => pure ()
  | rounds + 1, data =>
    if data = [] then pure ()
    else
      match writeSlice P spare data with
      | .error stop => throw stop
      | .ok (prop, size) => do
          modify fun md => md.set (P.toTitle prop.key) prop.value
          unmarshalSliceLoop P spare rounds (data.drop size)

def unmarshalSlice (P : Platform) (spare p : Bytes) : Program Metadata Unit :=
  unmarshalSliceLoop P spare p.length p

theorem writeSlice_nil (P : Platform) (data : Bytes) :
    writeSlice P [] data = Property.write P data := by
  cases data with
  | nil => rfl
  | cons size rest => simp only [writeSlice, Property.write, List.append_nil]

/-- Without spare room this is the parser of the handshakes. -/
theorem unmarshalSlice_nil (P : Platform) (p : Bytes) :
    unmarshalSlice P [] p = unmarshalZmtp P p := by
  have hloop : ∀ rounds data,
      unmarshalSliceLoop P [] rounds data = unmarshalLoop P rounds data := by
    intro rounds
    induction rounds with
    | zero => exact fun _ => rfl
    | succ rounds ih =>
      intro data
      have hrest : unmarshalSliceLoop P [] rounds = unmarshalLoop P rounds := funext ih
      rw [unmarshalSliceLoop, writeSlice_nil, hrest]
      rfl
  exact hloop p.length p

/-- A complete entry: the length of the key, the key, the length of the value in four
bytes, the value. -/
structure Entry where
  size : UInt8
  key : Bytes
  count : Bytes
  value : Bytes
  key_length : key.length = size.toNat
  count_length : count.length = 4
  value_length : value.length = bigEndianValue count

def Entry.wire (entry : Entry) : Bytes :=
  entry.size :: (entry.key ++ (entry.count ++ entry.value))

/-- Behind complete entries there is a first byte whose key ends in the bytes or right
behind them, and the length of the value does not fit any more. -/
def EndsInside (spare : Nat) (p : Bytes) : Prop :=
  ∃ (entries : List Entry) (size : UInt8) (rest : Bytes),
    p = entries.flatMap Entry.wire ++ size :: rest ∧ size.toNat ≤ rest.length + 1 ∧
      rest.length + spare < size.toNat + 4

def Returns (result : EStateM.Result Stop Metadata Unit) : Prop :=
  (∃ md, result = .ok () md) ∨ ∃ err md, result = .error (.fail err) md

variable {rest data : Bytes} {size : UInt8}

section Entries

variable {P : Platform} {spare : Bytes}

theorem Entry.wire_length (entry : Entry) :
    entry.wire.length = 1 + entry.size.toNat + 4 + entry.value.length := by
  rw [Entry.wire, List.length_cons, List.length_append, List.length_append, entry.key_length,
    entry.count_length]
  omega

theorem writeSlice_entry (entry : Entry) (after : Bytes) :
    writeSlice P spare (entry.wire ++ after) =
      .ok (⟨P.toTitle entry.key, entry.value⟩, entry.wire.length) := by
  obtain ⟨size, key, count, value, hkey, hcount, hvalue⟩ := entry
  have hslice : slice (key ++ (count ++ (value ++ after)) ++ spare) size.toNat (size.toNat + 4) =
      count := by
    rw [List.append_assoc, List.append_assoc]
    exact slice_append hkey (by rw [hcount])
  have htake : (key ++ (count ++ (value ++ after)) ++ spare).take size.toNat = key := by
    rw [List.append_assoc, ← hkey]
    exact List.take_left
  have hread : slice (key ++ (count ++ (value ++ after))) (size.toNat + 4)
      (size.toNat + 4 + bigEndianValue count) = value := by
    rw [← List.append_assoc]
    exact slice_append (by rw [List.length_append, hkey, hcount]) (by rw [hvalue])
  have hlength : (key ++ (count ++ (value ++ after))).length =
      size.toNat + 4 + bigEndianValue count + after.length := by
    simp only [List.length_append, hkey, hcount, hvalue]
    omega
  have hdata : Entry.wire ⟨size, key, count, value, hkey, hcount, hvalue⟩ ++ after =
      size :: (key ++ (count ++ (value ++ after))) := by
    simp [Entry.wire]
  rw [hdata, writeSlice]
  simp only [hslice, htake, hread, Entry.wire_length]
  rw [hlength, List.length_append, hlength]
  rw [if_neg (by omega), if_neg (by omega), if_neg (by omega), if_neg (by omega), hvalue]

theorem writeSlice_panics (hkey : size.toNat ≤ rest.length + 1)
    (hcount : rest.length + spare.length < size.toNat + 4) :
    writeSlice P spare (size :: rest) = .error (.panicked "slice bounds out of range") := by
  rw [writeSlice]
  simp only [List.length_append]
  rw [if_neg (by omega)]
  split
  · rfl
  · rfl

theorem writeSlice_returns
    (hroom : ¬ (size.toNat ≤ rest.length + 1 ∧ rest.length + spare.length < size.toNat + 4)) :
    writeSlice P spare (size :: rest) = .error (.fail .unexpectedEof) ∨
      ∃ entry : Entry, ∃ after, size :: rest = entry.wire ++ after := by
  rw [writeSlice]
  simp only [List.length_append]
  split
  · exact Or.inl rfl
  next hkey =>
    rw [if_neg (by omega), if_neg (by omega)]
    split
    · exact Or.inl rfl
    next hvalue =>
      right
      generalize hvlen : bigEndianValue (slice (rest ++ spare) size.toNat (size.toNat + 4)) = vlen
        at hvalue
      have hslice : slice (rest ++ spare) size.toNat (size.toNat + 4) =
          (rest.drop size.toNat).take 4 := by
        rw [slice, List.drop_append_of_le_length (by omega),
          List.take_append_of_le_length (by rw [List.length_drop]; omega), Nat.add_sub_cancel_left]
      rw [hslice] at hvlen
      refine ⟨{ size := size
                key := rest.take size.toNat
                count := (rest.drop size.toNat).take 4
                value := ((rest.drop size.toNat).drop 4).take vlen
                key_length := by rw [List.length_take]; omega
                count_length := by rw [List.length_take, List.length_drop]; omega
                value_length := by
                  rw [List.length_take, List.length_drop, List.length_drop, hvlen]; omega },
        ((rest.drop size.toNat).drop 4).drop vlen, ?_⟩
      simp only [Entry.wire, List.cons_append, List.append_assoc, List.take_append_drop]

theorem Entry.wire_ne_nil (entry : Entry) (after : Bytes) : entry.wire ++ after ≠ [] :=
  List.cons_ne_nil _ _

theorem Entry.wire_inj {first second : Entry} {after : Bytes}
    (hwire : first.wire ++ after = second.wire ++ rest) : after = rest := by
  have hfirst : writeSlice plainPlatform [] (first.wire ++ after) = _ :=
    writeSlice_entry first after
  rw [hwire, writeSlice_entry] at hfirst
  have hlength : second.wire.length = first.wire.length := by
    injection hfirst with hpair
    exact (Prod.mk.inj hpair).2
  exact (List.append_inj hwire hlength.symm).2

theorem not_endsInside_nil : ¬ EndsInside spare.length [] := by
  rintro ⟨entries, size, rest, hnil, -⟩
  exact List.append_ne_nil_of_right_ne_nil _ (List.cons_ne_nil size rest) hnil.symm

theorem endsInside_append (entry : Entry) (after : Bytes) :
    EndsInside spare.length (entry.wire ++ after) ↔ EndsInside spare.length after := by
  constructor
  · rintro ⟨entries, size, rest, hwire, hkey, hcount⟩
    cases entries with
    | nil =>
      obtain ⟨hsize, -⟩ := List.cons.inj hwire
      have hlength := congrArg List.length hwire
      rw [List.flatMap_nil, List.nil_append, List.length_append, Entry.wire_length,
        List.length_cons, hsize] at hlength
      omega
    | cons first entries =>
      rw [List.flatMap_cons, List.append_assoc] at hwire
      exact ⟨entries, size, rest, Entry.wire_inj hwire, hkey, hcount⟩
  · rintro ⟨entries, size, rest, rfl, hkey, hcount⟩
    exact ⟨entry :: entries, size, rest, by rw [List.flatMap_cons, List.append_assoc], hkey, hcount⟩

theorem endsInside_of_fail {err : Err} (hwrite : writeSlice P spare data = .error (.fail err)) :
    ¬ EndsInside spare.length data := by
  rintro ⟨entries, size, rest, rfl, hkey, hcount⟩
  cases entries with
  | nil =>
    rw [List.flatMap_nil, List.nil_append, writeSlice_panics hkey hcount] at hwrite
    cases hwrite
  | cons entry entries =>
    rw [List.flatMap_cons, List.append_assoc, writeSlice_entry] at hwrite
    cases hwrite

end Entries

section Loop

variable {P : Platform} {spare : Bytes} {rounds : Nat}

@[simp]
theorem unmarshalSliceLoop_nil : unmarshalSliceLoop P spare rounds [] = pure () := by
  cases rounds <;> rfl

theorem unmarshalSliceLoop_entry (entry : Entry) (after : Bytes) :
    unmarshalSliceLoop P spare (rounds + 1) (entry.wire ++ after) =
      ((modify fun md => md.set (P.toTitle (P.toTitle entry.key)) entry.value) >>= fun _ =>
        unmarshalSliceLoop P spare rounds after) := by
  rw [unmarshalSliceLoop, if_neg (entry.wire_ne_nil after), writeSlice_entry]
  simp only [List.drop_left]

theorem unmarshalSliceLoop_error {stop : Stop}
    (hwrite : writeSlice P spare (size :: rest) = .error stop) :
    unmarshalSliceLoop P spare (rounds + 1) (size :: rest) = throw stop := by
  rw [unmarshalSliceLoop, if_neg (List.cons_ne_nil size rest), hwrite]

theorem round_cases (P : Platform) (spare data : Bytes) :
    data = [] ∨ (∃ entry : Entry, ∃ after, data = entry.wire ++ after) ∨
      ∃ size rest stop, data = size :: rest ∧ writeSlice P spare data = .error stop ∧
        ((∃ err, stop = .fail err) ↔ ¬ EndsInside spare.length data) := by
  rcases data with _ | ⟨size, rest⟩
  · exact Or.inl rfl
  right
  by_cases hroom : size.toNat ≤ rest.length + 1 ∧ rest.length + spare.length < size.toNat + 4
  · right
    refine ⟨size, rest, _, rfl, writeSlice_panics hroom.1 hroom.2, ?_⟩
    apply iff_of_false
    · rintro ⟨err, hstop⟩
      cases hstop
    · intro hwhole
      exact hwhole ⟨[], size, rest, rfl, hroom.1, hroom.2⟩
  · rcases writeSlice_returns (P := P) hroom with hfail | hentry
    · right
      exact ⟨size, rest, _, rfl, hfail, iff_of_true ⟨_, rfl⟩ (endsInside_of_fail hfail)⟩
    · exact Or.inl hentry

theorem wire_shorter {entry : Entry} {after : Bytes}
    (hrounds : (entry.wire ++ after).length ≤ rounds + 1) : after.length ≤ rounds := by
  rw [List.length_append, Entry.wire_length] at hrounds
  omega

theorem unmarshalSliceLoop_rounds {rounds' : Nat} (hrounds : data.length ≤ rounds)
    (hrounds' : data.length ≤ rounds') :
    unmarshalSliceLoop P spare rounds data = unmarshalSliceLoop P spare rounds' data := by
  induction rounds generalizing data rounds' with
  | zero =>
    rw [List.length_eq_zero_iff.mp (Nat.le_zero.mp hrounds), unmarshalSliceLoop_nil,
      unmarshalSliceLoop_nil]
  | succ rounds ih =>
    rcases round_cases P spare data with rfl | ⟨entry, after, rfl⟩ |
      ⟨size, rest, stop, rfl, hstop, -⟩
    · rw [unmarshalSliceLoop_nil, unmarshalSliceLoop_nil]
    · cases rounds' with
      | zero =>
        exact absurd (List.length_eq_zero_iff.mp (Nat.le_zero.mp hrounds'))
          (entry.wire_ne_nil after)
      | succ rounds' =>
        rw [unmarshalSliceLoop_entry, unmarshalSliceLoop_entry,
          ih (wire_shorter hrounds) (wire_shorter hrounds')]
    · cases rounds' with
      | zero => cases hrounds'
      | succ rounds' => rw [unmarshalSliceLoop_error hstop, unmarshalSliceLoop_error hstop]

theorem returns_loop_iff {md : Metadata} (hrounds : data.length ≤ rounds) :
    Returns ((unmarshalSliceLoop P spare rounds data).run md) ↔
      ¬ EndsInside spare.length data := by
  induction rounds generalizing data md with
  | zero =>
    rw [List.length_eq_zero_iff.mp (Nat.le_zero.mp hrounds), unmarshalSliceLoop_nil]
    exact iff_of_true (Or.inl ⟨md, rfl⟩) not_endsInside_nil
  | succ rounds ih =>
    rcases round_cases P spare data with rfl | ⟨entry, after, rfl⟩ |
      ⟨size, rest, stop, rfl, hstop, hiff⟩
    · rw [unmarshalSliceLoop_nil]
      exact iff_of_true (Or.inl ⟨md, rfl⟩) not_endsInside_nil
    · rw [unmarshalSliceLoop_entry, endsInside_append]
      exact ih (wire_shorter hrounds)
    · rw [unmarshalSliceLoop_error hstop, ← hiff]
      constructor
      · rintro (⟨md', hok⟩ | ⟨err, md', herror⟩)
        · cases hok
        · cases herror
          exact ⟨err, rfl⟩
      · rintro ⟨err, rfl⟩
        exact Or.inr ⟨err, md, rfl⟩

end Loop

/-- Reading metadata ends, and it ends in nil or an error just when the bytes do not
end inside the lengths of an entry. -/
theorem unmarshal_returns_iff (P : Platform) (spare p : Bytes) (md : Metadata) :
    (∀ rounds, p.length ≤ rounds →
      unmarshalSliceLoop P spare rounds p = unmarshalSlice P spare p) ∧
    (Returns ((unmarshalSlice P spare p).run md) ↔ ¬ EndsInside spare.length p) :=
  ⟨fun _ hrounds => unmarshalSliceLoop_rounds hrounds le_rfl, returns_loop_iff le_rfl⟩

/-- One byte of metadata, which is zero, as the body of a READY command. -/
theorem zero_byte_panics :
    (unmarshalZmtp plainPlatform [0]).run Metadata.empty =
        .error (.panicked "slice bounds out of range") Metadata.empty ∧
      ¬ Returns ((unmarshalZmtp plainPlatform [0]).run Metadata.empty) := by
  have hpanics : (unmarshalZmtp plainPlatform [0]).run Metadata.empty =
      .error (.panicked "slice bounds out of range") Metadata.empty := rfl
  refine ⟨hpanics, ?_⟩
  rw [hpanics]
  rintro (⟨md, hok⟩ | ⟨err, md, herror⟩)
  · cases hok
  · cases herror

end Zmq4.MetadataParsing
