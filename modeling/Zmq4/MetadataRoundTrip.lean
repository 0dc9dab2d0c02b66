import Zmq4.ZmtpMetadata

namespace Zmq4.MetadataRoundTrip

open ByteCodec DuplexProgram ZmtpMetadata

/-- Title-casing changes nothing but the case of ASCII letters and lower-casing
leaves no ASCII capitals. -/
structure Casing (P : Platform) : Prop where
  lower_toTitle : ∀ text, (P.toTitle text).map asciiToLower = text.map asciiToLower
  toTitle_toTitle : ∀ text, P.toTitle (P.toTitle text) = P.toTitle text
  toTitle_system : ∀ key ∈ [sysSockType, sysSockId], P.toTitle key = key
  lower_unicodeToLower : ∀ text, (P.unicodeToLower text).map asciiToLower = P.unicodeToLower text

def isSystemKey (key : Bytes) : Bool :=
  key = sysSockId || key = sysSockType

def peerKey (P : Platform) (key : Bytes) : Bytes :=
  if isSystemKey key then key else P.toTitle (ascii "X-" ++ toLower P key)

def peerEntries (P : Platform) (entries : List (Bytes × Bytes)) : List (Bytes × Bytes) :=
  entries.map fun entry => (peerKey P entry.1, entry.2)

/-- Marshalling returns an error, or bytes from which the same map is read with
its keys in the form the other side uses. -/
def RoundTrips (P : Platform) (md : Metadata) : Prop :=
  (∃ err, md.marshalZmtp P = .error (.fail err)) ∨
    ∃ bytes md', md.marshalZmtp P = .ok bytes ∧
      (unmarshalZmtp P bytes).run Metadata.empty = .ok () md' ∧
      md'.entries.Perm (peerEntries P md.entries)

section Conditions

variable (P : Platform)

def wireKeyLength (key : Bytes) : Nat :=
  if isSystemKey key then key.length else 2 + (toLower P key).length

def entrySize (entry : Bytes × Bytes) : Nat :=
  1 + wireKeyLength P entry.1 + 4 + entry.2.length

/-- The iteration meets an empty key, or a second key with the same lower
case. -/
def refused : List (Bytes × Bytes) → List Bytes → Bool
  | [], _ => false
  | (k, _) :: rest, keys =>
    k = [] || toLower P k ∈ keys || refused rest (toLower P k :: keys)

/-- The capacity of a buffer with `used` bytes in it, after it has made room. -/
def grownCapacity (used capacity : Nat) : Nat :=
  if used + 512 ≤ capacity then capacity
  else P.roundUpSize (max (used + 512) (2 * capacity))

/-- The entries that the iteration gets to fit into the room there is for
them. -/
def fits : List (Bytes × Bytes) → List Bytes → Nat → Nat → Bool
  | [], _, _, _ => true
  | (k, v) :: rest, keys, used, capacity =>
    k = [] || toLower P k ∈ keys ||
      (used + entrySize P (k, v) ≤ grownCapacity P used capacity &&
        fits rest (toLower P k :: keys) (used + entrySize P (k, v))
          (grownCapacity P used capacity))

def Countable (entry : Bytes × Bytes) : Prop :=
  wireKeyLength P entry.1 ≤ 255 ∧ entry.2.length < 2 ^ 32

instance : DecidablePred (Countable P) :=
  fun entry => inferInstanceAs (Decidable (wireKeyLength P entry.1 ≤ 255 ∧ entry.2.length < 2 ^ 32))

def Encodable (md : Metadata) : Prop :=
  fits P md.entries [] 0 0 = true ∧
    (refused P md.entries [] = true ∨ ∀ entry ∈ md.entries, Countable P entry)

end Conditions

variable {key : Bytes} {entries : List (Bytes × Bytes)}

section Cases

variable {P : Platform} (hP : Casing P)

theorem asciiToLower_asciiToLower (byte : UInt8) :
    asciiToLower (asciiToLower byte) = asciiToLower byte := by
  unfold asciiToLower
  grind

include hP

theorem toTitle_length (text : Bytes) : (P.toTitle text).length = text.length := by
  have hlength := congrArg List.length (hP.lower_toTitle text)
  rwa [List.length_map, List.length_map] at hlength

theorem lower_toLower (text : Bytes) : (toLower P text).map asciiToLower = toLower P text := by
  unfold toLower
  split
  · rw [List.map_map]
    apply List.map_congr_left
    intro byte _
    exact asciiToLower_asciiToLower byte
  · exact hP.lower_unicodeToLower text

theorem peerKey_length (key : Bytes) : (peerKey P key).length = wireKeyLength P key := by
  unfold peerKey wireKeyLength
  split
  · rfl
  · rw [toTitle_length hP, List.length_append]
    rfl

theorem lower_peerKey (hkey : isSystemKey key = false) :
    (peerKey P key).map asciiToLower = ascii "x-" ++ toLower P key := by
  rw [peerKey, if_neg (by simp [hkey]), hP.lower_toTitle, List.map_append, lower_toLower hP]
  rfl

theorem system_ne_peerKey {first second : Bytes} (hfirst : isSystemKey first = true)
    (hsecond : isSystemKey second = false) : first ≠ peerKey P second := by
  rintro rfl
  have hlower := lower_peerKey hP hsecond
  simp only [isSystemKey, Bool.or_eq_true, decide_eq_true_eq] at hfirst
  rcases hfirst with hkey | hkey
  · rw [hkey] at hlower
    exact absurd (congrArg List.head? hlower) (by simp [sysSockId, ascii]; decide)
  · rw [hkey] at hlower
    exact absurd (congrArg List.head? hlower) (by simp [sysSockType, ascii]; decide)

theorem toLower_eq_of_peerKey_eq {first second : Bytes}
    (hkeys : peerKey P first = peerKey P second) : toLower P first = toLower P second := by
  cases hfirst : isSystemKey first with
  | true =>
    have hown : peerKey P first = first := by simp [peerKey, hfirst]
    cases hsecond : isSystemKey second with
    | true =>
      have hsame : first = second := by simpa [peerKey, hfirst, hsecond] using hkeys
      rw [hsame]
    | false => exact absurd (hown.symm.trans hkeys) (system_ne_peerKey hP hfirst hsecond)
  | false =>
    cases hsecond : isSystemKey second with
    | true =>
      have hown : peerKey P second = second := by simp [peerKey, hsecond]
      exact absurd (hown.symm.trans hkeys.symm) (system_ne_peerKey hP hsecond hfirst)
    | false =>
      have hlower := congrArg (List.map asciiToLower) hkeys
      rw [lower_peerKey hP hfirst, lower_peerKey hP hsecond] at hlower
      exact List.append_cancel_left hlower

theorem peerKeys_nodup (hlower : (entries.map fun entry => toLower P entry.1).Nodup) :
    ((peerEntries P entries).map Prod.fst).Nodup := by
  rw [peerEntries, List.map_map, List.Nodup, List.pairwise_map]
  rw [List.Nodup, List.pairwise_map] at hlower
  apply hlower.imp
  intro first second hne hsame
  exact hne (toLower_eq_of_peerKey_eq hP hsame)

end Cases

variable {buf : Buffer} {entry : Bytes × Bytes}

section Writing

variable (P : Platform)

def encodeEntry (entry : Bytes × Bytes) : Bytes :=
  UInt8.ofNat (wireKeyLength P entry.1) :: (peerKey P entry.1 ++
    (bigEndian 4 entry.2.length ++ entry.2))

theorem wireProperty_key_length (k v : Bytes) :
    (wireProperty k (toLower P k) v).key.length = wireKeyLength P k := by
  unfold wireProperty wireKeyLength isSystemKey
  by_cases hsystem : k = sysSockId ∨ k = sysSockType
  · simp [hsystem]
  · simp [hsystem, ascii]
    omega

theorem wireProperty_value (k v : Bytes) : (wireProperty k (toLower P k) v).value = v := by
  unfold wireProperty
  split <;> rfl

/-- Title-casing gives a key the form that the other side uses, keeps its length
and leaves that form alone. -/
structure Titled (key : Bytes) : Prop where
  written : ∀ v, P.toTitle (wireProperty key (toLower P key) v).key = peerKey P key
  length : (peerKey P key).length = wireKeyLength P key
  read : P.toTitle (peerKey P key) = peerKey P key

variable {P}

theorem titled_of_system (hsystem : isSystemKey key = true) (htitle : P.toTitle key = key) :
    Titled P key := by
  have hcases : key = sysSockId ∨ key = sysSockType := by
    simpa only [isSystemKey, Bool.or_eq_true, decide_eq_true_eq] using hsystem
  refine ⟨?_, ?_, ?_⟩
  · intro v
    rw [wireProperty, if_pos hcases, peerKey, if_pos hsystem]
    exact htitle
  · rw [peerKey, wireKeyLength, if_pos hsystem, if_pos hsystem]
  · rw [peerKey, if_pos hsystem]
    exact htitle

theorem titled_of_casing (hP : Casing P) (key : Bytes) : Titled P key := by
  cases hsystem : isSystemKey key with
  | true =>
    apply titled_of_system hsystem
    apply hP.toTitle_system
    simpa [isSystemKey, or_comm] using hsystem
  | false =>
    have hcases : ¬ (key = sysSockId ∨ key = sysSockType) := by
      simpa [isSystemKey] using hsystem
    refine ⟨?_, peerKey_length hP key, ?_⟩
    · intro v
      rw [wireProperty, if_neg hcases, peerKey, if_neg (by simp [hsystem])]
    · rw [peerKey, if_neg (by simp [hsystem])]
      exact hP.toTitle_toTitle _

theorem encodeEntry_length (htitled : Titled P entry.1) :
    (encodeEntry P entry).length = entrySize P entry := by
  simp only [encodeEntry, entrySize, List.length_cons, List.length_append, htitled.length,
    bigEndian_length]
  omega

theorem grow_eq (buf : Buffer) :
    buf.grow P = { buf with capacity := grownCapacity P buf.bytes.length buf.capacity } := by
  unfold Buffer.grow grownCapacity
  split <;> rfl

theorem readFrom_fits {k v : Bytes} (htitled : Titled P k)
    (hroom : buf.bytes.length + entrySize P (k, v) ≤
      grownCapacity P buf.bytes.length buf.capacity) :
    buf.readFrom P (wireProperty k (toLower P k) v) =
      .ok { bytes := buf.bytes ++ encodeEntry P (k, v)
            capacity := grownCapacity P buf.bytes.length buf.capacity } := by
  have htitle : (P.toTitle (wireProperty k (toLower P k) v).key).take (wireKeyLength P k) =
      peerKey P k := by
    rw [htitled.written, ← htitled.length, List.take_length]
  have hbound : ¬ grownCapacity P buf.bytes.length buf.capacity - buf.bytes.length <
      1 + wireKeyLength P k + 4 + v.length := by
    simp only [entrySize] at hroom
    omega
  simp only [Buffer.readFrom, grow_eq, Property.read, wireProperty_key_length, wireProperty_value,
    if_neg hbound, htitle]
  rfl

theorem readFrom_panics {k v : Bytes} (hroom : ¬ buf.bytes.length + entrySize P (k, v) ≤
      grownCapacity P buf.bytes.length buf.capacity) :
    buf.readFrom P (wireProperty k (toLower P k) v) =
      .error (.panicked "slice bounds out of range") := by
  have hbound : grownCapacity P buf.bytes.length buf.capacity - buf.bytes.length <
      1 + wireKeyLength P k + 4 + v.length := by
    simp only [entrySize] at hroom
    omega
  simp only [Buffer.readFrom, grow_eq, Property.read, wireProperty_key_length, wireProperty_value,
    if_pos hbound]

end Writing

section Loops

variable {P : Platform}

section Entry

variable {k v : Bytes} {rest : List (Bytes × Bytes)} {keys : List Bytes}

theorem marshalLoop_refuse (buf : Buffer) (hkey : k = [] ∨ toLower P k ∈ keys) :
    ∃ err, marshalLoop P ((k, v) :: rest) keys buf = .error (.fail err) := by
  by_cases hempty : k = []
  · exact ⟨errEmptyAppMDKey, by simp [marshalLoop, hempty]⟩
  · have hdup := hkey.resolve_left hempty
    exact ⟨errDupAppMDKey, by simp [marshalLoop, hempty, hdup]⟩

end Entry

/-- What marshalling does: it panics when an entry does not fit, returns an
error when a key is refused, and otherwise writes the entries in order. -/
theorem marshalLoop_eq (entries : List (Bytes × Bytes)) (keys : List Bytes) (buf : Buffer)
    (htitled : ∀ entry ∈ entries, Titled P entry.1) :
    (fits P entries keys buf.bytes.length buf.capacity = false →
      ∃ message, marshalLoop P entries keys buf = .error (.panicked message)) ∧
    (fits P entries keys buf.bytes.length buf.capacity = true →
      refused P entries keys = true →
      ∃ err, marshalLoop P entries keys buf = .error (.fail err)) ∧
    (fits P entries keys buf.bytes.length buf.capacity = true →
      refused P entries keys = false →
      marshalLoop P entries keys buf = .ok (buf.bytes ++ entries.flatMap (encodeEntry P))) := by
  induction entries generalizing keys buf with
  | nil => simp [fits, refused, marshalLoop]
  | cons entry rest ih =>
    rcases entry with ⟨k, v⟩
    rcases List.forall_mem_cons.mp htitled with ⟨htitle, htitled⟩
    by_cases hkey : k = [] ∨ toLower P k ∈ keys
    · have hfits : fits P ((k, v) :: rest) keys buf.bytes.length buf.capacity = true := by
        simp only [fits, Bool.or_eq_true, decide_eq_true_eq]
        exact Or.inl hkey
      have hrefused : refused P ((k, v) :: rest) keys = true := by
        simp only [refused, Bool.or_eq_true, decide_eq_true_eq]
        exact Or.inl hkey
      rw [hfits, hrefused]
      refine ⟨?_, fun _ _ => marshalLoop_refuse buf hkey, ?_⟩
      · exact fun hnot => Bool.noConfusion hnot
      · exact fun _ hnot => Bool.noConfusion hnot
    · have hkeys := not_or.mp hkey
      rw [marshalLoop, if_neg (by simpa using hkeys.1)]
      simp only [fits, refused, hkeys.1, hkeys.2, if_false, decide_false, Bool.false_or]
      by_cases hroom : buf.bytes.length + entrySize P (k, v) ≤
          grownCapacity P buf.bytes.length buf.capacity
      · rcases ih (toLower P k :: keys)
          { bytes := buf.bytes ++ encodeEntry P (k, v)
            capacity := grownCapacity P buf.bytes.length buf.capacity } htitled with
          ⟨hpanic, hfail, hok⟩
        rw [List.length_append, encodeEntry_length htitle] at hpanic hfail hok
        rw [readFrom_fits htitle hroom, decide_eq_true hroom, Bool.true_and]
        refine ⟨hpanic, hfail, ?_⟩
        intro hrest hnot
        exact (hok hrest hnot).trans (by simp)
      · rw [decide_eq_false hroom, Bool.false_and]
        rw [readFrom_panics hroom]
        refine ⟨fun _ => ⟨_, rfl⟩, ?_, ?_⟩
        · exact fun hnot => Bool.noConfusion hnot
        · exact fun hnot => Bool.noConfusion hnot

end Loops

variable {md : Metadata}

section Reading

variable {P : Platform} (hP : Casing P)

theorem mem_set {value : Bytes} (hentry : entry ∈ (md.set key value).entries) :
    entry ∈ md.entries ∨ entry = (key, value) := by
  unfold Metadata.set at hentry
  simp only at hentry
  split at hentry
  · obtain ⟨old, hold, rfl⟩ := List.mem_map.mp hentry
    split
    · exact Or.inr rfl
    · exact Or.inl hold
  · rcases List.mem_append.mp hentry with hold | hnew
    · exact Or.inl hold
    · exact Or.inr (by simpa using hnew)

theorem write_encodeEntry (htitled : Titled P entry.1) (hentry : Countable P entry) (rest : Bytes) :
    Property.write P (encodeEntry P entry ++ rest) =
      .ok ({ key := peerKey P entry.1, value := entry.2 }, entrySize P entry) := by
  obtain ⟨hkey, hvalue⟩ := hentry
  have hsize : (UInt8.ofNat (wireKeyLength P entry.1)).toNat = (peerKey P entry.1).length := by
    rw [htitled.length]
    simp only [UInt8.toNat_ofNat']
    omega
  let field := bigEndian 4 entry.2.length
  have hfield : field.length = 4 := bigEndian_length 4 _
  have hdata : encodeEntry P entry ++ rest = UInt8.ofNat (wireKeyLength P entry.1) ::
      (peerKey P entry.1 ++ (field ++ (entry.2 ++ rest))) := by
    simp [encodeEntry, field]
  have hvlen : bigEndianValue (slice (peerKey P entry.1 ++ (field ++ (entry.2 ++ rest)))
      (peerKey P entry.1).length ((peerKey P entry.1).length + 4)) = entry.2.length := by
    rw [slice_append rfl (by rw [hfield])]
    exact bigEndianValue_bigEndian (by simpa using hvalue)
  have hread : slice (peerKey P entry.1 ++ (field ++ (entry.2 ++ rest)))
      ((peerKey P entry.1).length + 4) ((peerKey P entry.1).length + 4 + entry.2.length) =
      entry.2 := by
    rw [← List.append_assoc]
    exact slice_append (by rw [List.length_append, hfield]) rfl
  have hlength : (peerKey P entry.1 ++ (field ++ (entry.2 ++ rest))).length =
      (peerKey P entry.1).length + 4 + entry.2.length + rest.length := by
    simp only [List.length_append, hfield]
    omega
  rw [hdata, Property.write]
  simp only [hsize, hlength, hvlen, hread, List.take_left, htitled.read]
  rw [if_neg (by omega), if_neg (by omega), if_neg (by omega), if_neg (by omega), entrySize,
    htitled.length]

theorem unmarshalLoop_run (md : Metadata) {rounds : Nat}
    (htitled : ∀ entry ∈ entries, Titled P entry.1)
    (hentries : ∀ entry ∈ entries, Countable P entry)
    (hkeys : ((md.entries ++ peerEntries P entries).map Prod.fst).Nodup)
    (hrounds : (entries.flatMap (encodeEntry P)).length ≤ rounds) :
    ∃ md', (unmarshalLoop P rounds (entries.flatMap (encodeEntry P))).run md = .ok () md' ∧
      md'.entries = md.entries ++ peerEntries P entries := by
  induction entries generalizing md rounds with
  | nil =>
    refine ⟨md, ?_, by simp [peerEntries]⟩
    cases rounds <;> simp [unmarshalLoop]
  | cons entry entries ih =>
    obtain ⟨htitle, htitled⟩ := List.forall_mem_cons.mp htitled
    obtain ⟨hentry, hentries⟩ := List.forall_mem_cons.mp hentries
    have hsize := encodeEntry_length htitle
    rw [List.flatMap_cons, List.length_append, hsize] at hrounds
    have hpositive : 0 < entrySize P entry := by
      simp only [entrySize]
      omega
    rcases rounds with _ | rounds
    · omega
    have hfresh : peerKey P entry.1 ∉ md.entries.map Prod.fst := by
      intro hmem
      rw [List.map_append, List.nodup_append] at hkeys
      exact hkeys.2.2 _ hmem _ (by simp [peerEntries]) rfl
    have hset : (md.set (peerKey P entry.1) entry.2).entries ++ peerEntries P entries =
        md.entries ++ peerEntries P (entry :: entries) := by
      simp [Metadata.set, if_neg hfresh, peerEntries]
    obtain ⟨md', hrun, hmd'⟩ := ih (md.set (peerKey P entry.1) entry.2) htitled hentries
      (by rw [hset]; exact hkeys) (show _ ≤ rounds by omega)
    refine ⟨md', ?_, by rw [hmd', hset]⟩
    have hne : encodeEntry P entry ++ entries.flatMap (encodeEntry P) ≠ [] := by
      simp [encodeEntry]
    have hdrop : (encodeEntry P entry ++ entries.flatMap (encodeEntry P)).drop
        (entrySize P entry) = entries.flatMap (encodeEntry P) := by
      rw [← hsize, List.drop_left]
    rw [List.flatMap_cons, unmarshalLoop, if_neg hne, write_encodeEntry htitle hentry]
    simp only [hdrop, htitle.read]
    exact hrun

theorem unmarshal_marshal {own : Bytes} (htitled : ∀ entry ∈ md.entries, Titled P entry.1)
    (hcountable : ∀ entry ∈ md.entries, Countable P entry)
    (hkeys : ((peerEntries P md.entries).map Prod.fst).Nodup)
    (hmarshal : md.marshalZmtp P = .ok own) :
    own = md.entries.flatMap (encodeEntry P) ∧
      ∃ md', (unmarshalZmtp P own).run Metadata.empty = .ok () md' ∧
        md'.entries = peerEntries P md.entries := by
  obtain ⟨hpanic, hfail, hok⟩ :=
    marshalLoop_eq md.entries [] { bytes := [], capacity := 0 } htitled
  have hown : own = md.entries.flatMap (encodeEntry P) := by
    cases hfits : fits P md.entries [] 0 0 with
    | false =>
      obtain ⟨message, hmessage⟩ := hpanic hfits
      rw [Metadata.marshalZmtp, hmessage] at hmarshal
      cases hmarshal
    | true =>
      cases hrefused : refused P md.entries [] with
      | true =>
        obtain ⟨err, herr⟩ := hfail hfits hrefused
        rw [Metadata.marshalZmtp, herr] at hmarshal
        cases hmarshal
      | false =>
        rw [Metadata.marshalZmtp, hok hfits hrefused] at hmarshal
        simpa using hmarshal.symm
  refine ⟨hown, ?_⟩
  rw [hown]
  exact unmarshalLoop_run Metadata.empty htitled hcountable
    (by simpa [Metadata.empty] using hkeys) le_rfl

include hP

theorem write_short {data : Bytes} {prop : Property} {size : Nat}
    (hwrite : Property.write P data = .ok (prop, size)) :
    prop.key.length ≤ 255 ∧ prop.value.length < 2 ^ 32 := by
  rcases data with _ | ⟨first, rest⟩
  · cases hwrite
  have hfirst := first.toNat_lt
  have hvlen : bigEndianValue (slice rest first.toNat (first.toNat + 4)) < 2 ^ 32 := by
    have hlength : (slice rest first.toNat (first.toNat + 4)).length ≤ 4 := by
      have hslice := slice_length_le rest first.toNat (first.toNat + 4)
      omega
    calc bigEndianValue (slice rest first.toNat (first.toNat + 4))
        < 256 ^ (slice rest first.toNat (first.toNat + 4)).length := bigEndianValue_lt _
      _ ≤ 256 ^ 4 := Nat.pow_le_pow_right (by omega) hlength
      _ = 2 ^ 32 := by norm_num
  rw [Property.write] at hwrite
  simp only at hwrite
  split at hwrite
  · cases hwrite
  split at hwrite
  · cases hwrite
  split at hwrite
  · cases hwrite
  split at hwrite
  · cases hwrite
  simp only [Except.ok.injEq, Prod.mk.injEq] at hwrite
  obtain ⟨rfl, -⟩ := hwrite
  constructor
  · rw [toTitle_length hP, List.length_take]
    omega
  · have hslice := slice_length_le rest (first.toNat + 4)
      (first.toNat + 4 + bigEndianValue (slice rest first.toNat (first.toNat + 4)))
    simp only
    omega

theorem unmarshalLoop_short {rounds : Nat} {data : Bytes} {md' : Metadata}
    (hshort : ∀ entry ∈ md.entries, entry.1.length ≤ 255 ∧ entry.2.length < 2 ^ 32)
    (hrun : (unmarshalLoop P rounds data).run md = .ok () md') :
    ∀ entry ∈ md'.entries, entry.1.length ≤ 255 ∧ entry.2.length < 2 ^ 32 := by
  induction rounds generalizing data md with
  | zero =>
    obtain ⟨-, rfl⟩ : () = () ∧ md = md' := by simpa [unmarshalLoop] using hrun
    exact hshort
  | succ rounds ih =>
    rw [unmarshalLoop] at hrun
    split at hrun
    · obtain ⟨-, rfl⟩ : () = () ∧ md = md' := by simpa using hrun
      exact hshort
    split at hrun
    · cases hrun
    rename_i prop size hwrite
    apply ih _ hrun
    intro entry hentry
    rcases mem_set hentry with hold | rfl
    · exact hshort entry hold
    · have hprop := write_short hP hwrite
      rwa [toTitle_length hP]

end Reading

section Main

variable {P : Platform} (hP : Casing P)

theorem nodup_of_not_refused {keys : List Bytes} (hkeys : keys.Nodup)
    (hrefused : refused P entries keys = false) :
    ((entries.map fun entry => toLower P entry.1) ++ keys).Nodup := by
  induction entries generalizing keys with
  | nil => simpa using hkeys
  | cons entry rest ih =>
    obtain ⟨k, v⟩ := entry
    simp only [refused, Bool.or_eq_false_iff, decide_eq_false_iff_not] at hrefused
    obtain ⟨⟨-, hnew⟩, hrest⟩ := hrefused
    have hall := ih (List.nodup_cons.mpr ⟨hnew, hkeys⟩) hrest
    rw [List.map_cons, List.cons_append]
    exact List.perm_middle.nodup_iff.mp hall

include hP

theorem encodable_of_roundTrips {md : Metadata} (htrip : RoundTrips P md) : Encodable P md := by
  obtain ⟨hpanic, -, hok⟩ := marshalLoop_eq md.entries [] { bytes := [], capacity := 0 }
    fun entry _ => titled_of_casing hP entry.1
  have hfits : fits P md.entries [] 0 0 = true := by
    by_contra hnot
    obtain ⟨message, hmessage⟩ := hpanic (by simpa using hnot)
    rcases htrip with ⟨err, herr⟩ | ⟨bytes, md', hbytes, -⟩
    · rw [Metadata.marshalZmtp, hmessage] at herr
      cases herr
    · rw [Metadata.marshalZmtp, hmessage] at hbytes
      cases hbytes
  refine ⟨hfits, ?_⟩
  by_cases hrefused : refused P md.entries [] = true
  · exact Or.inl hrefused
  right
  have hmarshal := hok hfits (by simpa using hrefused)
  rcases htrip with ⟨err, herr⟩ | ⟨bytes, md', hbytes, hunmarshal, hperm⟩
  · rw [Metadata.marshalZmtp, hmarshal] at herr
    cases herr
  intro entry hentry
  have hshort := unmarshalLoop_short hP (by simp [Metadata.empty]) hunmarshal
    (peerKey P entry.1, entry.2)
    (hperm.mem_iff.mpr (List.mem_map.mpr ⟨entry, hentry, rfl⟩))
  rwa [peerKey_length hP] at hshort

/-- Exactly the encodable maps make the round trip, in every order of
iteration. -/
theorem roundTrips_iff_encodable (md : Metadata) : RoundTrips P md ↔ Encodable P md := by
  constructor
  · intro htrip
    exact encodable_of_roundTrips hP htrip
  · intro hmd
    have htitled : ∀ entry ∈ md.entries, Titled P entry.1 :=
      fun entry _ => titled_of_casing hP entry.1
    obtain ⟨-, hfail, hok⟩ := marshalLoop_eq md.entries [] { bytes := [], capacity := 0 } htitled
    obtain ⟨hfits, hcases⟩ := hmd
    by_cases hrefused : refused P md.entries [] = true
    · exact Or.inl (hfail hfits hrefused)
    · right
      have hfree : refused P md.entries [] = false := by simpa using hrefused
      have hlower := nodup_of_not_refused List.nodup_nil hfree
      rw [List.append_nil] at hlower
      obtain ⟨-, md', hrun, hmd'⟩ := unmarshal_marshal htitled (hcases.resolve_left hrefused)
        (peerKeys_nodup hP hlower) (hok hfits hfree)
      refine ⟨_, md', hok hfits hfree, hrun, ?_⟩
      rw [hmd']

end Main

section Examples

def asciiToUpper (byte : UInt8) : UInt8 :=
  if 97 ≤ byte ∧ byte ≤ 122 then byte - 32 else byte

def isWordByte (byte : UInt8) : Bool :=
  let lower := asciiToLower byte
  (97 ≤ lower && lower ≤ 122) || (48 ≤ byte && byte ≤ 57) || byte = 95

/-- Capitals at the starts of words, the rest as it is. -/
def titleFrom : Bool → Bytes → Bytes
  | _, [] => []
  | inWord, byte :: rest =>
    (if inWord then byte else asciiToUpper byte) :: titleFrom (isWordByte byte) rest

def asciiPlatform : Platform where
  unicodeToLower text := text.map asciiToLower
  toTitle := titleFrom false
  roundUpSize := id
  le_roundUpSize _ := le_rfl

theorem asciiToLower_asciiToUpper (byte : UInt8) :
    asciiToLower (asciiToUpper byte) = asciiToLower byte := by
  unfold asciiToLower asciiToUpper
  grind

theorem asciiToUpper_asciiToUpper (byte : UInt8) :
    asciiToUpper (asciiToUpper byte) = asciiToUpper byte := by
  unfold asciiToUpper
  grind

theorem isWordByte_asciiToUpper (byte : UInt8) :
    isWordByte (asciiToUpper byte) = isWordByte byte := by
  have hlower := asciiToLower_asciiToUpper byte
  unfold isWordByte
  rw [hlower]
  unfold asciiToLower asciiToUpper
  grind

theorem titleFrom_lower (inWord : Bool) (text : Bytes) :
    (titleFrom inWord text).map asciiToLower = text.map asciiToLower := by
  induction text generalizing inWord with
  | nil => rfl
  | cons byte rest ih =>
    cases inWord <;> simp [titleFrom, ih, asciiToLower_asciiToUpper]

theorem titleFrom_titleFrom (inWord : Bool) (text : Bytes) :
    titleFrom inWord (titleFrom inWord text) = titleFrom inWord text := by
  induction text generalizing inWord with
  | nil => rfl
  | cons byte rest ih =>
    cases inWord <;>
      simp [titleFrom, ih, asciiToUpper_asciiToUpper, isWordByte_asciiToUpper]

theorem casing_asciiPlatform : Casing asciiPlatform where
  lower_toTitle := titleFrom_lower false
  toTitle_toTitle := titleFrom_titleFrom false
  toTitle_system := by decide
  lower_unicodeToLower text := by
    simp only [asciiPlatform, List.map_map]
    apply List.map_congr_left
    intro byte _
    exact asciiToLower_asciiToLower byte

theorem application_key_round_trips :
    RoundTrips asciiPlatform
      { entries := [(sysSockType, ascii "REQ"), (ascii "Trace-ID", [1, 2])], nodup := by decide } :=
  (roundTrips_iff_encodable casing_asciiPlatform _).mpr ⟨by decide, Or.inr (by decide)⟩

def longKey : Bytes := List.replicate 254 97

theorem toLower_longKey_length : (toLower asciiPlatform longKey).length = 254 := by
  have hascii : longKey.all (· < 128) = true := by
    rw [longKey, List.all_replicate]
    decide
  rw [toLower, if_pos hascii, List.length_map]
  exact List.length_replicate

/-- With its prefix, a key of 254 letters has a length that one byte cannot
hold. -/
theorem long_key_lost :
    ¬ RoundTrips asciiPlatform
      { entries := [(longKey, [1])], nodup := List.pairwise_singleton _ longKey } := by
  intro htrip
  obtain ⟨-, hcases⟩ := encodable_of_roundTrips casing_asciiPlatform htrip
  have hkey : isSystemKey longKey = false := by decide
  rcases hcases with hrefused | hcountable
  · have hempty : longKey ≠ [] := List.cons_ne_nil _ _
    simp [refused, hempty] at hrefused
  · have hlength := (hcountable _ (List.mem_singleton.mpr rfl)).1
    simp only [wireKeyLength, hkey, Bool.false_eq_true, if_false, toLower_longKey_length] at hlength
    omega

end Examples

end Zmq4.MetadataRoundTrip
