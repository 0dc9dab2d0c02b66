import Zmq4.ByteCodec

/-!
The beacons that DAFKA towers broadcast (`dafka/tower.go`), without their time stamp,
which is not on the wire.
-/

namespace Zmq4.DafkaTower

open ByteCodec

structure TowerBeacon where
  uuid : Bytes
  address : Bytes
  topics : List Bytes
  deriving DecidableEq

def generateUUID (unixNano : Int64) : Bytes :=
  ascii ("tower-" ++ toString unixNano.toInt)

def marshalTopic (topic : Bytes) : Bytes :=
  UInt8.ofNat (topic.take 255).length :: topic.take 255

def marshalBeacon (beacon : TowerBeacon) : Bytes :=
  ascii "DAFKA" ++ ((FixedBytes.ofCopy 16 beacon.uuid).bytes ++
    UInt8.ofNat beacon.address.length :: (beacon.address ++
      UInt8.ofNat beacon.topics.length :: beacon.topics.flatMap marshalTopic))

/-- The loop over the topics: it ends with the data, or at a topic that is cut off. -/
def parseTopics : Nat → Bytes → List Bytes
  | 0, _ | _ + 1, [] => []
  | count + 1, topicLen :: data =>
    if topicLen.toNat > data.length then []
    else data.take topicLen.toNat :: parseTopics count (data.drop topicLen.toNat)

/-- `uuid` is the one of the tower that has received `data`. -/
def parseBeacon (uuid data : Bytes) : Option TowerBeacon :=
  if data.length < 22 then none
  else if slice data 0 5 ≠ ascii "DAFKA" then none
  else if slice data 5 21 = uuid then none
  else match data.drop 21 with
    | [] => none
    | addrLen :: rest =>
      if addrLen.toNat > rest.length then none
      else match rest.drop addrLen.toNat with
        | [] => none
        | topicCount :: rest' => some {
            uuid := slice data 5 21, address := rest.take addrLen.toNat,
            topics := parseTopics topicCount.toNat rest' }

variable {uuid : Bytes} {beacon : TowerBeacon} {topics : List Bytes}

theorem parseTopics_marshalTopics (count : Nat) (topics : List Bytes) :
    parseTopics count (topics.flatMap marshalTopic) =
      (topics.take count).map (List.take 255) := by
  induction topics generalizing count with
  | nil =>
    cases count with
    | zero => rfl
    | succ count => rfl
  | cons topic topics ih =>
    cases count with
    | zero => rfl
    | succ count =>
      have hlength : (UInt8.ofNat (topic.take 255).length).toNat = (topic.take 255).length := by
        rw [UInt8.toNat_ofNat']
        exact Nat.mod_eq_of_lt (by have := List.length_take_le 255 topic; omega)
      rw [List.flatMap_cons, marshalTopic, List.cons_append, parseTopics, hlength,
        if_neg (by rw [List.length_append]; omega), List.take_left, List.drop_left, ih]
      rfl

theorem map_take_eq_self_iff :
    (topics.take (topics.length % 256)).map (List.take 255) = topics ↔
      topics.length ≤ 255 ∧ ∀ topic ∈ topics, topic.length ≤ 255 := by
  constructor
  · intro htopics
    have hlength := congrArg List.length htopics
    rw [List.length_map, List.length_take] at hlength
    refine ⟨by omega, ?_⟩
    intro topic htopic
    rw [← htopics] at htopic
    obtain ⟨whole, -, rfl⟩ := List.mem_map.mp htopic
    exact List.length_take_le _ _
  · rintro ⟨hcount, htopics⟩
    rw [Nat.mod_eq_of_lt (by omega), List.take_length]
    exact List.map_congr_left (fun topic htopic => List.take_of_length_le (htopics topic htopic))
      |>.trans (List.map_id topics)

theorem slice_uuid (beacon : TowerBeacon) :
    slice (marshalBeacon beacon) 5 21 = (FixedBytes.ofCopy 16 beacon.uuid).bytes :=
  slice_append rfl (by rw [FixedBytes.bytes_length])

theorem parseBeacon_own (beacon : TowerBeacon) :
    parseBeacon (FixedBytes.ofCopy 16 beacon.uuid).bytes (marshalBeacon beacon) = none := by
  rw [parseBeacon, slice_uuid, if_pos rfl, ite_self, ite_self]

/-- What another tower reads, whatever the lengths are.  The length of the address is
sent modulo 256; where it is cut, the rest of the address is read as topics. -/
theorem parseBeacon_other (beacon : TowerBeacon)
    (hother : (FixedBytes.ofCopy 16 beacon.uuid).bytes ≠ uuid) :
    ∃ topics, parseBeacon uuid (marshalBeacon beacon) = some {
        uuid := (FixedBytes.ofCopy 16 beacon.uuid).bytes
        address := beacon.address.take (beacon.address.length % 256), topics } ∧
      (beacon.address.length ≤ 255 →
        topics = (beacon.topics.take (beacon.topics.length % 256)).map (List.take 255)) := by
  have hsignature : slice (marshalBeacon beacon) 0 5 = ascii "DAFKA" :=
    List.take_left' rfl
  have hdrop : (marshalBeacon beacon).drop 21 = UInt8.ofNat beacon.address.length ::
      (beacon.address ++
        UInt8.ofNat beacon.topics.length :: beacon.topics.flatMap marshalTopic) := by
    rw [marshalBeacon, ← List.append_assoc]
    exact List.drop_left' (by rw [List.length_append, FixedBytes.bytes_length]; rfl)
  have hlong : ¬ (marshalBeacon beacon).length < 22 := by
    intro hshort
    have hlength := congrArg List.length hdrop
    rw [List.length_drop, List.length_cons] at hlength
    omega
  have hcut : beacon.address.length % 256 ≤ beacon.address.length := Nat.mod_le _ _
  rw [parseBeacon, if_neg hlong, if_neg (not_not.mpr hsignature), slice_uuid, if_neg hother,
    hdrop]
  dsimp only
  rw [UInt8.toNat_ofNat', if_neg (by rw [List.length_append]; omega),
    List.take_append_of_le_length hcut, List.drop_append_of_le_length hcut]
  rcases hrest : beacon.address.drop (beacon.address.length % 256) with _ | ⟨byte, rest⟩
  · refine ⟨_, rfl, fun _ => ?_⟩
    rw [UInt8.toNat_ofNat']
    exact parseTopics_marshalTopics _ _
  · refine ⟨_, rfl, ?_⟩
    intro hfits
    rw [Nat.mod_eq_of_lt (by omega), List.drop_length] at hrest
    cases hrest

/-- The tower drops its own beacon, and every other tower reads what it has sent. -/
def Identifies (unixNano : Int64) (address : Bytes) (topics : List Bytes) : Prop :=
  let beacon : TowerBeacon := { uuid := generateUUID unixNano, address, topics }
  (∀ other, generateUUID other ≠ generateUUID unixNano →
      parseBeacon (generateUUID other) (marshalBeacon beacon) = some beacon) ∧
    parseBeacon (generateUUID unixNano) (marshalBeacon beacon) = none

theorem identifies_iff {unixNano : Int64} {address : Bytes} :
    Identifies unixNano address topics ↔
      (generateUUID unixNano).length = 16 ∧ address.length ≤ 255 ∧
        topics.length ≤ 255 ∧ ∀ topic ∈ topics, topic.length ≤ 255 := by
  have hcopied := FixedBytes.bytes_length (.ofCopy 16 (generateUUID unixNano))
  rw [← map_take_eq_self_iff]
  constructor
  · rintro ⟨hothers, hself⟩
    have huuid : (FixedBytes.ofCopy 16 (generateUUID unixNano)).bytes = generateUUID unixNano := by
      by_contra hne
      obtain ⟨read, hread, -⟩ := parseBeacon_other ⟨generateUUID unixNano, address, topics⟩ hne
      rw [hself] at hread
      cases hread
    rw [huuid] at hcopied
    have hzero : generateUUID unixNano ≠ generateUUID 0 := by
      intro heq
      rw [heq] at hcopied
      exact absurd hcopied (by decide)
    obtain ⟨read, hread, htopics⟩ := parseBeacon_other ⟨generateUUID unixNano, address, topics⟩
      (huuid.symm ▸ hzero)
    obtain ⟨-, haddress, hread⟩ := TowerBeacon.mk.inj
      (Option.some.inj (hread.symm.trans (hothers 0 hzero.symm)))
    have hlength := congrArg List.length haddress
    rw [List.length_take] at hlength
    have hfits : address.length ≤ 255 := by omega
    exact ⟨hcopied, hfits, (htopics hfits).symm.trans hread⟩
  · rintro ⟨hlength, haddress, htopics⟩
    have huuid := FixedBytes.ofCopy_bytes hlength
    constructor
    · intro other hother
      obtain ⟨read, hread, hsame⟩ := parseBeacon_other ⟨generateUUID unixNano, address, topics⟩
        (huuid.symm ▸ hother.symm)
      rw [hread, huuid, hsame haddress, htopics]
      dsimp only
      rw [Nat.mod_eq_of_lt (by omega), List.take_length]
    · have hown := parseBeacon_own ⟨generateUUID unixNano, address, topics⟩
      rwa [huuid] at hown

/-- At a time of today: the tower takes its own beacon for one of another tower. -/
theorem not_identifies_today :
    parseBeacon (generateUUID 1700000000000000000)
        (marshalBeacon ⟨generateUUID 1700000000000000000, [], []⟩) =
      some ⟨ascii "tower-1700000000", [], []⟩ ∧
    ¬ Identifies 1700000000000000000 [] [] := by
  have hread : parseBeacon (generateUUID 1700000000000000000)
      (marshalBeacon ⟨generateUUID 1700000000000000000, [], []⟩) =
        some ⟨ascii "tower-1700000000", [], []⟩ := by
    decide +kernel
  refine ⟨hread, ?_⟩
  rintro ⟨-, hself⟩
  rw [hread] at hself
  cases hself

end Zmq4.DafkaTower
