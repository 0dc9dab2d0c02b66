import Zmq4.DafkaStore
import Zmq4.SubscriptionSync

namespace Zmq4.DafkaConsumer

open ByteCodec DafkaMessages ActionRuns
open DuplexProgram hiding readFull
open DafkaStore (Pair plainWrite)
open SubscriptionSync (subscribed)

/-- `FetchSize` is positive, see `NewConsumer`. -/
structure ConsumerConfig where
  fetchSize : Nat

structure FetchRequest where
  pair : Pair
  offset : UInt64
  count : UInt32
  deriving DecidableEq

def FetchRequest.Covers (request : FetchRequest) (offset : UInt64) : Prop :=
  request.offset.toNat ≤ offset.toNat ∧
    offset.toNat < request.offset.toNat + request.count.toNat

def recordQueue : Nat := 10000
def fetchQueue : Nat := 1000

def recordPair (record : Record) : Pair :=
  ⟨record.topic, record.partition⟩

/-- The topics subscribed to, `LastOffset` of each partition by its key, and the
two queues the subscription loop writes to. -/
structure Consumer where
  subscriptions : Finset Bytes
  lastOffsets : AList fun _ : Bytes => UInt64
  records : List Record
  fetchRequests : List FetchRequest

namespace Consumer

def new : Consumer where
  subscriptions := ∅
  lastOffsets := ∅
  records := []
  fetchRequests := []

def subscribeToTopics (c : Consumer) (topics : List Bytes) : Consumer :=
  { c with subscriptions := topics.foldl (fun topics topic => insert topic topics) c.subscriptions }

def expectedOffset (c : Consumer) (pair : Pair) : UInt64 :=
  (c.lastOffsets.lookup pair.key).elim 0 (· + 1)

def updatePartitionState (c : Consumer) (record : Record) : Consumer :=
  { c with lastOffsets := c.lastOffsets.insert (recordPair record).key record.offset }

/-- The number of offsets asked for, in 32 bits before it is compared. -/
def missingCount (config : ConsumerConfig) (startOffset endOffset : UInt64) : UInt32 :=
  if (endOffset - startOffset).toUInt32 > UInt32.ofNat config.fetchSize then
    UInt32.ofNat config.fetchSize
  else (endOffset - startOffset).toUInt32

def requestMissingRecords (config : ConsumerConfig) (c : Consumer) (pair : Pair)
    (startOffset endOffset : UInt64) : Consumer :=
  if startOffset ≥ endOffset then c
  else if c.fetchRequests.length < fetchQueue then
    { c with fetchRequests := c.fetchRequests ++
        [⟨pair, startOffset, missingCount config startOffset endOffset⟩] }
  else c

def pushRecord (c : Consumer) (record : Record) : Consumer :=
  if c.records.length < recordQueue then { c with records := c.records ++ [record] } else c

def takeRecord (c : Consumer) : Option (Record × Consumer) :=
  match c.records with
  | [] => none
  | record :: rest => some (record, { c with records := rest })

def takeRequest (c : Consumer) : Option Consumer :=
  match c.fetchRequests with
  | [] => none
  | _ :: rest => some { c with fetchRequests := rest }

def deliver (config : ConsumerConfig) (c : Consumer) (record : Record) : Consumer :=
  (if record.offset ≠ c.expectedOffset (recordPair record) then
    c.requestMissingRecords config (recordPair record) (c.expectedOffset (recordPair record))
      record.offset
  else c).pushRecord record

def newRecord (topic : Bytes) (m : RecordMessage) (now : Int64) : Record where
  topic := topic
  partition := m.partition
  offset := m.offset
  key := m.key
  value := m.value
  headers := m.headers
  timestamp := now

def processRecordMessage (config : ConsumerConfig) (c : Consumer) (msg : Message) (now : Int64) :
    Consumer :=
  match RecordMessage.unmarshal msg.body with
  | .error _ => c
  | .ok m => c.deliver config (newRecord msg.topic m now)

/-- HEAD messages only move a high watermark, which nothing reads. -/
def processSubscriptionMessage (config : ConsumerConfig) (c : Consumer) (data : Bytes)
    (now : Int64) : Consumer :=
  match Message.unmarshal data with
  | .error _ => c
  | .ok msg =>
    if msg.topic ∈ c.subscriptions then
      if msg.type = messageTypeRecord then c.processRecordMessage config msg now else c
    else c

end Consumer

def recordOf (subscriptions : Finset Bytes) (data : Bytes) (now : Int64) : Option Record :=
  match Message.unmarshal data with
  | .error _ => none
  | .ok msg =>
    if msg.topic ∈ subscriptions ∧ msg.type = messageTypeRecord then
      match RecordMessage.unmarshal msg.body with
      | .error _ => none
      | .ok m => some (Consumer.newRecord msg.topic m now)
    else none

section Arrival

variable {config : ConsumerConfig} {c : Consumer} {data : Bytes} {now : Int64} {record : Record}

theorem processSubscriptionMessage_eq :
    c.processSubscriptionMessage config data now =
      (recordOf c.subscriptions data now).elim c (c.deliver config) := by
  unfold Consumer.processSubscriptionMessage recordOf
  rcases Message.unmarshal data with _ | msg
  · rfl
  · by_cases htopic : msg.topic ∈ c.subscriptions
    · by_cases htype : msg.type = messageTypeRecord
      · simp only [htopic, htype, and_self, if_true, Consumer.processRecordMessage]
        rcases RecordMessage.unmarshal msg.body with _ | m
        · rfl
        · rfl
      · simp [htype]
    · simp [htopic]

theorem pushRecord_fetchRequests : (c.pushRecord record).fetchRequests = c.fetchRequests := by
  unfold Consumer.pushRecord
  split
  · rfl
  · rfl

variable {startOffset : UInt64}

theorem requestMissingRecords_records {pair : Pair} {endOffset : UInt64} :
    (c.requestMissingRecords config pair startOffset endOffset).records = c.records := by
  unfold Consumer.requestMissingRecords
  split
  · rfl
  · split
    · rfl
    · rfl

theorem deliver_eq :
    c.deliver config record =
      (c.requestMissingRecords config (recordPair record)
        (c.expectedOffset (recordPair record)) record.offset).pushRecord record := by
  unfold Consumer.deliver
  split
  · rfl
  · rename_i heq
    rw [not_not.mp heq, Consumer.requestMissingRecords, if_pos (UInt64.le_refl _)]

theorem missingCount_le {endOffset : UInt64} (hlt : startOffset < endOffset) :
    startOffset.toNat + (Consumer.missingCount config startOffset endOffset).toNat ≤
      endOffset.toNat := by
  have hsub : (endOffset - startOffset).toNat = endOffset.toNat - startOffset.toNat :=
    UInt64.toNat_sub_of_le _ _ (UInt64.le_of_lt hlt)
  have hcut : (endOffset - startOffset).toUInt32.toNat ≤ (endOffset - startOffset).toNat := by
    rw [UInt64.toNat_toUInt32]
    exact Nat.mod_le _ _
  have hcount : (Consumer.missingCount config startOffset endOffset).toNat ≤
      (endOffset - startOffset).toUInt32.toNat := by
    unfold Consumer.missingCount
    split
    · rename_i hmore
      exact (UInt32.lt_iff_toNat_lt.mp hmore).le
    · exact le_rfl
  have hoffsets := UInt64.lt_iff_toNat_lt.mp hlt
  omega

theorem missingCount_toNat {endOffset : UInt64} (hlt : startOffset < endOffset)
    (hsize : config.fetchSize < 2 ^ 31) :
    (Consumer.missingCount config startOffset endOffset).toNat =
      min ((endOffset.toNat - startOffset.toNat) % 2 ^ 32) config.fetchSize := by
  have hcut : (endOffset - startOffset).toUInt32.toNat =
      (endOffset.toNat - startOffset.toNat) % 2 ^ 32 := by
    rw [UInt64.toNat_toUInt32, UInt64.toNat_sub_of_le _ _ (UInt64.le_of_lt hlt)]
  have hfetch : (UInt32.ofNat config.fetchSize).toNat = config.fetchSize :=
    UInt32.toNat_ofNat_of_lt (hsize.trans (by decide))
  unfold Consumer.missingCount
  split
  · rename_i hmore
    rw [gt_iff_lt, UInt32.lt_iff_toNat_lt] at hmore
    omega
  · rename_i hfew
    rw [gt_iff_lt, UInt32.lt_iff_toNat_lt] at hfew
    omega

/-- The difference of the offsets is cut to 32 bits before it is compared with
`FetchSize`. -/
theorem requests_min_iff {pair : Pair} {endOffset : UInt64} (hpos : 1 ≤ config.fetchSize)
    (hsize : config.fetchSize < 2 ^ 31) (hlt : startOffset < endOffset)
    (hroom : c.fetchRequests.length < fetchQueue) :
    (∃ request, (c.requestMissingRecords config pair startOffset endOffset).fetchRequests =
        c.fetchRequests ++ [request] ∧ request.pair = pair ∧ request.offset = startOffset ∧
        request.count.toNat = min (endOffset.toNat - startOffset.toNat) config.fetchSize) ↔
      endOffset.toNat - startOffset.toNat < 2 ^ 32 ∨
        config.fetchSize ≤ (endOffset.toNat - startOffset.toNat) % 2 ^ 32 := by
  have hcount := missingCount_toNat hlt hsize
  rw [Consumer.requestMissingRecords, if_neg (UInt64.not_le.mpr hlt), if_pos hroom]
  constructor
  · rintro ⟨request, hqueued, -, -, hmin⟩
    have hrequest := List.singleton_inj.mp (List.append_cancel_left hqueued)
    rw [← hrequest, hcount] at hmin
    omega
  · intro hsmall
    refine ⟨_, rfl, rfl, rfl, ?_⟩
    rw [hcount]
    omega

theorem requests_min_iff_gap :
    ∃ request, (Consumer.new.requestMissingRecords ⟨10⟩ ⟨[], []⟩ 3 8).fetchRequests = [request] ∧
      request.pair = ⟨[], []⟩ ∧ request.offset = 3 ∧ request.count.toNat = 5 :=
  (requests_min_iff (c := .new) (by decide) (by decide) (by decide) (by decide)).mpr
    (Or.inl (by decide))

/-- A gap of `2 ^ 32` offsets: the request asks for no record. -/
theorem requests_none_of_wide_gap :
    (Consumer.new.requestMissingRecords ⟨1000⟩ ⟨[], []⟩ 0 4294967296).fetchRequests =
      [⟨⟨[], []⟩, 0, 0⟩] ∧
    min ((4294967296 : UInt64).toNat - (0 : UInt64).toNat) 1000 = 1000 := by
  decide

end Arrival

section Publish

/-- One round of `publishBatch`: the only frame of the message it sends. -/
def publishRecord (record : Record) (range : RangeOrder record.headers) : Except Err Bytes := do
  let msg ← createRecordMessage record.topic record range
  msg.marshal

/-- A published message at a consumer whose subscriptions have reached the
publisher: the filter of `pubMWriter.addConn`, and the subscription loop. -/
def publishTo (config : ConsumerConfig) (c : Consumer) (data : Bytes) (now : Int64) : Consumer :=
  if subscribed c.subscriptions data then c.processSubscriptionMessage config data now else c

/-- The record goes to the application if the consumer has its topic, and only
then. -/
def Reaches (config : ConsumerConfig) (c : Consumer) (record : Record) (data : Bytes)
    (now : Int64) : Prop :=
  (publishTo config c data now).records =
    if record.topic ∈ c.subscriptions then c.records ++ [{ record with timestamp := now }]
    else c.records

variable {config : ConsumerConfig} {c : Consumer} {data : Bytes} {now : Int64} {record : Record}
  {range : RangeOrder record.headers}

theorem publishRecord_eq_ok_iff :
    publishRecord record range = .ok data ↔
      ∃ body, record.message.marshal range = .ok body ∧
        Message.marshal ⟨protocolVersion, messageTypeRecord, record.topic, body⟩ = .ok data := by
  unfold publishRecord createRecordMessage
  rcases record.message.marshal range with err | body
  · constructor
    · rintro ⟨⟩
    · rintro ⟨body, ⟨⟩, _⟩
  · constructor
    · intro hdata
      exact ⟨body, rfl, hdata⟩
    · rintro ⟨_, ⟨⟩, hdata⟩
      exact hdata

theorem recordOf_publishRecord {subscriptions : Finset Bytes}
    (hdata : publishRecord record range = .ok data) :
    recordOf subscriptions data now =
      if record.topic ∈ subscriptions then some { record with timestamp := now } else none := by
  obtain ⟨body, hbody, hmarshal⟩ := publishRecord_eq_ok_iff.mp hdata
  have hrecord : RecordMessage.unmarshal body = .ok record.message :=
    (codes_record record.message range).decode hbody
  rw [recordOf, unmarshal_marshal hmarshal]
  by_cases htopic : record.topic ∈ subscriptions
  · simp only [htopic, hrecord, and_self, if_true]
    rfl
  · simp only [htopic, false_and, if_false]

theorem publishTo_records (hdata : publishRecord record range = .ok data)
    (hroom : c.records.length < recordQueue) :
    (publishTo config c data now).records =
      if subscribed c.subscriptions data ∧ record.topic ∈ c.subscriptions then
        c.records ++ [{ record with timestamp := now }]
      else c.records := by
  unfold publishTo
  by_cases hselected : subscribed c.subscriptions data = true
  · rw [if_pos hselected, processSubscriptionMessage_eq, recordOf_publishRecord hdata]
    by_cases htopic : record.topic ∈ c.subscriptions
    · rw [if_pos htopic, if_pos ⟨hselected, htopic⟩]
      rw [Option.elim_some, deliver_eq, Consumer.pushRecord, requestMissingRecords_records,
        if_pos hroom]
    · rw [if_neg htopic, if_neg (fun hboth => htopic hboth.2)]
      rfl
  · rw [if_neg hselected, if_neg (fun hboth => hselected hboth.1)]

/-- The filter compares the topics with the bytes of the message, which begin with
the protocol signature and not with the topic. -/
theorem subscribed_iff {topics : Finset Bytes} :
    subscribed topics data = true ↔ ∃ topic ∈ topics, topic <+: data := by
  unfold subscribed
  rw [decide_eq_true_iff]
  apply exists_congr
  intro topic
  apply and_congr_right
  intro _
  rw [List.isPrefixOf_iff_prefix]
  constructor
  · rintro (rfl | hstart)
    · exact List.nil_prefix
    · exact hstart
  · exact Or.inr

theorem reaches_iff (hdata : publishRecord record range = .ok data)
    (hroom : c.records.length < recordQueue) :
    Reaches config c record data now ↔
      (record.topic ∈ c.subscriptions → ∃ topic ∈ c.subscriptions, topic <+: data) := by
  unfold Reaches
  rw [publishTo_records hdata hroom, ← subscribed_iff]
  by_cases htopic : record.topic ∈ c.subscriptions
  · by_cases hselected : subscribed c.subscriptions data = true
    · simp [htopic, hselected]
    · simp [htopic, hselected]
  · simp [htopic]

def bareRecord (topic : Bytes) (offset : UInt64) : Record :=
  { (plainWrite ⟨topic, ascii "p"⟩).record with offset := offset }

def bareData (topic : Bytes) (offset : UInt64) : Except Err Bytes :=
  publishRecord (bareRecord topic offset) (plainWrite ⟨topic, ascii "p"⟩).range

theorem reaches_iff_empty_topic :
    ∃ data, bareData [] 0 = .ok data ∧
      Reaches ⟨1000⟩ (Consumer.new.subscribeToTopics [[]]) (bareRecord [] 0) data 0 := by
  obtain ⟨data, hdata⟩ : ∃ data, bareData [] 0 = .ok data := ⟨_, rfl⟩
  have hroom : (Consumer.new.subscribeToTopics [[]]).records.length < recordQueue := by decide
  refine ⟨data, hdata, (reaches_iff hdata hroom).mpr fun _ => ⟨[], ?_, List.nil_prefix⟩⟩
  exact Finset.mem_insert_self [] ∅

/-- The consumer has subscribed to the topic of the record, and the publisher does
not send it the message. -/
theorem not_reaches_text_topic :
    ∃ data, bareData (ascii "t") 0 = .ok data ∧
      (ascii "t") ∈ (Consumer.new.subscribeToTopics [ascii "t"]).subscriptions ∧
      ¬ Reaches ⟨1000⟩ (Consumer.new.subscribeToTopics [ascii "t"]) (bareRecord (ascii "t") 0)
        data 0 := by
  refine ⟨_, rfl, Finset.mem_insert_self _ ∅, ?_⟩
  intro hreaches
  have hempty := congrArg List.length hreaches
  rw [publishTo, if_neg (by decide)] at hempty
  revert hempty
  decide

end Publish

section Session

/-- A consumer between its publishers and its application.  `updating` has the
records that calls of `Poll` and `Consume` have taken from the queue without having
updated the partition yet.  `arrived` has all records that got to the loop, to
compare the requests with. -/
structure Session where
  consumer : Consumer
  updating : List Record
  arrived : List Record

/-- A step of the subscription loop (`receive`), of a call of `Poll` or `Consume`
(`poll`, `update`), of a reader of `Records()` (`recv`), and of the fetch loop. -/
inductive Action where
  | receive (data : Bytes) (now : Int64)
  | poll
  | update (i : Nat)
  | recv
  | fetch

/-- Only the subscription loop sends to the two queues, so that it makes no
difference that the others can go on while it handles a message. -/
def step (config : ConsumerConfig) (s : Session) : Action → Option Session
  | .receive data now =>
    some { s with
      consumer := s.consumer.processSubscriptionMessage config data now
      arrived := s.arrived ++ (recordOf s.consumer.subscriptions data now).toList }
  | .poll =>
    s.consumer.takeRecord.map fun taken =>
      { s with consumer := taken.2, updating := s.updating ++ [taken.1] }
  | .update i =>
    s.updating[i]?.map fun record =>
      { s with
        consumer := s.consumer.updatePartitionState record
        updating := s.updating.eraseIdx i }
  | .recv => s.consumer.takeRecord.map fun taken => { s with consumer := taken.2 }
  | .fetch =>
    s.consumer.takeRequest.map fun consumer => { s with consumer := consumer }

def Session.start (topics : List Bytes) : Session where
  consumer := Consumer.new.subscribeToTopics topics
  updating := []
  arrived := []

namespace Session

def offsets (s : Session) (pair : Pair) : List UInt64 :=
  (s.arrived.filter fun record => recordPair record = pair).map Record.offset

def arrival (s : Session) : Action → Option Record
  | .receive data now => recordOf s.consumer.subscriptions data now
  | _ => none

def newRequests (s t : Session) : List FetchRequest :=
  t.consumer.fetchRequests.drop s.consumer.fetchRequests.length

end Session

def InOrder (offsets : List UInt64) : Prop :=
  offsets.map UInt64.toNat = List.range offsets.length

def Room (s : Session) (_ : Action) : Prop :=
  s.consumer.records.length < recordQueue ∧ s.consumer.fetchRequests.length < fetchQueue

def Quiet (config : ConsumerConfig) (pair : Pair) (s : Session) (action : Action) : Prop :=
  ∀ t, step config s action = some t → ∀ request ∈ s.newRequests t, request.pair ≠ pair

/-- The action asks for no offset of the partition that has arrived. -/
def AsksForMissing (config : ConsumerConfig) (pair : Pair) (s : Session) (action : Action) : Prop :=
  ∀ t, step config s action = some t → ∀ request ∈ s.newRequests t, request.pair = pair →
    ∀ offset ∈ t.offsets pair, ¬ request.Covers offset

/-- When a record of the partition arrives, the application has taken all those
before it, and the last of them last. -/
def CaughtUp (pair : Pair) (s : Session) (action : Action) : Prop :=
  ∀ record, s.arrival action = some record → recordPair record = pair →
    ∀ offset ∈ s.offsets pair, offset < s.consumer.expectedOffset pair

instance (s : Session) (action : Action) : Decidable (Room s action) :=
  inferInstanceAs (Decidable (_ ∧ _))

instance (pair : Pair) (s : Session) (action : Action) : Decidable (CaughtUp pair s action) :=
  decidable_of_iff ((s.arrival action).all fun record => recordPair record ≠ pair ||
      (s.offsets pair).all fun offset => offset < s.consumer.expectedOffset pair)
    (by
      unfold CaughtUp
      rcases s.arrival action with _ | record
      · simp
      · simp [or_iff_not_imp_left])

structure RequestsRealGaps (config : ConsumerConfig) (pair : Pair) (s : Session)
    (actions : List Action) (t : Session) : Prop where
  quiet : InOrder (t.offsets pair) → Throughout (step config) (Quiet config pair) s actions
  missing : Throughout (step config) (AsksForMissing config pair) s actions

variable {config : ConsumerConfig} {pair : Pair} {s t : Session} {action : Action}
  {record : Record}

theorem step_of_arrival (hstep : step config s action = some t)
    (harrival : s.arrival action = some record) :
    t.consumer = s.consumer.deliver config record ∧ t.arrived = s.arrived ++ [record] := by
  cases action with
  | receive data now =>
    cases hstep
    have hrecord : recordOf s.consumer.subscriptions data now = some record := harrival
    constructor
    · simp only [processSubscriptionMessage_eq, hrecord, Option.elim]
    · simp only [hrecord, Option.toList]
  | _ => cases harrival

theorem newRequests_of_suffix (hsuffix : t.consumer.fetchRequests <:+ s.consumer.fetchRequests) :
    s.newRequests t = [] :=
  List.drop_eq_nil_of_le hsuffix.length_le

theorem takeRequest_fetchRequests {c rest : Consumer} (htake : c.takeRequest = some rest) :
    rest.fetchRequests <:+ c.fetchRequests := by
  unfold Consumer.takeRequest at htake
  split at htake
  · cases htake
  · rename_i request requests hrequests
    cases htake
    rw [hrequests]
    exact List.suffix_cons request requests

theorem step_without_arrival (hstep : step config s action = some t)
    (harrival : s.arrival action = none) :
    t.arrived = s.arrived ∧ s.newRequests t = [] := by
  cases action with
  | receive data now =>
    cases hstep
    have hrecord : recordOf s.consumer.subscriptions data now = none := harrival
    constructor
    · simp only [hrecord, Option.toList, List.append_nil]
    · apply newRequests_of_suffix
      simp only [processSubscriptionMessage_eq, hrecord, Option.elim]
      exact List.suffix_refl _
  | poll | recv =>
    obtain ⟨taken, htake, rfl⟩ := Option.map_eq_some_iff.mp hstep
    refine ⟨rfl, newRequests_of_suffix ?_⟩
    unfold Consumer.takeRecord at htake
    split at htake
    · cases htake
    · cases htake
      exact List.suffix_refl _
  | update i =>
    obtain ⟨record, _, rfl⟩ := Option.map_eq_some_iff.mp hstep
    exact ⟨rfl, newRequests_of_suffix (List.suffix_refl _)⟩
  | fetch =>
    obtain ⟨consumer, htake, rfl⟩ := Option.map_eq_some_iff.mp hstep
    exact ⟨rfl, newRequests_of_suffix (takeRequest_fetchRequests htake)⟩

theorem newRequests_of_lt (hstep : step config s action = some t)
    (harrival : s.arrival action = some record) (hroom : Room s action)
    (hlt : s.consumer.expectedOffset (recordPair record) < record.offset) :
    s.newRequests t =
      [⟨recordPair record, s.consumer.expectedOffset (recordPair record),
        Consumer.missingCount config (s.consumer.expectedOffset (recordPair record))
          record.offset⟩] := by
  rw [Session.newRequests, (step_of_arrival hstep harrival).1,
    deliver_eq, pushRecord_fetchRequests, Consumer.requestMissingRecords,
    if_neg (UInt64.not_le.mpr hlt), if_pos hroom.2, List.drop_left]

theorem mem_newRequests {request : FetchRequest} (hstep : step config s action = some t)
    (hroom : Room s action) (hrequest : request ∈ s.newRequests t) :
    ∃ record, s.arrival action = some record ∧
      s.consumer.expectedOffset (recordPair record) < record.offset ∧
      request = ⟨recordPair record, s.consumer.expectedOffset (recordPair record),
        Consumer.missingCount config (s.consumer.expectedOffset (recordPair record))
          record.offset⟩ := by
  rcases harrival : s.arrival action with _ | record
  · rw [(step_without_arrival hstep harrival).2] at hrequest
    cases hrequest
  by_cases hlt : s.consumer.expectedOffset (recordPair record) < record.offset
  · rw [newRequests_of_lt hstep harrival hroom hlt] at hrequest
    exact ⟨record, rfl, hlt, List.mem_singleton.mp hrequest⟩
  · rw [newRequests_of_suffix] at hrequest
    · cases hrequest
    · rw [(step_of_arrival hstep harrival).1, deliver_eq, pushRecord_fetchRequests,
        Consumer.requestMissingRecords, if_pos (UInt64.not_lt.mp hlt)]

theorem offsets_of_arrival (hstep : step config s action = some t)
    (harrival : s.arrival action = some record) (hpair : recordPair record = pair) :
    t.offsets pair = s.offsets pair ++ [record.offset] := by
  simp [Session.offsets, (step_of_arrival hstep harrival).2, hpair]

theorem offsets_prefix_step (hstep : step config s action = some t) :
    s.offsets pair <+: t.offsets pair := by
  rcases harrival : s.arrival action with _ | record
  · rw [Session.offsets, Session.offsets, (step_without_arrival hstep harrival).1]
  · rw [Session.offsets, Session.offsets, (step_of_arrival hstep harrival).2,
      List.filter_append, List.map_append]
    exact List.prefix_append _ _

theorem inOrder_concat_iff {offsets : List UInt64} {offset : UInt64} :
    InOrder (offsets ++ [offset]) ↔ InOrder offsets ∧ offset.toNat = offsets.length := by
  unfold InOrder
  rw [List.map_append, List.length_append, List.length_singleton, List.range_succ]
  simp

theorem mem_iff_of_inOrder {offsets : List UInt64} (hoffsets : InOrder offsets)
    (offset : UInt64) : offset ∈ offsets ↔ offset.toNat < offsets.length := by
  rw [← List.mem_range, ← hoffsets]
  exact (List.mem_map_of_injective fun _ _ => UInt64.toNat_inj.mp).symm

/-- The request ends below the record that has just arrived, and starts above the
others if these have been taken. -/
theorem asksForMissing_of_caughtUp (hroom : Room s action) (hcaught : CaughtUp pair s action) :
    AsksForMissing config pair s action := by
  intro t hstep request hrequest hpair offset hoffset hcovers
  obtain ⟨record, harrival, hlt, rfl⟩ := mem_newRequests hstep hroom hrequest
  have hpair : recordPair record = pair := hpair
  rw [offsets_of_arrival hstep harrival hpair, List.mem_append, List.mem_singleton] at hoffset
  rcases hoffset with hearlier | rfl
  · have hbelow := UInt64.lt_iff_toNat_lt.mp (hcaught record harrival hpair offset hearlier)
    rw [← hpair] at hbelow
    exact absurd hcovers.1 (not_le.mpr hbelow)
  · exact absurd hcovers.2 (not_lt.mpr (missingCount_le hlt))

theorem lt_expected_iff {offsets : List UInt64} {offset expected : UInt64}
    (horder : InOrder (offsets ++ [offset])) :
    (∀ earlier ∈ offsets, earlier < expected) ↔ offset ≤ expected := by
  obtain ⟨hoffsets, hlast⟩ := inOrder_concat_iff.mp horder
  constructor
  · intro hall
    by_contra hgt
    have hlt := UInt64.lt_iff_toNat_lt.mp (UInt64.not_le.mp hgt)
    have hmem := (mem_iff_of_inOrder hoffsets expected).mpr (by omega)
    exact UInt64.lt_irrefl expected (hall expected hmem)
  · intro hle earlier hmem
    have hearlier := (mem_iff_of_inOrder hoffsets earlier).mp hmem
    have hexpected := UInt64.le_iff_toNat_le.mp hle
    exact UInt64.lt_iff_toNat_lt.mpr (by omega)

/-- Among records that arrive in order, one with an earlier record still in the
queue leads to a request. -/
theorem quiet_iff_caughtUp (hroom : Room s action)
    (horder : ∀ t, step config s action = some t → InOrder (t.offsets pair)) :
    Quiet config pair s action ↔ CaughtUp pair s action := by
  constructor
  · rintro hquiet record harrival rfl
    obtain ⟨t, hstep⟩ : ∃ t, step config s action = some t := by
      cases action with
      | receive data now => exact ⟨_, rfl⟩
      | _ => cases harrival
    have hafter := horder t hstep
    rw [offsets_of_arrival hstep harrival rfl] at hafter
    apply (lt_expected_iff hafter).mpr
    by_contra hgt
    have hnone := hquiet t hstep
    rw [newRequests_of_lt hstep harrival hroom (UInt64.not_le.mp hgt)] at hnone
    exact hnone _ (List.mem_singleton_self _) rfl
  · rintro hcaught t hstep request hrequest rfl
    obtain ⟨record, harrival, hlt, rfl⟩ := mem_newRequests hstep hroom hrequest
    have hafter := horder t hstep
    rw [offsets_of_arrival hstep harrival rfl] at hafter
    have hle := (lt_expected_iff hafter).mp (hcaught record harrival rfl)
    exact UInt64.not_le.mpr hlt hle

variable {actions : List Action}

theorem throughout_inOrder (hrun : run (step config) s actions = some t)
    (horder : InOrder (t.offsets pair)) :
    Throughout (step config)
      (fun s action => ∀ s', step config s action = some s' → InOrder (s'.offsets pair))
      s actions := by
  induction actions generalizing s with
  | nil => exact trivial
  | cons action rest ih =>
    obtain ⟨next, hstep, hrest⟩ := run_cons_eq_some_iff.mp hrun
    have hstart : next.offsets pair <+: t.offsets pair :=
      run_keeps (I := fun later => next.offsets pair <+: later.offsets pair)
        (fun _ _ _ hbefore hnext => hbefore.trans (offsets_prefix_step hnext))
        List.prefix_rfl hrest
    rw [throughout_cons_iff hstep]
    refine ⟨?_, ih hrest⟩
    intro s' hs'
    obtain rfl : next = s' := Option.some.inj (hstep.symm.trans hs')
    obtain ⟨later, hlater⟩ := hstart
    have htake := congrArg (List.take (next.offsets pair).length) (hlater ▸ horder : InOrder _)
    simpa [InOrder, List.take_range] using htake

theorem throughout_quiet_iff (hrun : run (step config) s actions = some t)
    (hroom : Throughout (step config) Room s actions) (horder : InOrder (t.offsets pair)) :
    Throughout (step config) (Quiet config pair) s actions ↔
      Throughout (step config) (CaughtUp pair) s actions :=
  throughout_congr (fun _ _ hboth => quiet_iff_caughtUp hboth.1 hboth.2)
    (throughout_of_both (fun _ _ => And.intro) hroom (throughout_inOrder hrun horder))

/-- A consumer whose application has taken the earlier records of a partition by
the time the next one arrives only asks for records it does not have.  For records
that arrive in order there is no other way to ask for nothing. -/
theorem requestsRealGaps_iff {actions : List Action}
    (hrun : run (step config) s actions = some t)
    (hroom : Throughout (step config) Room s actions) :
    (Throughout (step config) (CaughtUp pair) s actions →
        RequestsRealGaps config pair s actions t) ∧
      (InOrder (t.offsets pair) →
        (RequestsRealGaps config pair s actions t ↔
          Throughout (step config) (CaughtUp pair) s actions)) := by
  have hsuffices : Throughout (step config) (CaughtUp pair) s actions →
      RequestsRealGaps config pair s actions t := by
    intro hcaught
    constructor
    · intro horder
      exact (throughout_quiet_iff hrun hroom horder).mpr hcaught
    · exact throughout_of_both (fun _ _ => asksForMissing_of_caughtUp) hroom hcaught
  refine ⟨hsuffices, fun horder => ⟨?_, hsuffices⟩⟩
  intro hgaps
  exact (throughout_quiet_iff hrun hroom horder).mp (hgaps.quiet horder)

def textPair : Pair :=
  ⟨ascii "t", ascii "p"⟩

def bareFrame (offset : UInt64) : Bytes :=
  (bareData (ascii "t") offset).toOption.getD []

def textSession : Session :=
  Session.start [[], ascii "t"]

def polledRun : List Action :=
  [.receive (bareFrame 0) 0, .poll, .update 0, .receive (bareFrame 1) 0]

theorem requestsRealGaps_iff_polledRun :
    ∃ t, run (step ⟨1000⟩) textSession polledRun = some t ∧ InOrder (t.offsets textPair) ∧
      RequestsRealGaps ⟨1000⟩ textPair textSession polledRun t := by
  have hcaught : Throughout (step ⟨1000⟩) (CaughtUp textPair) textSession polledRun := by
    decide +kernel
  have hroom : Throughout (step ⟨1000⟩) Room textSession polledRun := by
    decide +kernel
  have hgaps : ∀ t, run (step ⟨1000⟩) textSession polledRun = some t →
      RequestsRealGaps ⟨1000⟩ textPair textSession polledRun t :=
    fun t hrun => (requestsRealGaps_iff hrun hroom).1 hcaught
  exact ⟨_, rfl, rfl, hgaps _ rfl⟩

def laggingRun : List Action :=
  [.receive (bareFrame 0) 0, .receive (bareFrame 1) 0]

/-- The consumer asks for a record that it has. -/
theorem not_requestsRealGaps_laggingRun :
    ∃ t, run (step ⟨1000⟩) textSession laggingRun = some t ∧
      Throughout (step ⟨1000⟩) Room textSession laggingRun ∧ InOrder (t.offsets textPair) ∧
      t.consumer.fetchRequests = [⟨textPair, 0, 1⟩] ∧
      ¬ RequestsRealGaps ⟨1000⟩ textPair textSession laggingRun t := by
  refine ⟨_, rfl, by decide +kernel, rfl, rfl, ?_⟩
  intro hgaps
  have hquiet := hgaps.quiet rfl
  exact (hquiet.2 _ rfl).1 _ rfl _ (List.mem_singleton_self _) rfl

end Session

end Zmq4.DafkaConsumer
