import Zmq4.ActionRuns
import Zmq4.DafkaMessages

namespace Zmq4.DafkaProducer

open ByteCodec DafkaMessages ActionRuns

/-- `BatchSize` and `LingerMs` are positive, see `NewProducer`; the linger time is
in nanoseconds. -/
structure ProducerConfig where
  uuid : Bytes
  batchSize : Nat
  linger : Int

structure ProduceRequest where
  topic : Bytes
  key : Bytes
  value : Bytes
  headers : Headers
  timestamp : Int64

structure RecordBatch where
  topic : Bytes
  partition : Bytes
  records : List Record
  baseOffset : UInt64
  batchSize : Nat
  timestamp : Int

structure TopicState where
  nextOffset : UInt64
  pendingBatch : Option RecordBatch

def queueSize : Nat := 1000

/-- The records of a producer: those in its topics, the queue of batches, and, to
compare them with, the batches that `publishBatch` was called with and all records
in the order in which they were accepted. -/
structure Ledger where
  topics : AList fun _ : Bytes => TopicState
  batches : List RecordBatch
  taken : List RecordBatch
  accepted : List Record

namespace Ledger

def empty : Ledger where
  topics := ∅
  batches := []
  taken := []
  accepted := []

def topicState (l : Ledger) (topic : Bytes) : TopicState :=
  (l.topics.lookup topic).getD { nextOffset := 0, pendingBatch := none }

def pending (l : Ledger) (topic : Bytes) : List Record :=
  (l.topicState topic).pendingBatch.elim [] RecordBatch.records

def newRecord (config : ProducerConfig) (l : Ledger) (request : ProduceRequest) : Record where
  topic := request.topic
  partition := config.uuid
  offset := (l.topicState request.topic).nextOffset
  key := request.key
  value := request.value
  headers := request.headers
  timestamp := request.timestamp

def openBatch (config : ProducerConfig) (l : Ledger) (request : ProduceRequest) (now : Int) :
    RecordBatch :=
  (l.topicState request.topic).pendingBatch.getD
    { topic := request.topic, partition := config.uuid, records := []
      baseOffset := (l.newRecord config request).offset, batchSize := 0, timestamp := now }

def accept (config : ProducerConfig) (l : Ledger) (request : ProduceRequest) (now : Int) : Ledger :=
  let record := l.newRecord config request
  let batch := l.openBatch config request now
  { l with
    topics := l.topics.insert request.topic
      { nextOffset := record.offset + 1
        pendingBatch := some { batch with
          records := batch.records ++ [record], batchSize := batch.batchSize + 1 } }
    accepted := l.accepted ++ [record] }

def flushTopicBatchLocked (l : Ledger) (topic : Bytes) : Ledger :=
  match (l.topicState topic).pendingBatch with
  | none => l
  | some batch =>
    if batch.records.length = 0 then l
    else if l.batches.length < queueSize then
      { l with
        batches := l.batches ++ [batch]
        topics := l.topics.insert topic { l.topicState topic with pendingBatch := none } }
    else l

def flushAllBatches (l : Ledger) (order : List Bytes) : Ledger :=
  order.foldl flushTopicBatchLocked l

def lingers (config : ProducerConfig) (l : Ledger) (now : Int) (topic : Bytes) : Bool :=
  (l.topicState topic).pendingBatch.any fun batch => now - batch.timestamp > config.linger

def flushPendingBatches (config : ProducerConfig) (l : Ledger) (now : Int) (order : List Bytes) :
    Ledger :=
  order.foldl (fun l topic => if l.lingers config now topic then l.flushTopicBatchLocked topic else l) l

def takeBatch (l : Ledger) : Option (RecordBatch × Ledger) :=
  match l.batches with
  | [] => none
  | batch :: rest => some (batch, { l with batches := rest, taken := l.taken ++ [batch] })

def placed (l : Ledger) (topic : Bytes) : List Record :=
  ((l.taken ++ l.batches).flatMap RecordBatch.records).filter (fun r => r.topic = topic) ++
    l.pending topic

def acceptedFor (l : Ledger) (topic : Bytes) : List Record :=
  l.accepted.filter fun r => r.topic = topic

end Ledger

variable {l' : Ledger}

section Invariant

open Ledger

/-- Each accepted record of the topic has its place, in the order of acceptance,
and has the number of records before it as its offset. -/
structure Accounted (l : Ledger) (topic : Bytes) : Prop where
  pending_topic : ∀ r ∈ l.pending topic, r.topic = topic
  placed_eq : l.placed topic = l.acceptedFor topic
  next_eq : (l.topicState topic).nextOffset = UInt64.ofNat (l.acceptedFor topic).length
  offsets_eq : (l.acceptedFor topic).map Record.offset =
    (List.range (l.acceptedFor topic).length).map UInt64.ofNat

variable {l : Ledger} {topic : Bytes}

theorem topicState_insert_self {ts : TopicState} (htopics : l'.topics = l.topics.insert topic ts) :
    l'.topicState topic = ts := by
  rw [topicState, htopics, AList.lookup_insert]
  rfl

theorem topicState_insert_of_ne {ts : TopicState} {other : Bytes}
    (htopics : l'.topics = l.topics.insert topic ts) (hne : other ≠ topic) :
    l'.topicState other = l.topicState other := by
  rw [topicState, htopics, AList.lookup_insert_ne hne]
  rfl

theorem Accounted.moved (hl : Accounted l topic)
    (hpending : ∀ r ∈ l'.pending topic, r.topic = topic)
    (hplaced : l'.placed topic = l.placed topic)
    (haccepted : l'.acceptedFor topic = l.acceptedFor topic)
    (hnext : (l'.topicState topic).nextOffset = (l.topicState topic).nextOffset) :
    Accounted l' topic where
  pending_topic := hpending
  placed_eq := by rw [hplaced, haccepted, hl.placed_eq]
  next_eq := by rw [hnext, haccepted, hl.next_eq]
  offsets_eq := by rw [haccepted, hl.offsets_eq]

theorem accounted_accept (config : ProducerConfig) (request : ProduceRequest) (now : Int)
    (hl : Accounted l topic) : Accounted (l.accept config request now) topic := by
  rcases eq_or_ne topic request.topic with rfl | hne
  · have hpending : (l.accept config request now).pending request.topic =
        l.pending request.topic ++ [l.newRecord config request] := by
      rw [pending, topicState_insert_self rfl]
      refine congrArg (· ++ _) ?_
      rw [openBatch, pending]
      rcases (l.topicState request.topic).pendingBatch with _ | batch
      · rfl
      · rfl
    have haccepted : (l.accept config request now).acceptedFor request.topic =
        l.acceptedFor request.topic ++ [l.newRecord config request] := by
      simp [acceptedFor, accept, newRecord]
    have hoffset : (l.newRecord config request).offset =
        UInt64.ofNat (l.acceptedFor request.topic).length := hl.next_eq
    refine ⟨?_, ?_, ?_, ?_⟩
    · rw [hpending]
      exact List.forall_mem_append.mpr ⟨hl.pending_topic, List.forall_mem_singleton.mpr rfl⟩
    · rw [placed, hpending, haccepted, ← hl.placed_eq, placed, List.append_assoc]
      rfl
    · rw [topicState_insert_self rfl, haccepted, List.length_append, List.length_singleton,
        UInt64.ofNat_add, hoffset]
      rfl
    · rw [haccepted, List.map_append, hl.offsets_eq, List.length_append, List.length_singleton,
        List.range_succ, List.map_append, List.map_singleton, List.map_singleton, hoffset]
  · have hstate : (l.accept config request now).topicState topic = l.topicState topic :=
      topicState_insert_of_ne rfl hne
    have hpending : (l.accept config request now).pending topic = l.pending topic := by
      rw [pending, pending, hstate]
    have haccepted : (l.accept config request now).acceptedFor topic = l.acceptedFor topic := by
      simp [acceptedFor, accept, newRecord, hne.symm]
    have hplaced : (l.accept config request now).placed topic = l.placed topic := by
      rw [placed, placed, hpending]
      rfl
    exact hl.moved (hpending ▸ hl.pending_topic) hplaced haccepted (by rw [hstate])

theorem flushTopicBatchLocked_cases (l : Ledger) (topic : Bytes) :
    l.flushTopicBatchLocked topic = l ∨
      ∃ batch, (l.topicState topic).pendingBatch = some batch ∧
        l.flushTopicBatchLocked topic =
          { l with
            batches := l.batches ++ [batch]
            topics := l.topics.insert topic { l.topicState topic with pendingBatch := none } } := by
  rw [flushTopicBatchLocked]
  rcases (l.topicState topic).pendingBatch with _ | batch
  · exact Or.inl rfl
  · dsimp only
    split
    · exact Or.inl rfl
    · split
      · exact Or.inr ⟨batch, rfl, rfl⟩
      · exact Or.inl rfl

variable {batch : RecordBatch}

theorem accounted_flush (hl : ∀ topic, Accounted l topic) (flushed topic : Bytes) :
    Accounted (l.flushTopicBatchLocked flushed) topic := by
  rcases flushTopicBatchLocked_cases l flushed with hkept | ⟨batch, hbatch, hflush⟩
  · rw [hkept]
    exact hl topic
  have hrecords : batch.records = l.pending flushed := by
    rw [pending, hbatch]
    rfl
  have hqueued : (l.flushTopicBatchLocked flushed).placed topic =
      ((l.taken ++ l.batches).flatMap RecordBatch.records).filter (fun r => r.topic = topic) ++
        ((l.pending flushed).filter (fun r => r.topic = topic) ++
          (l.flushTopicBatchLocked flushed).pending topic) := by
    rw [placed, hflush]
    simp [hrecords]
  have haccepted : (l.flushTopicBatchLocked flushed).acceptedFor topic = l.acceptedFor topic := by
    rw [hflush]
    rfl
  rcases eq_or_ne topic flushed with rfl | hne
  · have hstate : (l.flushTopicBatchLocked topic).topicState topic =
        { l.topicState topic with pendingBatch := none } := by
      rw [hflush]
      exact topicState_insert_self rfl
    have hpending : (l.flushTopicBatchLocked topic).pending topic = [] := by
      rw [pending, hstate]
      rfl
    have hall : (l.pending topic).filter (fun r => r.topic = topic) = l.pending topic :=
      List.filter_eq_self.mpr fun r hr => decide_eq_true ((hl topic).pending_topic r hr)
    apply (hl topic).moved
    · simp [hpending]
    · rw [hqueued, hall, hpending, List.append_nil]
      rfl
    · exact haccepted
    · rw [hstate]
  · have hstate : (l.flushTopicBatchLocked flushed).topicState topic = l.topicState topic := by
      rw [hflush]
      exact topicState_insert_of_ne rfl hne
    have hpending : (l.flushTopicBatchLocked flushed).pending topic = l.pending topic := by
      rw [pending, pending, hstate]
    have hnone : (l.pending flushed).filter (fun r => r.topic = topic) = [] := by
      apply List.filter_eq_nil_iff.mpr
      intro r hr htopic
      exact hne ((of_decide_eq_true htopic).symm.trans ((hl flushed).pending_topic r hr))
    apply (hl topic).moved
    · exact hpending ▸ (hl topic).pending_topic
    · rw [hqueued, hnone, hpending, List.nil_append]
      rfl
    · exact haccepted
    · rw [hstate]

theorem accounted_flushAllBatches (hl : ∀ topic, Accounted l topic) (order : List Bytes) :
    ∀ topic, Accounted (l.flushAllBatches order) topic := by
  induction order generalizing l with
  | nil => exact hl
  | cons flushed rest ih =>
    rw [flushAllBatches, List.foldl_cons]
    exact ih (accounted_flush hl flushed)

theorem accounted_flushPendingBatches (config : ProducerConfig) (hl : ∀ topic, Accounted l topic)
    (now : Int) (order : List Bytes) :
    ∀ topic, Accounted (l.flushPendingBatches config now order) topic := by
  induction order generalizing l with
  | nil => exact hl
  | cons flushed rest ih =>
    rw [flushPendingBatches, List.foldl_cons]
    split
    · exact ih (accounted_flush hl flushed)
    · exact ih hl

theorem accounted_takeBatch (hl : Accounted l topic) (htake : l.takeBatch = some (batch, l')) :
    Accounted l' topic := by
  rw [takeBatch] at htake
  split at htake
  · cases htake
  · rename_i rest hbatches
    cases htake
    refine hl.moved hl.pending_topic ?_ rfl rfl
    rw [placed, placed, hbatches, List.append_assoc]
    rfl

end Invariant

section Loops

inductive NodeState where
  | stopped
  | starting
  | running
  | stopping
  deriving DecidableEq

inductive Loop where
  | command
  | record
  | batch
  | response
  | ack
  | flush
  deriving DecidableEq

def Loop.all : List Loop :=
  [.command, .record, .batch, .response, .ack, .flush]

inductive RecordLoop where
  | idle
  | respond (record : Record)
  | check (topic : Bytes)
  | flush (topic : Bytes)
  | count

inductive StopCall where
  | none
  /-- It waits for the mutex. -/
  | called
  /-- It holds the mutex and waits for it again in `flushAllBatches`. -/
  | flushing
  /-- It has cancelled the context and waits for the goroutines. -/
  | waiting
  | returned
  deriving DecidableEq

/-- `locked` is set while `Stop` has the mutex.  The other critical sections are
one step each.  `acked` and `sent` are the records whose response has been sent,
and those that were passed to `SendMulti`. -/
structure Producer where
  state : NodeState
  ledger : Ledger
  alive : List Loop
  recordLoop : RecordLoop
  publishing : List Record
  locked : Bool
  stop : StopCall
  done : Bool
  crashed : Bool
  acked : List Record
  sent : List Record

def newProducer : Producer where
  state := .stopped
  ledger := Ledger.empty
  alive := []
  recordLoop := .idle
  publishing := []
  locked := false
  stop := .none
  done := false
  crashed := false
  acked := []
  sent := []

inductive Action where
  /-- `Start`, and whether the sockets could be opened. -/
  | start (opened : Bool)
  | accept (request : ProduceRequest) (now : Int)
  | respond (delivered : Bool)
  | check
  | flushTopic
  | count
  | linger (now : Int) (order : List Bytes)
  | flush (order : List Bytes)
  | take
  /-- One record of a batch, and whether it could be marshalled. -/
  | publish (marshalled : Bool)
  | exit (loop : Loop)
  | stopCall
  | stopLock
  | stopFlush (order : List Bytes)
  | stopWait

variable (config : ProducerConfig)

def enters (p : Producer) (loop : Loop) : Prop :=
  loop ∈ p.alive ∧ p.locked = false

instance (p : Producer) (loop : Loop) : Decidable (enters p loop) :=
  inferInstanceAs (Decidable (_ ∧ _))

/-- The steps of `recordLoop`.  The batch may be gone when its size is checked:
then the program panics. -/
def recordStep (p : Producer) : Action → Option Producer
  | .accept request now =>
    match p.recordLoop with
    | .idle =>
      if enters p .record then
        some { p with
          ledger := p.ledger.accept config request now
          recordLoop := .respond (p.ledger.newRecord config request) }
      else none
    | _ => none
  | .respond delivered =>
    match p.recordLoop with
    | .respond record =>
      if ¬ .record ∈ p.alive then none
      else if delivered then
        some { p with recordLoop := .check record.topic, acked := p.acked ++ [record] }
      else if p.done then some { p with recordLoop := .idle }
      else none
    | _ => none
  | .check =>
    match p.recordLoop with
    | .check topic =>
      if enters p .record then
        match (p.ledger.topicState topic).pendingBatch with
        | none => some { p with crashed := true }
        | some batch =>
          some { p with
            recordLoop :=
              if batch.batchSize ≥ config.batchSize then .flush topic else .count }
      else none
    | _ => none
  | .flushTopic =>
    match p.recordLoop with
    | .flush topic =>
      if enters p .record then
        some { p with
          ledger := p.ledger.flushTopicBatchLocked topic, recordLoop := .count }
      else none
    | _ => none
  | .count =>
    match p.recordLoop with
    | .count => if enters p .record then some { p with recordLoop := .idle } else none
    | _ => none
  | _ => none

/-- A goroutine is at its `select`, where it can see that the context is done. -/
def atSelect (p : Producer) : Loop → Bool
  | .record =>
    match p.recordLoop with
    | .idle => true
    | _ => false
  | .batch => p.publishing.length = 0
  | _ => true

def loopStep (p : Producer) : Action → Option Producer
  | .linger now order =>
    if enters p .flush ∧ order.Perm p.ledger.topics.keys then
      some { p with ledger := p.ledger.flushPendingBatches config now order }
    else none
  | .flush order =>
    if enters p .command ∧ order.Perm p.ledger.topics.keys then
      some { p with ledger := p.ledger.flushAllBatches order }
    else none
  | .take =>
    if .batch ∈ p.alive ∧ p.publishing.length = 0 then
      p.ledger.takeBatch.map fun taken =>
        { p with ledger := taken.2, publishing := taken.1.records }
    else none
  | .publish marshalled =>
    match p.publishing with
    | [] => none
    | record :: rest =>
      if .batch ∈ p.alive then
        some { p with
          publishing := rest, sent := if marshalled then p.sent ++ [record] else p.sent }
      else none
  | .exit loop =>
    if p.done ∧ loop ∈ p.alive ∧ atSelect p loop then
      some { p with alive := p.alive.erase loop }
    else none
  | _ => none

def controlStep (p : Producer) : Action → Option Producer
  | .start opened =>
    if p.state = .stopped ∧ p.locked = false then
      if opened then some { p with state := .running, alive := Loop.all }
      else some { p with state := .starting }
    else none
  | .stopCall =>
    if p.stop = .none ∨ p.stop = .returned then some { p with stop := .called } else none
  | .stopLock =>
    if p.stop = .called ∧ p.locked = false then
      if p.state = .stopped then some { p with stop := .returned }
      else some { p with state := .stopping, locked := true, stop := .flushing }
    else none
  | .stopFlush order =>
    if p.stop = .flushing ∧ p.locked = false ∧ order.Perm p.ledger.topics.keys then
      some { p with
        ledger := p.ledger.flushAllBatches order, done := true, stop := .waiting }
    else none
  | .stopWait =>
    if p.stop = .waiting ∧ p.alive.length = 0 then
      some { p with state := .stopped, locked := false, stop := .returned }
    else none
  | _ => none

def step (p : Producer) (action : Action) : Option Producer :=
  if p.crashed then none
  else (recordStep config p action).or ((loopStep config p action).or (controlStep p action))

variable {config : ProducerConfig} {p p' : Producer} {action : Action}

theorem step_cases (hstep : step config p action = some p') :
    p.crashed = false ∧
      (recordStep config p action = some p' ∨ loopStep config p action = some p' ∨
        controlStep p action = some p') := by
  rw [step] at hstep
  split at hstep
  · cases hstep
  · rename_i hcrashed
    simp only [Option.or_eq_some_iff] at hstep
    exact ⟨by simpa using hcrashed, by tauto⟩

/-- What the invariant of the records needs to know of a step. -/
inductive LedgerStep (config : ProducerConfig) (l : Ledger) : Ledger → Prop where
  | kept : LedgerStep config l l
  | accepted (request : ProduceRequest) (now : Int) :
      LedgerStep config l (l.accept config request now)
  | flushed (topic : Bytes) : LedgerStep config l (l.flushTopicBatchLocked topic)
  | flushedAll (order : List Bytes) : LedgerStep config l (l.flushAllBatches order)
  | lingered (now : Int) (order : List Bytes) :
      LedgerStep config l (l.flushPendingBatches config now order)
  | taken {batch : RecordBatch} {l' : Ledger} (htake : l.takeBatch = some (batch, l')) :
      LedgerStep config l l'

/-- The goroutines of the producer do not touch the state of the producer, and
neither the mutex nor the call of `Stop`. -/
structure LoopStep (config : ProducerConfig) (p p' : Producer) : Prop where
  alive_ne : p.alive ≠ []
  state_eq : p'.state = p.state
  locked_eq : p'.locked = p.locked
  stop_eq : p'.stop = p.stop
  ledger : LedgerStep config p.ledger p'.ledger

theorem recordStep_loopStep (hstep : recordStep config p action = some p') :
    LoopStep config p p' := by
  cases action with
  | accept request now =>
    simp only [recordStep] at hstep
    split at hstep
    · obtain ⟨henters, ⟨⟩⟩ := Option.ite_none_right_eq_some.mp hstep
      exact ⟨List.ne_nil_of_mem henters.1, rfl, rfl, rfl, .accepted request now⟩
    · cases hstep
  | respond delivered =>
    simp only [recordStep] at hstep
    split at hstep
    · split at hstep
      · cases hstep
      · rename_i hmem
        have hne := List.ne_nil_of_mem (not_not.mp hmem)
        split at hstep
        · cases hstep
          exact ⟨hne, rfl, rfl, rfl, .kept⟩
        · split at hstep
          · cases hstep
            exact ⟨hne, rfl, rfl, rfl, .kept⟩
          · cases hstep
    · cases hstep
  | check =>
    simp only [recordStep] at hstep
    split at hstep
    · obtain ⟨henters, hchecked⟩ := Option.ite_none_right_eq_some.mp hstep
      have hne := List.ne_nil_of_mem henters.1
      split at hchecked
      · cases hchecked
        exact ⟨hne, rfl, rfl, rfl, .kept⟩
      · cases hchecked
        exact ⟨hne, rfl, rfl, rfl, .kept⟩
    · cases hstep
  | flushTopic =>
    simp only [recordStep] at hstep
    split at hstep
    · rename_i topic _
      obtain ⟨henters, ⟨⟩⟩ := Option.ite_none_right_eq_some.mp hstep
      exact ⟨List.ne_nil_of_mem henters.1, rfl, rfl, rfl, .flushed topic⟩
    · cases hstep
  | count =>
    simp only [recordStep] at hstep
    split at hstep
    · obtain ⟨henters, ⟨⟩⟩ := Option.ite_none_right_eq_some.mp hstep
      exact ⟨List.ne_nil_of_mem henters.1, rfl, rfl, rfl, .kept⟩
    · cases hstep
  | _ => cases hstep

theorem loopStep_loopStep (hstep : loopStep config p action = some p') :
    LoopStep config p p' := by
  cases action with
  | linger now order =>
    obtain ⟨hguard, ⟨⟩⟩ := Option.ite_none_right_eq_some.mp hstep
    exact ⟨List.ne_nil_of_mem hguard.1.1, rfl, rfl, rfl, .lingered now order⟩
  | flush order =>
    obtain ⟨hguard, ⟨⟩⟩ := Option.ite_none_right_eq_some.mp hstep
    exact ⟨List.ne_nil_of_mem hguard.1.1, rfl, rfl, rfl, .flushedAll order⟩
  | take =>
    obtain ⟨hguard, htaken⟩ := Option.ite_none_right_eq_some.mp hstep
    obtain ⟨⟨batch, l'⟩, htake, rfl⟩ := Option.map_eq_some_iff.mp htaken
    exact ⟨List.ne_nil_of_mem hguard.1, rfl, rfl, rfl, .taken htake⟩
  | publish marshalled =>
    simp only [loopStep] at hstep
    split at hstep
    · cases hstep
    · obtain ⟨hmem, ⟨⟩⟩ := Option.ite_none_right_eq_some.mp hstep
      exact ⟨List.ne_nil_of_mem hmem, rfl, rfl, rfl, .kept⟩
  | exit loop =>
    obtain ⟨hguard, ⟨⟩⟩ := Option.ite_none_right_eq_some.mp hstep
    exact ⟨List.ne_nil_of_mem hguard.2.1, rfl, rfl, rfl, .kept⟩
  | _ => cases hstep

theorem loop_or_control (hstep : step config p action = some p') :
    LoopStep config p p' ∨ controlStep p action = some p' := by
  obtain ⟨-, hrecord | hloop | hcontrol⟩ := step_cases hstep
  · exact .inl (recordStep_loopStep hrecord)
  · exact .inl (loopStep_loopStep hloop)
  · exact .inr hcontrol

theorem controlStep_ledgerStep (hstep : controlStep p action = some p') :
    LedgerStep config p.ledger p'.ledger := by
  cases action with
  | start opened =>
    obtain ⟨_, hstarted⟩ := Option.ite_none_right_eq_some.mp hstep
    split at hstarted
    · cases hstarted
      exact .kept
    · cases hstarted
      exact .kept
  | stopCall | stopWait =>
    obtain ⟨_, ⟨⟩⟩ := Option.ite_none_right_eq_some.mp hstep
    exact .kept
  | stopLock =>
    obtain ⟨_, hlocked⟩ := Option.ite_none_right_eq_some.mp hstep
    split at hlocked
    · cases hlocked
      exact .kept
    · cases hlocked
      exact .kept
  | stopFlush order =>
    obtain ⟨_, ⟨⟩⟩ := Option.ite_none_right_eq_some.mp hstep
    exact .flushedAll order
  | _ => cases hstep

theorem step_ledgerStep (hstep : step config p action = some p') :
    LedgerStep config p.ledger p'.ledger := by
  rcases loop_or_control hstep with hloop | hcontrol
  · exact hloop.ledger
  · exact controlStep_ledgerStep hcontrol

theorem accounted_ledgerStep {l : Ledger} (hl : ∀ topic, Accounted l topic)
    (hstep : LedgerStep config l l') (topic : Bytes) : Accounted l' topic := by
  cases hstep with
  | kept => exact hl topic
  | accepted request now => exact accounted_accept config request now (hl topic)
  | flushed flushed => exact accounted_flush hl flushed topic
  | flushedAll order => exact accounted_flushAllBatches hl order topic
  | lingered now order => exact accounted_flushPendingBatches config hl now order topic
  | taken htake => exact accounted_takeBatch (hl topic) htake

theorem accounted_run {actions : List Action}
    (hrun : run (step config) newProducer actions = some p) (topic : Bytes) :
    Accounted p.ledger topic := by
  have hkeep : ∀ s action s', (∀ topic, Accounted s.ledger topic) →
      step config s action = some s' → ∀ topic, Accounted s'.ledger topic :=
    fun s action s' hs hstep => accounted_ledgerStep hs (step_ledgerStep hstep)
  exact run_keeps hkeep (fun _ => ⟨fun _ hr => (by cases hr), rfl, rfl, rfl⟩) hrun topic

/-- The batches that were taken, the queue and the pending batch hold exactly the
accepted records of a topic, in the order in which they were accepted.  Their
offsets count from 0, and ascend until they have to wrap around. -/
theorem placed_in_order {actions : List Action}
    (hrun : run (step config) newProducer actions = some p) (topic : Bytes) :
    p.ledger.placed topic = p.ledger.acceptedFor topic ∧
      (p.ledger.acceptedFor topic).map Record.offset =
        (List.range (p.ledger.acceptedFor topic).length).map UInt64.ofNat ∧
      ((p.ledger.acceptedFor topic).length ≤ 2 ^ 64 →
        (p.ledger.placed topic).Pairwise fun first second => first.offset < second.offset) := by
  have haccounted := accounted_run hrun topic
  refine ⟨haccounted.placed_eq, haccounted.offsets_eq, fun hlength => ?_⟩
  rw [haccounted.placed_eq]
  rw [← List.pairwise_map (R := (· < ·)), haccounted.offsets_eq, List.pairwise_map]
  apply List.pairwise_lt_range.imp_of_mem
  intro i j hi hj hlt
  rw [List.mem_range] at hi hj
  rw [UInt64.lt_iff_toNat_lt, UInt64.toNat_ofNat', UInt64.toNat_ofNat',
    Nat.mod_eq_of_lt (by omega), Nat.mod_eq_of_lt (by omega)]
  exact hlt

def singleConfig : ProducerConfig where
  uuid := ascii "u"
  batchSize := 1
  linger := 100

def plainRequest (topic : Bytes) : ProduceRequest where
  topic := topic
  key := []
  value := []
  headers := ∅
  timestamp := 0

def twoRecords : List Action :=
  [.start true, .accept (plainRequest (ascii "t")) 0, .respond true, .check, .flushTopic, .count,
    .take, .accept (plainRequest (ascii "t")) 1]

theorem placed_in_order_twoRecords :
    ∃ p, run (step singleConfig) newProducer twoRecords = some p ∧
      (p.ledger.acceptedFor (ascii "t")).length = 2 ∧ (p.ledger.pending (ascii "t")).length = 1 ∧
      p.ledger.placed (ascii "t") = p.ledger.acceptedFor (ascii "t") := by
  have horder : ∀ p, run (step singleConfig) newProducer twoRecords = some p →
      p.ledger.placed (ascii "t") = p.ledger.acceptedFor (ascii "t") :=
    fun p hrun => (placed_in_order hrun (ascii "t")).1
  exact ⟨_, rfl, rfl, rfl, horder _ rfl⟩

end Loops

section Stop

variable {config : ProducerConfig} {p p' : Producer} {action : Action}

/-- `Stop` has not ended and makes no step, whatever happens. -/
def WaitsForever (config : ProducerConfig) (p : Producer) : Prop :=
  p.stop ≠ .returned ∧
    ∀ actions q, run (step config) p actions = some q → q.stop = p.stop

def isStart : Action → Bool
  | .start _ => true
  | _ => false

/-- A call of `Stop` in the state `p`, together with the steps of the goroutines:
it never waits forever, and once it has ended the records that were acknowledged
before the call have been sent. -/
def StopEnds (config : ProducerConfig) (p : Producer) : Prop :=
  ∀ called, step config p .stopCall = some called →
    ∀ actions q, (∀ action ∈ actions, isStart action = false) →
      run (step config) called actions = some q →
        ¬ WaitsForever config q ∧ (q.stop = .returned → ∀ r ∈ p.acked, r ∈ q.sent)

structure Consistent (p : Producer) : Prop where
  flushing : p.stop = .flushing ↔ p.locked = true
  not_waiting : p.stop ≠ .waiting
  not_stopped : p.stop = .flushing → p.state ≠ .stopped
  fresh : p.state = .stopped → p.alive = [] ∧ p.acked = []

theorem consistent_loopStep (hp : Consistent p) (hstep : LoopStep config p p') :
    Consistent p' where
  flushing := by rw [hstep.stop_eq, hstep.locked_eq, hp.flushing]
  not_waiting := by
    rw [hstep.stop_eq]
    exact hp.not_waiting
  not_stopped := by
    rw [hstep.stop_eq, hstep.state_eq]
    exact hp.not_stopped
  fresh := by
    rw [hstep.state_eq]
    exact fun hstopped => absurd (hp.fresh hstopped).1 hstep.alive_ne

theorem consistent_controlStep (hp : Consistent p) (hstep : controlStep p action = some p') :
    Consistent p' := by
  obtain ⟨hflushing, hwaiting, hstate, hfresh⟩ := hp
  cases action with
  | start opened =>
    obtain ⟨hguard, hstarted⟩ := Option.ite_none_right_eq_some.mp hstep
    have hnot : p.stop ≠ .flushing := fun hstop => hstate hstop hguard.1
    split at hstarted
    · cases hstarted
      exact ⟨hflushing, hwaiting, fun hstop => absurd hstop hnot, fun hstopped => by cases hstopped⟩
    · cases hstarted
      exact ⟨hflushing, hwaiting, fun hstop => absurd hstop hnot, fun hstopped => by cases hstopped⟩
  | stopCall =>
    obtain ⟨hguard, ⟨⟩⟩ := Option.ite_none_right_eq_some.mp hstep
    have hunlocked : ¬ p.locked = true := by
      rw [← hflushing]
      rintro hstop
      rcases hguard with hnone | hreturned
      · exact absurd (hstop.symm.trans hnone) (by decide)
      · exact absurd (hstop.symm.trans hreturned) (by decide)
    exact ⟨⟨by simp, fun hlocked => absurd hlocked hunlocked⟩, by simp, by simp, hfresh⟩
  | stopLock =>
    obtain ⟨hguard, hlocked⟩ := Option.ite_none_right_eq_some.mp hstep
    split at hlocked
    · cases hlocked
      exact ⟨by simp [hguard.2], by simp, by simp, hfresh⟩
    · cases hlocked
      exact ⟨by simp, by simp, by simp, by simp⟩
  | stopFlush order =>
    obtain ⟨hguard, _⟩ := Option.ite_none_right_eq_some.mp hstep
    exact absurd (hflushing.mp hguard.1) (by simp [hguard.2.1])
  | stopWait =>
    obtain ⟨hguard, _⟩ := Option.ite_none_right_eq_some.mp hstep
    exact absurd hguard.1 hwaiting
  | _ => cases hstep

theorem consistent_step (hp : Consistent p) (hstep : step config p action = some p') :
    Consistent p' := by
  rcases loop_or_control hstep with hloop | hcontrol
  · exact consistent_loopStep hp hloop
  · exact consistent_controlStep hp hcontrol

/-- Once `Stop` waits for the mutex that it holds, nothing gets it on. -/
theorem flushing_step (hlocked : p.locked = true) (hstop : p.stop = .flushing)
    (hstep : step config p action = some p') : p'.locked = true ∧ p'.stop = .flushing := by
  rcases loop_or_control hstep with hloop | hcontrol
  · exact ⟨hloop.locked_eq.trans hlocked, hloop.stop_eq.trans hstop⟩
  · cases action <;> simp [controlStep, hlocked, hstop] at hcontrol

theorem waitsForever_of_flushing (hlocked : p.locked = true) (hstop : p.stop = .flushing) :
    WaitsForever config p := by
  refine ⟨by simp [hstop], fun actions q hrun => ?_⟩
  have hkept : q.locked = true ∧ q.stop = .flushing :=
    run_keeps (I := fun q : Producer => q.locked = true ∧ q.stop = .flushing)
      (fun s action s' hs hstep => flushing_step hs.1 hs.2 hstep) ⟨hlocked, hstop⟩ hrun
  rw [hkept.2, hstop]

structure Untouched (p : Producer) : Prop where
  state : p.state = .stopped
  alive : p.alive = []
  locked : p.locked = false
  crashed : p.crashed = false
  stop : p.stop = .called ∨ p.stop = .returned

theorem untouched_step (hp : Untouched p) (hstart : isStart action = false)
    (hstep : step config p action = some p') : Untouched p' := by
  rcases loop_or_control hstep with hloop | hcontrol
  · exact absurd hp.alive hloop.alive_ne
  · cases action with
    | start opened => cases hstart
    | stopCall =>
      obtain ⟨_, ⟨⟩⟩ := Option.ite_none_right_eq_some.mp hcontrol
      exact ⟨hp.state, hp.alive, hp.locked, hp.crashed, Or.inl rfl⟩
    | stopLock =>
      simp only [controlStep, hp.state, if_true] at hcontrol
      split at hcontrol
      · cases hcontrol
        exact ⟨rfl, hp.alive, hp.locked, hp.crashed, Or.inr rfl⟩
      · cases hcontrol
    | stopFlush | stopWait =>
      rcases hp.stop with hstop | hstop <;> simp [controlStep, hstop] at hcontrol
    | _ => cases hcontrol

theorem untouched_not_waits (hp : Untouched p) : ¬ WaitsForever config p := by
  rintro ⟨hne, hwaits⟩
  have hcalled := hp.stop.resolve_right hne
  have hlock : step config p .stopLock = some { p with stop := .returned } := by
    simp [step, recordStep, loopStep, controlStep, hcalled, hp.locked, hp.state, hp.crashed]
  have hrun : run (step config) p [.stopLock] = some { p with stop := .returned } := by
    rw [run_cons, hlock]
    rfl
  have hstop := hwaits _ _ hrun
  rw [hcalled] at hstop
  cases hstop

theorem stopCall_eq {called : Producer} (hcall : step config p .stopCall = some called) :
    p.crashed = false ∧ called = { p with stop := .called } := by
  obtain ⟨hcrashed, hcall⟩ := Option.ite_none_left_eq_some.mp hcall
  obtain ⟨_, ⟨⟩⟩ := Option.ite_none_right_eq_some.mp hcall
  exact ⟨by simpa using hcrashed, rfl⟩

/-- `Stop` ends if and only if there is nothing to stop. -/
theorem stopEnds_iff {before : List Action} {called : Producer}
    (hrun : run (step config) newProducer before = some p)
    (hcall : step config p .stopCall = some called) :
    StopEnds config p ↔ p.state = .stopped := by
  have hp : Consistent p := run_keeps (fun s action s' => consistent_step)
    ⟨by decide, by decide, by decide, fun _ => ⟨rfl, rfl⟩⟩ hrun
  have hcalled : Consistent called := consistent_step hp hcall
  obtain ⟨hcrashed, rfl⟩ := stopCall_eq hcall
  have hunlocked : p.locked = false := by
    rw [← Bool.not_eq_true]
    exact fun hlocked => absurd (hcalled.flushing.mpr hlocked) (by simp)
  constructor
  · intro hends
    by_contra hstate
    have hlock : run (step config) { p with stop := .called } [.stopLock] =
        some { p with state := .stopping, locked := true, stop := .flushing } := by
      simp [run_cons, step, recordStep, loopStep, controlStep, hunlocked, hstate, hcrashed]
    obtain ⟨hnot, -⟩ := hends _ hcall [.stopLock] _ (by simp [isStart]) hlock
    exact hnot (waitsForever_of_flushing rfl rfl)
  · intro hstate called hcall' actions q hactions hrun'
    obtain ⟨halive, hacked⟩ := hp.fresh hstate
    obtain ⟨-, rfl⟩ := stopCall_eq hcall'
    have hstart : Throughout (step config) (fun _ action => isStart action = false)
        { p with stop := .called } actions :=
      throughout_of_forall (fun action haction _ => hactions action haction) _
    have hq : Untouched q := run_keeps_of_throughout
      (fun s action s' hs hC hstep => untouched_step hs hC hstep) hstart
      ⟨hstate, halive, hunlocked, hcrashed, Or.inl rfl⟩ hrun'
    exact ⟨untouched_not_waits hq, fun _ r hr => by simp [hacked] at hr⟩

def oneRecord : List Action :=
  [.start true, .accept (plainRequest (ascii "t")) 0, .respond true]

/-- A producer that has not been started, and one that has acknowledged a record. -/
theorem stopEnds_fresh_not_started :
    StopEnds singleConfig newProducer ∧
      ∃ p, run (step singleConfig) newProducer oneRecord = some p ∧ p.acked.length = 1 ∧
        ¬ StopEnds singleConfig p := by
  have hfresh : run (step singleConfig) newProducer [] = some newProducer := rfl
  refine ⟨(stopEnds_iff hfresh rfl).mpr rfl, ?_⟩
  obtain ⟨p, hrun, hacked, hstate, called, hcall⟩ :
      ∃ p, run (step singleConfig) newProducer oneRecord = some p ∧ p.acked.length = 1 ∧
        p.state ≠ .stopped ∧ ∃ called, step singleConfig p .stopCall = some called :=
    ⟨_, rfl, rfl, nofun, _, rfl⟩
  exact ⟨p, hrun, hacked, fun hends => hstate ((stopEnds_iff hrun hcall).mp hends)⟩

/-- A record is acknowledged, and `Stop` then waits for the mutex that it holds. -/
theorem stop_waitsForever :
    ∃ p q, run (step singleConfig) newProducer oneRecord = some p ∧
      p.acked.length = 1 ∧
      run (step singleConfig) p [.stopCall, .stopLock] = some q ∧
      q.sent = [] ∧ WaitsForever singleConfig q :=
  ⟨_, _, rfl, rfl, rfl, rfl, waitsForever_of_flushing rfl rfl⟩

end Stop

end Zmq4.DafkaProducer
