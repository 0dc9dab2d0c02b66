import Zmq4.DafkaProducer

namespace Zmq4.DafkaBatches

open ByteCodec ActionRuns DafkaProducer

/-- The topic of the batch that `processProduceRequest` has added a record to and has
still to look at. -/
def awaited (p : Producer) : Option Bytes :=
  match p.recordLoop with
  | .respond record => some record.topic
  | .check topic => some topic
  | _ => none

def hasBatch (l : Ledger) (topic : Bytes) : Bool :=
  (l.topicState topic).pendingBatch.isSome

/-- What a flush from outside `processProduceRequest` makes of the topics. -/
def flushed (config : ProducerConfig) (l : Ledger) : Action → Ledger
  | .linger now order => l.flushPendingBatches config now order
  | .flush order => l.flushAllBatches order
  | .stopFlush order => l.flushAllBatches order
  | _ => l

/-- The action does not take away the batch that `processProduceRequest` will look at. -/
def LeavesBatch (config : ProducerConfig) (p : Producer) (action : Action) : Prop :=
  ∀ topic ∈ awaited p, hasBatch p.ledger topic → hasBatch (flushed config p.ledger action) topic

/-- The size of a batch has only been read, and will only be read, where there is one. -/
def ReadsBatch (p : Producer) : Prop :=
  p.crashed = false ∧ ∀ topic, p.recordLoop = .check topic → hasBatch p.ledger topic

/-- What a step does to the batch that is looked at. -/
inductive AwaitStep (config : ProducerConfig) (p : Producer) (action : Action) :
    Producer → Prop where
  | opened {p' : Producer} {topic : Bytes} (hawaited : awaited p' = some topic)
      (hbatch : hasBatch p'.ledger topic) (halive : .record ∈ p'.alive)
      (hcrashed : p'.crashed = false) : AwaitStep config p action p'
  | closed {p' : Producer} (hawaited : awaited p' = none) (hcrashed : p'.crashed = false) :
      AwaitStep config p action p'
  | missed {topic : Bytes} (hcheck : p.recordLoop = .check topic)
      (hbatch : hasBatch p.ledger topic = false) :
      AwaitStep config p action { p with crashed := true }
  | kept {p' : Producer} (hawaited : awaited p' = awaited p) (hcrashed : p'.crashed = false)
      (hbatch : ∀ topic, hasBatch p'.ledger topic =
        hasBatch (flushed config p.ledger action) topic)
      (halive : awaited p ≠ none → .record ∈ p.alive → .record ∈ p'.alive) :
      AwaitStep config p action p'

section Steps

variable {config : ProducerConfig} {p p' : Producer} {action : Action}

theorem recordStep_await (hcrashed : p.crashed = false)
    (hstep : recordStep config p action = some p') : AwaitStep config p action p' := by
  cases action with
  | accept request now =>
    simp only [recordStep] at hstep
    split at hstep
    · obtain ⟨henters, ⟨⟩⟩ := Option.ite_none_right_eq_some.mp hstep
      refine .opened rfl ?_ henters.1 hcrashed
      simp [hasBatch, Ledger.accept, Ledger.newRecord, Ledger.topicState]
    · cases hstep
  | respond delivered =>
    simp only [recordStep] at hstep
    split at hstep
    · rename_i record hloop
      split at hstep
      · cases hstep
      · split at hstep
        · cases hstep
          have hawaited : awaited p = some record.topic := by rw [awaited, hloop]
          exact .kept hawaited.symm hcrashed (fun _ => rfl) (fun _ halive => halive)
        · obtain ⟨-, ⟨⟩⟩ := Option.ite_none_right_eq_some.mp hstep
          exact .closed rfl hcrashed
    · cases hstep
  | check =>
    simp only [recordStep] at hstep
    split at hstep
    · rename_i topic hloop
      obtain ⟨-, hchecked⟩ := Option.ite_none_right_eq_some.mp hstep
      split at hchecked
      · rename_i hnone
        cases hchecked
        exact .missed hloop (by rw [hasBatch, hnone]; rfl)
      · rename_i batch _
        cases hchecked
        refine .closed ?_ hcrashed
        by_cases hfull : batch.batchSize ≥ config.batchSize
        · simp [awaited, hfull]
        · simp [awaited, hfull]
    · cases hstep
  | flushTopic | count =>
    simp only [recordStep] at hstep
    split at hstep
    · obtain ⟨-, ⟨⟩⟩ := Option.ite_none_right_eq_some.mp hstep
      exact .closed rfl hcrashed
    · cases hstep
  | _ => cases hstep

theorem loopStep_await (hcrashed : p.crashed = false)
    (hstep : loopStep config p action = some p') : AwaitStep config p action p' := by
  cases action with
  | linger | flush =>
    obtain ⟨-, ⟨⟩⟩ := Option.ite_none_right_eq_some.mp hstep
    exact .kept rfl hcrashed (fun _ => rfl) (fun _ halive => halive)
  | take =>
    obtain ⟨-, htaken⟩ := Option.ite_none_right_eq_some.mp hstep
    obtain ⟨⟨batch, l'⟩, htake, rfl⟩ := Option.map_eq_some_iff.mp htaken
    refine .kept rfl hcrashed ?_ (fun _ halive => halive)
    intro topic
    rw [Ledger.takeBatch] at htake
    split at htake
    · cases htake
    · cases htake
      rfl
  | publish marshalled =>
    simp only [loopStep] at hstep
    split at hstep
    · cases hstep
    · obtain ⟨-, ⟨⟩⟩ := Option.ite_none_right_eq_some.mp hstep
      exact .kept rfl hcrashed (fun _ => rfl) (fun _ halive => halive)
  | exit loop =>
    obtain ⟨⟨-, -, hselect⟩, ⟨⟩⟩ := Option.ite_none_right_eq_some.mp hstep
    refine .kept rfl hcrashed (fun _ => rfl) ?_
    intro hawaited halive
    apply (List.mem_erase_of_ne ?_).mpr halive
    rintro rfl
    rw [awaited] at hawaited
    rw [atSelect] at hselect
    split at hselect
    · rename_i hidle
      simp [hidle] at hawaited
    · cases hselect
  | _ => cases hstep

theorem controlStep_await (hcrashed : p.crashed = false)
    (hstep : controlStep p action = some p') : AwaitStep config p action p' := by
  cases action with
  | start opened =>
    obtain ⟨-, hstarted⟩ := Option.ite_none_right_eq_some.mp hstep
    split at hstarted
    · cases hstarted
      exact .kept rfl hcrashed (fun _ => rfl) (fun _ _ => by simp [Loop.all])
    · cases hstarted
      exact .kept rfl hcrashed (fun _ => rfl) (fun _ halive => halive)
  | stopCall | stopFlush | stopWait =>
    obtain ⟨-, ⟨⟩⟩ := Option.ite_none_right_eq_some.mp hstep
    exact .kept rfl hcrashed (fun _ => rfl) (fun _ halive => halive)
  | stopLock =>
    obtain ⟨-, hlocked⟩ := Option.ite_none_right_eq_some.mp hstep
    split at hlocked
    · cases hlocked
      exact .kept rfl hcrashed (fun _ => rfl) (fun _ halive => halive)
    · cases hlocked
      exact .kept rfl hcrashed (fun _ => rfl) (fun _ halive => halive)
  | _ => cases hstep

theorem step_await (hstep : step config p action = some p') : AwaitStep config p action p' := by
  obtain ⟨hcrashed, hrecord | hloop | hcontrol⟩ := step_cases hstep
  · exact recordStep_await hcrashed hrecord
  · exact loopStep_await hcrashed hloop
  · exact controlStep_await hcrashed hcontrol

def Attended (p : Producer) : Prop :=
  awaited p ≠ none → .record ∈ p.alive

theorem attended_step (hp : Attended p) (hstep : step config p action = some p') :
    Attended p' := by
  intro hawaits
  cases step_await hstep with
  | opened hawaited hbatch halive hcrashed => exact halive
  | closed hawaited hcrashed => exact absurd hawaited hawaits
  | missed hcheck hbatch => exact hp hawaits
  | kept hawaited hcrashed hbatch halive =>
    rw [hawaited] at hawaits
    exact halive hawaits (hp hawaits)

/-- The batch is there from the record until its size has been read. -/
def Held (p : Producer) : Prop :=
  p.crashed = false ∧ ∀ topic, awaited p = some topic → hasBatch p.ledger topic

theorem held_step (hp : Held p) (hleaves : LeavesBatch config p action)
    (hstep : step config p action = some p') : Held p' := by
  cases step_await hstep with
  | opened hawaited hbatch halive hcrashed =>
    refine ⟨hcrashed, ?_⟩
    intro topic htopic
    rw [hawaited] at htopic
    obtain rfl := Option.some.inj htopic
    exact hbatch
  | closed hawaited hcrashed =>
    refine ⟨hcrashed, ?_⟩
    intro topic htopic
    rw [hawaited] at htopic
    contradiction
  | @missed topic hcheck hbatch =>
    have hawaited : awaited p = some topic := by rw [awaited, hcheck]
    rw [hp.2 topic hawaited] at hbatch
    contradiction
  | kept hawaited hcrashed hbatch halive =>
    refine ⟨hcrashed, ?_⟩
    intro topic htopic
    rw [hawaited] at htopic
    rw [hbatch]
    exact hleaves topic htopic (hp.2 topic htopic)

theorem held_newProducer : Held newProducer :=
  ⟨rfl, fun _ hawaited => by cases hawaited⟩

theorem Held.reads (hp : Held p) : ReadsBatch p := by
  refine ⟨hp.1, ?_⟩
  intro topic hcheck
  apply hp.2 topic
  rw [awaited, hcheck]

end Steps

section Crash

variable {config : ProducerConfig} {p p' : Producer} {action : Action}

theorem check_crashes (config : ProducerConfig) {topic : Bytes} (hcrashed : p.crashed = false)
    (henters : enters p .record) (hcheck : p.recordLoop = .check topic)
    (hbatch : hasBatch p.ledger topic = false) :
    step config p .check = some { p with crashed := true } := by
  have hnone : (p.ledger.topicState topic).pendingBatch = none := by
    simpa [hasBatch] using hbatch
  simp [step, hcrashed, recordStep, hcheck, henters, hnone]

theorem crash_of_missing {topic : Bytes} (hcrashed : p.crashed = false)
    (henters : enters p .record) (hawaited : awaited p = some topic)
    (hbatch : hasBatch p.ledger topic = false) :
    ∃ later q, run (step config) p later = some q ∧ q.crashed = true := by
  rw [awaited] at hawaited
  split at hawaited
  · rename_i record hloop
    obtain rfl := Option.some.inj hawaited
    have hrespond : step config p (.respond true) =
        some { p with recordLoop := .check record.topic, acked := p.acked ++ [record] } := by
      simp [step, hcrashed, recordStep, hloop, henters.1]
    have hcheck := check_crashes config
      (p := { p with recordLoop := .check record.topic, acked := p.acked ++ [record] })
      hcrashed henters rfl hbatch
    exact ⟨[.respond true, .check], _, run_cons_eq_some_iff.mpr ⟨_, hrespond,
      run_cons_eq_some_iff.mpr ⟨_, hcheck, run_nil _⟩⟩, rfl⟩
  · rename_i checked hloop
    obtain rfl := Option.some.inj hawaited
    have hcheck := check_crashes config hcrashed henters hloop hbatch
    exact ⟨[.check], _, run_cons_eq_some_iff.mpr ⟨_, hcheck, run_nil _⟩, rfl⟩
  · cases hawaited

structure FlushStep (config : ProducerConfig) (p : Producer) (action : Action) (p' : Producer) :
    Prop where
  ledger_eq : p'.ledger = flushed config p.ledger action
  recordLoop_eq : p'.recordLoop = p.recordLoop
  alive_eq : p'.alive = p.alive
  crashed_eq : p'.crashed = false
  unlocked : p'.locked = false

theorem flushStep_of_takes (hstep : step config p action = some p')
    (htakes : ¬ LeavesBatch config p action) : FlushStep config p action p' := by
  obtain ⟨hcrashed, hkind⟩ := step_cases hstep
  cases action with
  | linger | flush =>
    obtain ⟨hguard, ⟨⟩⟩ :=
      Option.ite_none_right_eq_some.mp ((hkind.resolve_left nofun).resolve_right nofun)
    exact ⟨rfl, rfl, rfl, hcrashed, hguard.1.2⟩
  | stopFlush order =>
    obtain ⟨hguard, ⟨⟩⟩ :=
      Option.ite_none_right_eq_some.mp ((hkind.resolve_left nofun).resolve_left nofun)
    exact ⟨rfl, rfl, rfl, hcrashed, hguard.2.1⟩
  | _ => exact absurd (fun _ _ hbatch => hbatch) htakes

end Crash

/-- As long as no flush takes the batch that `processProduceRequest` is about to look at,
its size is only read where there is one.  A flush that takes it can be followed by a
panic. -/
theorem batch_read_or_taken (config : ProducerConfig) (actions : List Action) :
    (Throughout (step config) (LeavesBatch config) newProducer actions →
      Always (step config) ReadsBatch newProducer actions) ∧
    ∀ p action p', run (step config) newProducer actions = some p →
      step config p action = some p' → ¬ LeavesBatch config p action →
        ∃ later q, run (step config) p' later = some q ∧ q.crashed = true := by
  constructor
  · intro hleaves
    refine always_of_kept ?_ (fun p => Held.reads) held_newProducer hleaves
    intro p action p' hp hleave hstep
    exact held_step hp hleave hstep
  · intro p action p' hrun hstep htakes
    have hattended : Attended p :=
      run_keeps (fun _ _ _ => attended_step) (fun hawaits => absurd rfl hawaits) hrun
    have hflush := flushStep_of_takes hstep htakes
    simp only [LeavesBatch, not_forall, Option.mem_def] at htakes
    obtain ⟨topic, hawaited, -, hafter⟩ := htakes
    have halive : .record ∈ p'.alive := by
      rw [hflush.alive_eq]
      exact hattended (by simp [hawaited])
    have hawaited' : awaited p' = some topic := by
      rw [awaited, hflush.recordLoop_eq]
      exact hawaited
    have hbatch : hasBatch p'.ledger topic = false := by
      rw [hflush.ledger_eq]
      exact Bool.eq_false_iff.mpr hafter
    exact crash_of_missing hflush.crashed_eq ⟨halive, hflush.unlocked⟩ hawaited' hbatch

/-- The linger time of a record is over before its caller has the answer. -/
theorem flushed_before_read :
    ∃ p, run (step singleConfig) newProducer
        [.start true, .accept (plainRequest (ascii "t")) 0, .linger 101 [ascii "t"],
          .respond true, .check] = some p ∧
      p.crashed = true :=
  ⟨_, rfl, rfl⟩

end Zmq4.DafkaBatches
