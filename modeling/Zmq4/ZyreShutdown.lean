import Zmq4.ZyreEvents

namespace Zmq4.ZyreShutdown

open ActionRuns DuplexProgram ZyreEvents

variable {ε : Type}

/-- A started event channel.  `closed` and `shut` say which channels are closed, the one
that `Wait` receives from and those of the listeners. -/
structure Started (ε : Type) where
  ec : EventChannel ε
  closed : Bool := false
  shut : List Nat := []
  ended : Bool := false

def start (ec : EventChannel ε) : Started ε where
  ec := ec

/-- The case of a received event is `.act .distribute`, the other case is `.leave`. -/
inductive Turn (ε : Type)
  | act (action : Action ε)
  | leave

def Turn.isDistribute : Turn ε → Bool
  | .act .distribute => true
  | .act (.publish _) | .act .close | .act (.receive _) | .leave => false

namespace Started

/-- The deferred function. -/
def shutDown (s : Started ε) : Except Stop (Started ε) :=
  if s.closed then .error (.panicked "close of closed channel")
  else .ok { s with closed := true, shut := s.shut ++ s.ec.listeners, ended := true }

def step (s : Started ε) : Turn ε → Option (Started ε)
  | .act .distribute =>
    if s.ended then none else (s.ec.step .distribute).map ({ s with ec := · })
  | .act action => (s.ec.step action).map ({ s with ec := · })
  | .leave => if s.closed && !s.ended then s.shutDown.toOption else none

/-- `Wait` returns. -/
def waited (s : Started ε) : Prop :=
  s.closed = true

/-- The loop handles the events in the queue, and after them it closes the listeners and
ends instead of handling nil. -/
def Handles (s : Started ε) : Turn ε → Prop
  | .act .distribute => ∀ s', s.step (.act .distribute) = some s' →
    match s.ec.events with
    | event :: _ => s'.ec.distributed = s.ec.distributed ++ [some event]
    | [] => s'.ec.distributed = s.ec.distributed ∧ s'.shut = s.ec.listeners ∧ s'.ended = true
  | .act (.publish _) | .act .close | .act (.receive _) | .leave => True

/-- The channels that only the deferred function closes are open. -/
structure Open (s : Started ε) : Prop where
  closed_eq : s.closed = false
  shut_eq : s.shut = []
  ended_eq : s.ended = false

variable {s s' : Started ε} {turn : Turn ε} {turns : List (Turn ε)}

/-- The loop leaves only when `closed` is closed, and its deferred function is what closes
it. -/
theorem open_step (hs : s.Open) (hstep : s.step turn = some s') :
    s'.Open ∧ ∃ action, turn = .act action ∧ s.ec.step action = some s'.ec := by
  rcases turn with action | _
  · obtain ⟨ec, hec, rfl⟩ : ∃ ec, s.ec.step action = some ec ∧ { s with ec := ec } = s' := by
      cases action with
      | distribute =>
        rw [step, if_neg (by simp [hs.ended_eq])] at hstep
        exact Option.map_eq_some_iff.mp hstep
      | publish _ | close | receive _ => exact Option.map_eq_some_iff.mp hstep
    exact ⟨⟨hs.closed_eq, hs.shut_eq, hs.ended_eq⟩, action, rfl, hec⟩
  · simp [step, hs.closed_eq] at hstep

end Started

variable {ec ec' : EventChannel ε}

theorem distribute_ok {value : Option ε} (hdistribute : ec.distribute value = .ok ec') :
    ec'.events = ec.events ∧ ec'.closing = ec.closing ∧ ec'.distributed = ec.distributed := by
  rw [EventChannel.distribute] at hdistribute
  cases hvisits : ec.ranging.visits value 0 ec.listeners.length with
  | error stop =>
    rw [hvisits] at hdistribute
    cases hdistribute
  | ok r =>
    rw [hvisits] at hdistribute
    cases hdistribute
    exact ⟨rfl, rfl, rfl⟩

/-- A closed queue gives its events first and nil from then on. -/
theorem step_distribute (hclosing : ec.closing = true) (hstep : ec.step .distribute = some ec') :
    ec'.events = ec.events.tail ∧ ec'.closing = true ∧
      ec'.distributed = ec.distributed ++ [ec.events.head?] := by
  obtain ⟨⟨value, rest⟩, htake, hrest⟩ := Option.bind_eq_some_iff.mp hstep
  have hok : rest.distribute value = .ok ec' := by
    cases h : rest.distribute value with
    | error stop => simp [h, Except.toOption] at hrest
    | ok _ => simpa [h, Except.toOption] using hrest
  obtain ⟨hevents, hclosed, hdistributed⟩ := distribute_ok hok
  rw [hevents, hclosed, hdistributed]
  rw [EventChannel.take] at htake
  split at htake
  · next heq =>
      cases htake
      simp [heq, hclosing]
  · next heq =>
      rw [if_pos hclosing] at htake
      cases htake
      simp [heq, hclosing]

theorem step_other {action : Action ε} (haction : Turn.isDistribute (.act action) = false)
    (hclosing : ec.closing = true) (hstep : ec.step action = some ec') :
    ec'.events = ec.events ∧ ec'.closing = true := by
  cases action with
  | publish event =>
    cases hstep
    rw [EventChannel.publish, if_pos hclosing]
    exact ⟨rfl, hclosing⟩
  | close =>
    cases hstep
    rw [EventChannel.close, if_pos hclosing]
    exact ⟨rfl, hclosing⟩
  | receive listener =>
    cases hstep
    exact ⟨rfl, hclosing⟩
  | distribute => cases haction

namespace Started

variable {s s' : Started ε} {turn : Turn ε} {turns : List (Turn ε)}

theorem handles_other (hturn : turn.isDistribute = false) (s : Started ε) : s.Handles turn := by
  rcases turn with (_ | _ | _ | _) | _
  · exact trivial
  · exact trivial
  · cases hturn
  · exact trivial
  · exact trivial

/-- Each turn of the loop takes one event, and the one that finds none gets nil. -/
theorem throughout_handles_iff (hs : s.Open) (hclosing : s.ec.closing = true)
    (hrun : run step s turns = some s') :
    Throughout step Handles s turns ↔ turns.countP Turn.isDistribute ≤ s.ec.events.length := by
  induction turns generalizing s with
  | nil => exact iff_of_true trivial (Nat.zero_le _)
  | cons turn rest ih =>
    obtain ⟨t, hturn, hrest⟩ := run_cons_eq_some_iff.mp hrun
    obtain ⟨ht, action, rfl, haction⟩ := open_step hs hturn
    rw [throughout_cons_iff hturn]
    cases hdistribute : Turn.isDistribute (.act action) with
    | false =>
      obtain ⟨hevents, hclosing'⟩ := step_other hdistribute hclosing haction
      rw [ih ht hclosing' hrest, List.countP_cons_of_neg (by simp [hdistribute]), hevents]
      exact and_iff_right (handles_other hdistribute s)
    | true =>
      obtain rfl : action = .distribute := by
        cases action with
        | distribute => rfl
        | publish _ | close | receive _ => cases hdistribute
      obtain ⟨hevents, hclosing', hdistributed⟩ := step_distribute hclosing haction
      rw [ih ht hclosing' hrest, List.countP_cons_of_pos hdistribute, hevents]
      cases hqueue : s.ec.events with
      | nil =>
        refine iff_of_false (fun ⟨hhandles, _⟩ => ?_) (Nat.not_succ_le_zero _)
        have hend := hhandles t hturn
        simp [hqueue, ht.ended_eq] at hend
      | cons event events =>
        have hhandles : s.Handles (.act .distribute) := by
          intro t' ht'
          obtain rfl : t = t' := Option.some_injective _ (hturn.symm.trans ht')
          rw [hqueue] at hdistributed ⊢
          exact hdistributed
        rw [and_iff_right hhandles]
        exact Nat.succ_le_succ_iff.symm

/-- `Close` never ends the loop, and `Wait` blocks.  The loop does what it should exactly as
long as it has taken no more turns than there were events in the queue. -/
theorem shutdown_iff (ec : EventChannel ε) (hrun : run step (start ec.close) turns = some s) :
    (¬ s.waited ∧ s.shut = [] ∧ s.ended = false) ∧
      (Throughout step Handles (start ec.close) turns ↔
        turns.countP Turn.isDistribute ≤ ec.events.length) := by
  have hclose : ec.close.closing = true ∧ ec.close.events = ec.events := by
    unfold EventChannel.close
    split
    · next hclosing => exact ⟨hclosing, rfl⟩
    · exact ⟨rfl, rfl⟩
  have hopen : s.Open :=
    run_keeps (fun _ _ _ hs hstep => (open_step hs hstep).1) ⟨rfl, rfl, rfl⟩ hrun
  refine ⟨⟨by simp [waited, hopen.closed_eq], hopen.shut_eq, hopen.ended_eq⟩, ?_⟩
  rw [← hclose.2]
  exact throughout_handles_iff ⟨rfl, rfl, rfl⟩ hclose.1 hrun

/-- One event is in the queue and one listener has room for two. -/
def oneEvent : EventChannel Nat :=
  ((newEventChannel Nat 1).subscribe 2 0 List.not_mem_nil).publish 7

theorem shutdown_oneEvent : ¬ Throughout step Handles (start oneEvent.close)
    [.act .distribute, .act .distribute] := by
  rw [(shutdown_iff oneEvent rfl).2]
  decide

theorem oneEvent_nil_received :
    ∃ s, run step (start oneEvent)
        [.act .close, .act .distribute, .act .distribute, .act (.receive 0), .act (.receive 0)] =
          some s ∧
      (s.ec.channels 0).received = [some 7, none] ∧ ¬ s.waited ∧ s.shut = [] ∧ s.ended = false :=
  ⟨_, rfl, rfl, Bool.false_ne_true, rfl, rfl⟩

end Started

end Zmq4.ZyreShutdown
