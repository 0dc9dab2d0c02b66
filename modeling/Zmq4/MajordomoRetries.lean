import Zmq4.MajordomoBroker
import Zmq4.RetryLoops

namespace Zmq4.MajordomoRetries

open ByteCodec ActionRuns RetryLoops MajordomoMessages MajordomoBroker
open MajordomoCalls (sendToWorker)

def Waiting (state : Service × List Dispatch) : Prop :=
  state.1.requests ≠ [] ∧ state.1.availableWorkers ≠ []

instance : DecidablePred Waiting := fun state =>
  inferInstanceAs (Decidable (state.1.requests ≠ [] ∧ state.1.availableWorkers ≠ []))

def dispatchRound (heap : Nat → BrokerWorker) (succeeds : Bool) :
    Service × List Dispatch → Service × List Dispatch
  | (⟨request :: requests, worker :: later, busy, active⟩, sent) =>
    let service := moveWorkerToBusy worker ⟨requests, worker :: later, busy, active⟩
    if succeeds then
      (service, sent ++ [{ request := request, worker := worker
                           msg := sendToWorker (heap worker).identity workerRequest
                             request.client request.body }])
    else ({ moveWorkerToAvailable worker service with requests := request :: requests }, sent)
  | state => state

section Rounds

variable (heap : Nat → BrokerWorker)

theorem dispatchLoop_eq (sends : List Bool) (service : Service) (sent : List Dispatch) :
    dispatchLoop heap sends service sent =
      if Waiting (after Waiting (dispatchRound heap) sends (service, sent)) then none
      else some (after Waiting (dispatchRound heap) sends (service, sent)) := by
  induction sends generalizing service sent with
  | nil =>
    have hwaiting : Waiting (service, sent) ↔
        ¬ (service.requests = [] ∨ service.availableWorkers = []) := not_or.symm
    simp only [dispatchLoop, after, hwaiting, ite_not]
  | cons succeeds sends ih =>
    rcases service with ⟨_ | ⟨request, requests⟩, _ | ⟨worker, later⟩, busy, active⟩
    · simp [dispatchLoop, after, Waiting]
    · simp [dispatchLoop, after, Waiting]
    · simp [dispatchLoop, after, Waiting]
    have hwaiting : Waiting (⟨request :: requests, worker :: later, busy, active⟩, sent) :=
      ⟨List.cons_ne_nil _ _, List.cons_ne_nil _ _⟩
    rw [after, if_pos hwaiting]
    cases succeeds with
    | true | false => exact ih _ _

variable {state : Service × List Dispatch}

theorem waiting_cons (hwaiting : Waiting state) :
    ∃ request requests worker later busy active sent,
      state = (⟨request :: requests, worker :: later, busy, active⟩, sent) := by
  rcases state with ⟨⟨_ | ⟨request, requests⟩, _ | ⟨worker, later⟩, busy, active⟩, sent⟩
  · exact absurd rfl hwaiting.1
  · exact absurd rfl hwaiting.1
  · exact absurd rfl hwaiting.2
  · exact ⟨request, requests, worker, later, busy, active, sent, rfl⟩

theorem dispatchRound_fails (hwaiting : Waiting state) :
    Waiting (dispatchRound heap false state) ∧
      (dispatchRound heap false state).1.requests = state.1.requests := by
  obtain ⟨request, requests, worker, later, busy, active, sent, rfl⟩ := waiting_cons hwaiting
  refine ⟨⟨List.cons_ne_nil _ _, ?_⟩, rfl⟩
  intro hnone
  simp only [dispatchRound, moveWorkerToAvailable, moveWorkerToBusy, Bool.false_eq_true, if_false,
    List.erase_cons_head] at hnone
  split at hnone
  · next hagain => simp [hnone] at hagain
  · simp at hnone

theorem dispatchRound_succeeds (hwaiting : Waiting state) :
    (dispatchRound heap true state).1.requests = state.1.requests.tail ∧
      (dispatchRound heap true state).1.availableWorkers = state.1.availableWorkers.tail := by
  obtain ⟨request, requests, worker, later, busy, active, sent, rfl⟩ := waiting_cons hwaiting
  refine ⟨rfl, ?_⟩
  exact List.erase_cons_head worker later

theorem dispatchRound_fails_nodup (hwaiting : Waiting state)
    (hnodup : state.1.availableWorkers.Nodup) :
    (dispatchRound heap false state).1.availableWorkers.Perm state.1.availableWorkers := by
  obtain ⟨request, requests, worker, later, busy, active, sent, rfl⟩ := waiting_cons hwaiting
  have hworker : worker ∉ later := (List.nodup_cons.mp hnodup).1
  simp only [dispatchRound, moveWorkerToAvailable, moveWorkerToBusy, Bool.false_eq_true, if_false,
    List.erase_cons_head, if_neg hworker]
  exact List.perm_append_singleton worker later

end Rounds

def usableWorkers (b : Broker) (name : Bytes) : List Nat :=
  (b.service name).availableWorkers.filter fun worker => !b.isExpired worker

def dispatchState (b : Broker) (name : Bytes) : Service × List Dispatch :=
  ({ b.service name with availableWorkers := usableWorkers b name }, b.dispatched)

/-- The dispatch comes to an end if its sends end with the given results. -/
def Terminates (b : Broker) (name : Bytes) (results : Nat → Bool) : Prop :=
  ∃ n, dispatchRequests b name (firsts results n) ≠ none

variable {b : Broker} {name : Bytes}

theorem dispatchRequests_eq_none_iff {sends : List Bool} :
    dispatchRequests b name sends = none ↔
      Waiting (after Waiting (dispatchRound b.heap) sends (dispatchState b name)) := by
  rw [dispatchRequests, Option.map_eq_none_iff, dispatchLoop_eq]
  change (if Waiting (after _ _ _ (dispatchState b name)) then _ else _) = none ↔ _
  split
  · next hwaiting => simp [hwaiting]
  · next hended => simp [hended]

theorem terminates_iff_success {results : Nat → Bool} :
    Terminates b name results ↔
      ∀ n, dispatchRequests b name (firsts results n) = none →
        ∃ m, n ≤ m ∧ results m = true := by
  simp only [Terminates, ne_eq, dispatchRequests_eq_none_iff]
  apply ends_iff fun state => state.1.requests.length
  · intro state hwaiting
    exact (dispatchRound_fails b.heap hwaiting).1
  · intro state hwaiting
    rw [(dispatchRound_fails b.heap hwaiting).2]
  · intro state hwaiting
    have hpos : 0 < state.1.requests.length := List.length_pos_iff.mpr hwaiting.1
    rw [(dispatchRound_succeeds b.heap hwaiting).1, List.length_tail]
    omega

/-- As many sends must succeed as there are requests, or workers if they are fewer. -/
theorem terminates_iff_count {results : Nat → Bool} (hnodup : (usableWorkers b name).Nodup) :
    Terminates b name results ↔
      ∃ n, min (b.service name).requests.length (usableWorkers b name).length ≤
        (firsts results n).count true := by
  simp only [Terminates, ne_eq, dispatchRequests_eq_none_iff]
  let bound (state : Service × List Dispatch) :=
    min state.1.requests.length state.1.availableWorkers.length
  have hwaits : ∀ n,
      Waiting (after Waiting (dispatchRound b.heap) (firsts results n) (dispatchState b name)) ↔
        (firsts results n).count true < bound (dispatchState b name) := by
    intro n
    apply live_after_iff (fun state => state.1.availableWorkers.Nodup) bound
    · intro state _
      simp only [Waiting, bound, Nat.lt_min, List.length_pos_iff]
    · intro succeeds state hstate hwaiting
      cases succeeds with
      | false =>
        have hperm := dispatchRound_fails_nodup b.heap hwaiting hstate
        refine ⟨hperm.nodup_iff.mpr hstate, ?_⟩
        simp only [bound, (dispatchRound_fails b.heap hwaiting).2, hperm.length_eq]
        rfl
      | true =>
        obtain ⟨hrequests, hworkers⟩ := dispatchRound_succeeds b.heap hwaiting
        have hrequest : 0 < state.1.requests.length := List.length_pos_iff.mpr hwaiting.1
        have hworker : 0 < state.1.availableWorkers.length :=
          List.length_pos_iff.mpr hwaiting.2
        refine ⟨hworkers ▸ hstate.tail, ?_⟩
        simp only [bound, hrequests, hworkers, List.length_tail, Bool.toNat_true]
        omega
    · exact hnodup
  simp only [hwaits, Nat.not_lt]
  rfl

/-- A broker never lists a worker twice, so that the number of sends that succeed decides
in every state it can reach. -/
theorem always_terminates_iff (o : Options) (now : Int) (actions : List Action) :
    Always (step o) (fun b => ∀ name results, Terminates b name results ↔
      ∃ n, min (b.service name).requests.length (usableWorkers b name).length ≤
        (firsts results n).count true) (newBroker now) actions := by
  apply always_of_kept (I := Sound) (K := fun _ _ => True)
  · exact fun b action b' hb _ => sound_step hb
  · intro b hb name results
    apply terminates_iff_count
    exact (List.Nodup.of_append_left (hb.nodup name)).filter _
  · exact sound_newBroker now
  · exact throughout_of_forall (fun _ _ _ => trivial) _

/-- The dispatch ends unless all its sends fail from some point on.  For workers that are
listed once, the number of sends that succeed decides. -/
theorem dispatchRequests_terminates_iff (b : Broker) (name : Bytes) (results : Nat → Bool) :
    (Terminates b name results ↔
      ∀ n, dispatchRequests b name (firsts results n) = none →
        ∃ m, n ≤ m ∧ results m = true) ∧
    ((usableWorkers b name).Nodup →
      (Terminates b name results ↔
        ∃ n, min (b.service name).requests.length (usableWorkers b name).length ≤
          (firsts results n).count true)) :=
  ⟨terminates_iff_success, terminates_iff_count⟩

def closedWorker : Broker :=
  acceptRequest (registerWorker tenAndHundred (newBroker 0) [1] (ascii "echo")) [7]
    (newClientRequest (ascii "echo") [5])

theorem closedWorker_never_ends : ¬ Terminates closedWorker (ascii "echo") fun _ => false := by
  intro hends
  obtain ⟨m, -, hm⟩ := terminates_iff_success.mp hends 0 rfl
  exact absurd hm Bool.false_ne_true

end Zmq4.MajordomoRetries
