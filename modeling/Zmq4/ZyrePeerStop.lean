import Zmq4.LockedLoops

/-!
`Stop` of a ZRE peer (`zyre/peer.go`) and the two goroutines of the peer.

`Stop` has the mutex of the peer from beginning to end, and its caller
(`handleDiscovery`, `checkExpiredPeers` or `PeerManager.Stop`) has the one of the peer
manager.  Nothing that `Stop` does before it waits for the goroutines needs another one,
so it gets the mutex and cancels the context in one action here.
-/

namespace Zmq4.ZyrePeerStop

open ActionRuns LockedLoops

inductive Loop
  | outgoingLoop
  | commandLoop
  deriving DecidableEq

instance : Fintype Loop :=
  .ofList [.outgoingLoop, .commandLoop] (by rintro ⟨⟩ <;> decide)

/-- The capacity of the channel the loop reads. -/
def Loop.capacity : Loop → Nat
  | .outgoingLoop => 100
  | .commandLoop => 10

/-- A ping takes the mutex in `nextSequence`. -/
def Loop.sections : Loop → List Mode
  | .outgoingLoop => []
  | .commandLoop => [.write]

inductive Call
  | stopWait

def Call.need : Call → Need
  | .stopWait => .loops

structure Peer where
  connected : Bool := true
  /-- The messages and the pings in the channels. -/
  queued : Loop → Nat := fun _ => 0
  system : System Loop Call := { position := fun _ => .select }

inductive Action
  | stop
  | stopReturn
  /-- `Send` or `sendPeriodicHeartbeats`. -/
  | queue (loop : Loop)
  | take (loop : Loop)
  | loop (action : LoopAction Loop)

namespace Peer

def requeue (p : Peer) (loop : Loop) (queued : Nat) : Peer :=
  { p with queued := Function.update p.queued loop queued }

def step (p : Peer) : Action → Option Peer
  | .stop =>
    if p.system.Admits .write then
      some { p with system :=
        if p.connected then { p.system with call := some .stopWait, done := true } else p.system }
    else none
  | .stopReturn =>
    if p.system.call.isSome ∧ p.system.Joined then
      some { p with connected := false, system := { p.system with call := none } }
    else none
  | .queue loop =>
    if p.connected ∧ p.queued loop < loop.capacity then some (p.requeue loop (p.queued loop + 1))
    else none
  | .take loop =>
    if 0 < p.queued loop then
      (p.system.take loop loop.sections).map fun system =>
        { p.requeue loop (p.queued loop - 1) with system }
    else none
  | .loop action => (p.system.loopStep action).map fun system => { p with system }

/-- `Stop` waits for a goroutine that waits for the mutex which `Stop` has. -/
def Blocked (p : Peer) : Prop :=
  p.system.Blocked Call.need

/-- No goroutine is on its way to the mutex when `Stop` gets it, and the command loop
takes no ping while `Stop` waits. -/
def Clear (p : Peer) : Action → Prop
  | .stop => p.connected = true → ∀ loop, (p.system.position loop).isWaiting = false
  | .take loop => p.system.call.isSome → loop = .outgoingLoop
  | .stopReturn | .queue _ | .loop _ => True

structure Sound (p : Peer) : Prop where
  exclusive : p.system.Exclusive
  done : p.system.call.isSome → p.system.done = true

variable {p q : Peer} {action : Action} {loop : Loop}

theorem sections_eq_nil_iff : loop.sections = [] ↔ loop = .outgoingLoop := by
  cases loop <;> decide

theorem sound_step (hp : p.Sound) (hstep : p.step action = some q) : q.Sound := by
  cases action with
  | stop =>
    obtain ⟨hadmits, ⟨⟩⟩ := Option.ite_none_right_eq_some.mp hstep
    dsimp only
    split
    · exact ⟨fun _ => hadmits.2, fun _ => rfl⟩
    · exact hp
  | stopReturn =>
    obtain ⟨-, ⟨⟩⟩ := Option.ite_none_right_eq_some.mp hstep
    exact ⟨System.exclusive_of_call_eq rfl, nofun⟩
  | queue loop =>
    obtain ⟨-, ⟨⟩⟩ := Option.ite_none_right_eq_some.mp hstep
    exact ⟨hp.exclusive, hp.done⟩
  | take loop =>
    obtain ⟨-, hmap⟩ := Option.ite_none_right_eq_some.mp hstep
    obtain ⟨system, htake, rfl⟩ := Option.map_eq_some_iff.mp hmap
    refine ⟨System.exclusive_take hp.exclusive htake, ?_⟩
    obtain ⟨-, rfl⟩ := System.take_eq_some htake
    exact hp.done
  | loop action =>
    obtain ⟨system, hloop, rfl⟩ := Option.map_eq_some_iff.mp hstep
    refine ⟨System.exclusive_loopStep hp.exclusive hloop, ?_⟩
    rcases System.loopStep_cases hloop with ⟨_, _, _, _, _, rfl⟩ | ⟨_, _, _, _, rfl⟩ | ⟨_, _, _, rfl⟩
    all_goals exact hp.done

theorem not_blocked_step_iff (hp : p.Sound) (hfree : ¬ p.Blocked) (hstep : p.step action = some q) :
    ¬ q.Blocked ↔ p.Clear action := by
  cases action with
  | stop =>
    obtain ⟨-, ⟨⟩⟩ := Option.ite_none_right_eq_some.mp hstep
    by_cases hconnected : p.connected = true
    · simp only [Blocked, Clear, hconnected, if_true, true_imp_iff]
      exact System.not_blocked_waits_iff rfl true
    · simp only [Blocked, Clear, hconnected]
      exact iff_of_true hfree nofun
  | stopReturn =>
    obtain ⟨-, ⟨⟩⟩ := Option.ite_none_right_eq_some.mp hstep
    exact iff_of_true (System.not_blocked_of_call_eq rfl) trivial
  | queue loop =>
    obtain ⟨-, ⟨⟩⟩ := Option.ite_none_right_eq_some.mp hstep
    exact iff_of_true hfree trivial
  | take loop =>
    obtain ⟨-, hmap⟩ := Option.ite_none_right_eq_some.mp hstep
    obtain ⟨system, htake, rfl⟩ := Option.map_eq_some_iff.mp hmap
    rw [Blocked, System.not_blocked_take_iff hfree htake, Clear, Option.isSome_iff_exists,
      ← sections_eq_nil_iff]
    constructor
    · rintro hclear ⟨call, hcall⟩
      exact hclear call hcall rfl
    · exact fun hclear call hcall _ => hclear ⟨call, hcall⟩
  | loop action =>
    obtain ⟨system, hloop, rfl⟩ := Option.map_eq_some_iff.mp hstep
    exact iff_of_true (System.not_blocked_loopStep hp.exclusive hfree hloop) trivial

theorem blocked_step (hblocked : p.Blocked) (hstep : p.step action = some q) : q.Blocked := by
  cases action with
  | stop =>
    obtain ⟨hadmits, -⟩ := Option.ite_none_right_eq_some.mp hstep
    exact absurd hblocked (System.not_blocked_of_call_eq hadmits.call_eq)
  | stopReturn =>
    obtain ⟨⟨-, hjoined⟩, -⟩ := Option.ite_none_right_eq_some.mp hstep
    rcases hblocked with ⟨call, -, hmutex | ⟨-, loop, hwaiting⟩⟩
    · cases hmutex
    · rw [hjoined.not_waiting loop] at hwaiting
      cases hwaiting
  | queue loop =>
    obtain ⟨-, ⟨⟩⟩ := Option.ite_none_right_eq_some.mp hstep
    exact hblocked
  | take loop =>
    obtain ⟨-, hmap⟩ := Option.ite_none_right_eq_some.mp hstep
    obtain ⟨system, htake, rfl⟩ := Option.map_eq_some_iff.mp hmap
    exact System.blocked_take hblocked htake
  | loop action =>
    obtain ⟨system, hloop, rfl⟩ := Option.map_eq_some_iff.mp hstep
    exact System.blocked_loopStep hblocked hloop

theorem run_loops {actions : List (LoopAction Loop)} {system : System Loop Call}
    (hrun : run System.loopStep p.system actions = some system) :
    run step p (actions.map .loop) = some { p with system } := by
  induction actions generalizing p with
  | nil =>
    obtain rfl : p.system = system := by simpa using hrun
    rfl
  | cons action rest ih =>
    obtain ⟨between, haction, hrest⟩ := run_cons_eq_some_iff.mp hrun
    refine run_cons_eq_some_iff.mpr ⟨{ p with system := between }, ?_, ih hrest⟩
    rw [step, haction]
    rfl

theorem not_blocked_iff_exists_return (hp : p.Sound) (hcall : p.system.call.isSome) :
    ¬ p.Blocked ↔ ∃ actions q, run step p actions = some q ∧ q.system.call = none := by
  constructor
  · intro hfree
    obtain ⟨call, hsome⟩ := Option.isSome_iff_exists.mp hcall
    obtain ⟨actions, system, hrun, hkept, hjoined⟩ :=
      System.exists_joined hp.exclusive hfree hsome rfl (hp.done hcall)
    refine ⟨actions.map .loop ++ [.stopReturn],
      { p with connected := false, system := { system with call := none } }, ?_, rfl⟩
    rw [run_append, run_loops hrun, Option.bind_some, run_cons, step,
      if_pos ⟨by rw [hkept]; rfl, hjoined⟩]
    rfl
  · rintro ⟨actions, q, hrun, hnone⟩ hblocked
    exact System.not_blocked_of_call_eq hnone
      (run_keeps (fun _ _ _ => blocked_step) hblocked hrun)

/-- `Stop` never waits for a goroutine that waits for the mutex if and only if no ping is
on its way to the mutex when `Stop` gets it, and none is taken while it waits.  As long
as that is so, and only then, `Stop` can return, and its caller releases the mutex of the
manager. -/
theorem stop_unblocked_iff {actions : List Action} (hrun : run step {} actions = some p) :
    (Always step (fun p => ¬ p.Blocked) {} actions ↔ Throughout step Clear {} actions) ∧
      (p.system.call.isSome → (¬ p.Blocked ↔
        ∃ actions q, run step p actions = some q ∧ q.system.call = none)) := by
  have hstart : ({} : Peer).Sound := ⟨System.exclusive_of_call_eq rfl, nofun⟩
  constructor
  · apply always_iff_throughout (J := Sound) _ _ hstart (System.not_blocked_of_call_eq rfl) hrun
    · exact fun _ _ _ hp _ hstep => sound_step hp hstep
    · exact fun _ _ _ hp hfree hstep => not_blocked_step_iff hp hfree hstep
  · exact not_blocked_iff_exists_return (run_keeps (fun _ _ _ => sound_step) hstart hrun)

theorem stop_unblocked_iff_quiet :
    Always step (fun p => ¬ p.Blocked) {} [.stop] ↔ Throughout step Clear {} [.stop] :=
  (stop_unblocked_iff rfl).1

/-- The command loop takes a ping just before or just after `Stop` gets the mutex. -/
theorem stop_blocked_by_ping :
    (∃ p, run step {} [.queue .commandLoop, .take .commandLoop, .stop] = some p ∧ p.Blocked) ∧
      ∃ p, run step {} [.queue .commandLoop, .stop, .take .commandLoop] = some p ∧ p.Blocked :=
  ⟨⟨_, rfl, .stopWait, rfl, Or.inr ⟨rfl, .commandLoop, rfl⟩⟩,
    _, rfl, .stopWait, rfl, Or.inr ⟨rfl, .commandLoop, rfl⟩⟩

end Peer

end Zmq4.ZyrePeerStop
