import Zmq4.LockedLoops
import Zmq4.ZyreNode

/-!
The life cycle of a ZRE node (`Start` and `Stop` of `zyre/node.go`), the goroutines
that it starts, and the beacon (`zyre/beacon.go`).

Both calls have the mutex of the node from beginning to end.  `SetPort` hands a command
to the command loop of the beacon and waits for the reply.  The peer manager, the
event channel and the socket have mutexes of their own, and nothing they do needs the
one of the node.
-/

namespace Zmq4.ZyreLifecycle

open ActionRuns LockedLoops
open ZyreNode (Handler)

inductive Loop
  | commandLoop
  | incomingLoop
  | discoveryLoop
  | heartbeatLoop
  deriving DecidableEq

instance : Fintype Loop :=
  .ofList [.commandLoop, .incomingLoop, .discoveryLoop, .heartbeatLoop] (by rintro ⟨⟩ <;> decide)

inductive Command
  | setName
  | setHeader
  | join
  | leave
  | whisper
  | shout

def nextSequence : List Mode := [.write]

def handleCommand : Command → List Mode
  | .setName | .setHeader | .join | .leave => [.write]
  | .whisper | .shout => []

def handlePing : List Mode := nextSequence

/-- Nothing is done with a message that cannot be decoded or is of another type. -/
def handleIncomingMessage : Option Handler → List Mode
  | some .handlePing => handlePing
  | some .handleHello | some .handleWhisper | some .handleShout | some .handleJoin
  | some .handleLeave | some .handlePingOK | none => []

inductive Work
  | command (request : Command)
  | incoming (handler : Option Handler)
  | discovery
  | heartbeat

def Work.loop : Work → Loop
  | .command _ => .commandLoop
  | .incoming _ => .incomingLoop
  | .discovery => .discoveryLoop
  | .heartbeat => .heartbeatLoop

def Work.sections : Work → List Mode
  | .command request => handleCommand request
  | .incoming handler => handleIncomingMessage handler
  | .discovery => []
  | .heartbeat => []

inductive State
  | stopped
  | starting
  | running
  | stopping
  deriving DecidableEq

/-- `Start` and `Stop`, once they have the mutex: they wait for the beacon to confirm
its port, start the beacon, cancel the context, and wait for the goroutines. -/
inductive Call
  | startPort
  | startBeacon
  | stopPort
  | stopCancel
  | stopWait
  deriving DecidableEq

def Call.need : Call → Need
  | .stopWait => .loops
  | .startPort | .startBeacon | .stopPort | .stopCancel => .nothing

def Call.awaitsBeacon : Call → Bool
  | .startPort | .stopPort => true
  | .startBeacon | .stopCancel | .stopWait => false

/-- The command loop of the beacon runs between `Beacon.Start` and `Beacon.Stop`, which
closes the channel of the commands. -/
inductive Beacon
  | idle
  | running
  | stopped
  deriving DecidableEq

structure Node where
  port : UInt16
  state : State := .stopped
  beacon : Beacon := .idle
  system : System Loop Call := { position := fun _ => .exited }
  crashed : Bool := false

/-- What `Start` meets: whether the socket can be made, the port that it finds if none
is configured, and whether the socket can be bound. -/
structure Setup where
  secured : Bool
  found : Option UInt16
  listened : Bool

def newNode (port : UInt16) : Node where
  port := port

inductive Action
  | start (setup : Setup)
  /-- The command loop of the beacon replies. -/
  | portSet
  | startBeacon (started : Bool)
  | stop
  | stopCancel
  | stopWait
  | take (work : Work)
  | loop (action : LoopAction Loop)

namespace Node

def goes (n : Node) (call : Option Call) : Node :=
  { n with system := { n.system with call } }

/-- A command on the closed channel of a stopped beacon panics.  That the `select` can take the
case of the beacon's context instead, and the call go on, is left out. -/
def setPort (n : Node) (call : Call) : Node :=
  if n.beacon = .stopped then { n with crashed := true } else n.goes (some call)

def choosePort (n : Node) (setup : Setup) : Option UInt16 :=
  if n.port = 0 then setup.found else some n.port

def start (n : Node) (setup : Setup) : Node :=
  if n.state = .stopped then
    if setup.secured then
      match n.choosePort setup with
      | none => { n with state := .starting }
      | some port =>
        if setup.listened then { n with state := .starting, port }.setPort .startPort
        else { n with state := .starting, port }
    else { n with state := .starting }
  else n

def portSet (n : Node) : Call → Option Node
  | .startPort => some (n.goes (some .startBeacon))
  | .stopPort => some (n.goes (some .stopCancel))
  | .startBeacon | .stopCancel | .stopWait => none

def startBeacon (n : Node) (started : Bool) : Node :=
  if n.beacon = .running ∨ started = false then n.goes none
  else
    { n with
      state := .running
      beacon := .running
      system := { n.system with position := fun _ => .select } }.goes none

def stop (n : Node) : Node :=
  if n.state = .stopped then n else { n with state := .stopping }.setPort .stopPort

def act (n : Node) : Action → Option Node
  | .start setup => if n.system.Admits .write then some (n.start setup) else none
  | .portSet => if n.beacon = .running then n.system.call.bind n.portSet else none
  | .startBeacon started =>
    if n.system.call = some .startBeacon then some (n.startBeacon started) else none
  | .stop => if n.system.Admits .write then some n.stop else none
  | .stopCancel =>
    if n.system.call = some .stopCancel then
      some { n with system := { n.system with call := some .stopWait, done := true } }
    else none
  | .stopWait =>
    if n.system.call = some .stopWait ∧ n.system.Joined then
      some ({ n with state := .stopped, beacon := .stopped }.goes none)
    else none
  | .take work =>
    (n.system.take work.loop work.sections).map fun system => { n with system }
  | .loop action => (n.system.loopStep action).map fun system => { n with system }

def step (n : Node) (action : Action) : Option Node :=
  if n.crashed then none else n.act action

/-- A call waits for a reply from the command loop of the beacon, which does not run. -/
def Unanswered (n : Node) : Prop :=
  ∃ call, n.system.call = some call ∧ call.awaitsBeacon = true ∧ n.beacon ≠ .running

/-- `Start` or `Stop` waits for the reply of a loop that does not run, or, with the
mutex, for a goroutine that needs it. -/
def Blocked (n : Node) : Prop :=
  n.Unanswered ∨ n.system.Blocked Call.need

def binds (n : Node) (setup : Setup) : Bool :=
  n.state = .stopped && setup.secured && (n.choosePort setup).isSome && setup.listened

/-- While the beacon has not been started, `Start` fails before it sets the port and
`Stop` finds the node stopped.  No goroutine is on its way to the mutex when `Stop`
begins to wait for them, and none takes work that leads there while it waits. -/
def Clear (n : Node) : Action → Prop
  | .start setup => n.binds setup = true → n.beacon ≠ .idle
  | .stop => n.state ≠ .stopped → n.beacon ≠ .idle
  | .stopCancel => ∀ loop, (n.system.position loop).isWaiting = false
  | .take work => n.system.call = some .stopWait → work.sections = []
  | .portSet | .startBeacon _ | .stopWait | .loop _ => True

instance (n : Node) : (action : Action) → Decidable (n.Clear action)
  | .start _ | .stop | .take _ => inferInstanceAs (Decidable (_ → _))
  | .stopCancel => inferInstanceAs (Decidable (∀ _, _))
  | .portSet | .startBeacon _ | .stopWait | .loop _ => .isTrue trivial

variable {n n' : Node} {action : Action}

theorem not_blocked_of_call_eq (hcall : n.system.call = none) : ¬ n.Blocked := by
  rintro (⟨call, hsome, -⟩ | hblocked)
  · rw [hcall] at hsome
    cases hsome
  · exact System.not_blocked_of_call_eq hcall hblocked

variable {call : Call}

theorem need_eq_loops_iff : call.need = .loops ↔ call = .stopWait := by
  cases call <;> decide

theorem need_ne_mutex (call : Call) : call.need ≠ .mutex := by
  cases call <;> decide

theorem not_blocked_of_call (hcall : n.system.call = some call) (hneed : call.need = .nothing) :
    ¬ n.Blocked ↔ (call.awaitsBeacon = true → n.beacon = .running) := by
  constructor
  · intro hfree hawaits
    by_contra hbeacon
    exact hfree (Or.inl ⟨call, hcall, hawaits, hbeacon⟩)
  · rintro hanswer (⟨other, hother, hawaits, hbeacon⟩ | ⟨other, hother, hmutex | ⟨hloops, -⟩⟩)
    · rw [hcall] at hother
      cases hother
      exact hbeacon (hanswer hawaits)
    · exact need_ne_mutex other hmutex
    · rw [hcall] at hother
      cases hother
      rw [hneed] at hloops
      cases hloops

theorem not_blocked_setPort_iff (hcall : n.system.call = none) (hneed : call.need = .nothing)
    (hawaits : call.awaitsBeacon = true) :
    ¬ (n.setPort call).Blocked ↔ n.beacon ≠ .idle := by
  unfold setPort
  split
  · next hstopped =>
      refine iff_of_true (not_blocked_of_call_eq hcall) ?_
      rw [hstopped]
      exact nofun
  · next hopen =>
      rw [not_blocked_of_call (n := n.goes (some call)) rfl hneed]
      constructor
      · intro hanswer hidle
        have hrunning : n.beacon = .running := hanswer hawaits
        rw [hidle] at hrunning
        cases hrunning
      · intro hbusy _
        change n.beacon = .running
        cases hbeacon : n.beacon with
        | idle => exact absurd hbeacon hbusy
        | running => rfl
        | stopped => exact absurd hbeacon hopen

theorem position_setPort (call : Call) :
    (n.setPort call).system.position = n.system.position := by
  unfold setPort
  split <;> rfl

theorem start_cases (setup : Setup) :
    (n.binds setup = false ∧ ∃ state port, (state = .starting ∨ state = n.state) ∧
        n.start setup = { n with state, port }) ∨
      n.binds setup = true ∧
        ∃ port, n.start setup = { n with state := .starting, port }.setPort .startPort := by
  unfold start binds
  split
  · next hstate =>
      split
      · next hsecured =>
          split
          · next hport => exact Or.inl ⟨by simp [hport], .starting, n.port, Or.inl rfl, rfl⟩
          · next port hport =>
              split
              · next hlistened =>
                  exact Or.inr ⟨by simp [hstate, hsecured, hport, hlistened], port, rfl⟩
              · next hlistened =>
                  exact Or.inl ⟨by simp [hlistened], .starting, port, Or.inl rfl, rfl⟩
      · next hsecured => exact Or.inl ⟨by simp [hsecured], .starting, n.port, Or.inl rfl, rfl⟩
  · next hstate => exact Or.inl ⟨by simp [hstate], n.state, n.port, Or.inr rfl, rfl⟩

theorem position_stop : n.stop.system.position = n.system.position := by
  unfold stop
  split
  · rfl
  · exact position_setPort .stopPort

theorem portSet_eq_some (hset : n.portSet call = some n') :
    ∃ next, call.awaitsBeacon = true ∧ next.need = .nothing ∧ next.awaitsBeacon = false ∧
      n' = n.goes (some next) := by
  cases call with
  | startPort => exact ⟨.startBeacon, rfl, rfl, rfl, (Option.some.inj hset).symm⟩
  | stopPort => exact ⟨.stopCancel, rfl, rfl, rfl, (Option.some.inj hset).symm⟩
  | startBeacon | stopCancel | stopWait => cases hset

theorem act_portSet_eq_some (hact : n.act .portSet = some n') :
    ∃ call next, n.beacon = .running ∧ n.system.call = some call ∧ call.awaitsBeacon = true ∧
      next.need = .nothing ∧ next.awaitsBeacon = false ∧ n' = n.goes (some next) := by
  obtain ⟨hbeacon, hbind⟩ := Option.ite_none_right_eq_some.mp hact
  obtain ⟨call, hcall, hset⟩ := Option.bind_eq_some_iff.mp hbind
  obtain ⟨next, hawaits, hneed, hfree, hgoes⟩ := portSet_eq_some hset
  exact ⟨call, next, hbeacon, hcall, hawaits, hneed, hfree, hgoes⟩

theorem call_startBeacon (started : Bool) : (n.startBeacon started).system.call = none := by
  unfold startBeacon
  split <;> rfl

theorem exclusive_act (hn : n.system.Exclusive) (hact : n.act action = some n') :
    n'.system.Exclusive := by
  cases action with
  | start setup =>
    obtain ⟨hadmits, ⟨⟩⟩ := Option.ite_none_right_eq_some.mp hact
    intro _ loop
    rcases start_cases (n := n) setup with ⟨-, state, port, -, hstart⟩ | ⟨-, port, hstart⟩
    · exact hstart ▸ hadmits.2 loop
    · rw [hstart, position_setPort]
      exact hadmits.2 loop
  | portSet =>
    obtain ⟨call, next, -, hcall, -, -, -, rfl⟩ := act_portSet_eq_some hact
    exact fun _ => hn (by rw [hcall]; rfl)
  | startBeacon started =>
    obtain ⟨-, ⟨⟩⟩ := Option.ite_none_right_eq_some.mp hact
    exact System.exclusive_of_call_eq (call_startBeacon started)
  | stop =>
    obtain ⟨hadmits, ⟨⟩⟩ := Option.ite_none_right_eq_some.mp hact
    intro _ loop
    rw [position_stop]
    exact hadmits.2 loop
  | stopCancel =>
    obtain ⟨hcall, ⟨⟩⟩ := Option.ite_none_right_eq_some.mp hact
    exact fun _ => hn (by rw [hcall]; rfl)
  | stopWait =>
    obtain ⟨-, ⟨⟩⟩ := Option.ite_none_right_eq_some.mp hact
    exact System.exclusive_of_call_eq rfl
  | take work =>
    obtain ⟨system, htake, rfl⟩ := Option.map_eq_some_iff.mp hact
    exact System.exclusive_take hn htake
  | loop action =>
    obtain ⟨system, hloop, rfl⟩ := Option.map_eq_some_iff.mp hact
    exact System.exclusive_loopStep hn hloop

theorem unanswered_iff_of_call_eq {system : System Loop Call}
    (hcall : system.call = n.system.call) : Unanswered { n with system } ↔ n.Unanswered := by
  unfold Unanswered
  rw [hcall]

theorem not_blocked_start_iff (hcall : n.system.call = none) (setup : Setup) :
    ¬ (n.start setup).Blocked ↔ n.Clear (.start setup) := by
  rcases start_cases (n := n) setup with ⟨hfails, state, port, -, hstart⟩ | ⟨hbinds, port, hstart⟩
  · refine iff_of_true (not_blocked_of_call_eq (by rw [hstart]; exact hcall)) fun hbinds => ?_
    rw [hfails] at hbinds
    cases hbinds
  · rw [hstart, not_blocked_setPort_iff (n := { n with state := .starting, port }) hcall rfl rfl]
    exact ⟨fun hbusy _ => hbusy, fun hclear => hclear hbinds⟩

theorem not_blocked_stop_iff (hcall : n.system.call = none) :
    ¬ n.stop.Blocked ↔ n.Clear .stop := by
  unfold stop
  split
  · next hstopped =>
      exact iff_of_true (not_blocked_of_call_eq hcall) fun hstate => absurd hstopped hstate
  · next hstate =>
      rw [not_blocked_setPort_iff (n := { n with state := .stopping }) hcall rfl rfl]
      exact ⟨fun hbusy _ => hbusy, fun hclear => hclear hstate⟩

theorem not_blocked_act_iff (hexclusive : n.system.Exclusive) (hn : ¬ n.Blocked)
    (hact : n.act action = some n') : ¬ n'.Blocked ↔ n.Clear action := by
  rw [Blocked, not_or] at hn
  cases action with
  | start setup =>
    obtain ⟨hadmits, ⟨⟩⟩ := Option.ite_none_right_eq_some.mp hact
    exact not_blocked_start_iff hadmits.call_eq setup
  | portSet =>
    obtain ⟨call, next, -, -, -, hneed, hfree, rfl⟩ := act_portSet_eq_some hact
    refine iff_of_true ((not_blocked_of_call rfl hneed).mpr fun hawaits => ?_) trivial
    rw [hfree] at hawaits
    cases hawaits
  | startBeacon started =>
    obtain ⟨-, ⟨⟩⟩ := Option.ite_none_right_eq_some.mp hact
    exact iff_of_true (not_blocked_of_call_eq (call_startBeacon started)) trivial
  | stop =>
    obtain ⟨hadmits, ⟨⟩⟩ := Option.ite_none_right_eq_some.mp hact
    exact not_blocked_stop_iff hadmits.call_eq
  | stopCancel =>
    obtain ⟨-, ⟨⟩⟩ := Option.ite_none_right_eq_some.mp hact
    rw [Blocked, not_or, System.not_blocked_waits_iff rfl true]
    refine and_iff_right ?_
    rintro ⟨call, hcall, hawaits, -⟩
    cases hcall
    cases hawaits
  | stopWait =>
    obtain ⟨-, ⟨⟩⟩ := Option.ite_none_right_eq_some.mp hact
    exact iff_of_true (not_blocked_of_call_eq rfl) trivial
  | take work =>
    obtain ⟨system, htake, rfl⟩ := Option.map_eq_some_iff.mp hact
    rw [Blocked, not_or, unanswered_iff_of_call_eq (System.call_take htake),
      System.not_blocked_take_iff hn.2 htake, and_iff_right hn.1]
    constructor
    · exact fun hclear hcall => hclear .stopWait hcall rfl
    · intro hclear call hcall hloops
      rw [need_eq_loops_iff.mp hloops] at hcall
      exact hclear hcall
  | loop action =>
    obtain ⟨system, hloop, rfl⟩ := Option.map_eq_some_iff.mp hact
    rw [Blocked, not_or, unanswered_iff_of_call_eq (System.call_loopStep hloop)]
    exact iff_of_true ⟨hn.1, System.not_blocked_loopStep hexclusive hn.2 hloop⟩ trivial

theorem blocked_step (hn : n.Blocked) (hstep : n.step action = some n') : n'.Blocked := by
  obtain ⟨-, hact⟩ := Option.ite_none_left_eq_some.mp hstep
  have hheld : ∀ mode, ¬ n.system.Admits mode := fun mode hadmits =>
    not_blocked_of_call_eq hadmits.call_eq hn
  cases action with
  | start | stop => exact absurd (Option.ite_none_right_eq_some.mp hact).1 (hheld .write)
  | portSet =>
    obtain ⟨call, next, hbeacon, hcall, hawaits, -⟩ := act_portSet_eq_some hact
    have hneed : call.need = .nothing := by
      cases call <;> first | rfl | cases hawaits
    exact absurd hn ((not_blocked_of_call hcall hneed).mpr fun _ => hbeacon)
  | startBeacon | stopCancel =>
    have hcall := (Option.ite_none_right_eq_some.mp hact).1
    exact absurd hn ((not_blocked_of_call hcall rfl).mpr nofun)
  | stopWait =>
    obtain ⟨⟨hcall, hjoined⟩, -⟩ := Option.ite_none_right_eq_some.mp hact
    rcases hn with ⟨call, hother, hawaits, -⟩ | ⟨call, -, hmutex | ⟨-, loop, hwaiting⟩⟩
    · rw [hcall] at hother
      cases hother
      cases hawaits
    · exact absurd hmutex (need_ne_mutex call)
    · rw [hjoined.not_waiting loop] at hwaiting
      cases hwaiting
  | take work =>
    obtain ⟨system, htake, rfl⟩ := Option.map_eq_some_iff.mp hact
    refine hn.imp (unanswered_iff_of_call_eq (System.call_take htake)).mpr fun hblocked => ?_
    exact System.blocked_take hblocked htake
  | loop action =>
    obtain ⟨system, hloop, rfl⟩ := Option.map_eq_some_iff.mp hact
    refine hn.imp (unanswered_iff_of_call_eq (System.call_loopStep hloop)).mpr fun hblocked => ?_
    exact System.blocked_loopStep hblocked hloop

/-- From any state in which no call is blocked and none shares the mutex with a loop,
whatever phase `Start` and `Stop` are in and wherever the loops are: no state of a run
is blocked if and only if each step meets the condition. -/
theorem node_unblocked_iff (n : Node) (hexclusive : n.system.Exclusive) (hn : ¬ n.Blocked)
    (actions : List Action) {t : Node} (hrun : run step n actions = some t) :
    Always step (fun n => ¬ n.Blocked) n actions ↔ Throughout step Clear n actions := by
  apply always_iff_throughout (J := fun n : Node => n.system.Exclusive) _ _ hexclusive hn hrun
  · exact fun n action n' hexclusive _ hstep =>
      exclusive_act hexclusive (Option.ite_none_left_eq_some.mp hstep).2
  · exact fun n action n' hexclusive hn hstep =>
      not_blocked_act_iff hexclusive hn (Option.ite_none_left_eq_some.mp hstep).2

def failedStarts : List Action :=
  [.start ⟨true, none, false⟩, .start ⟨true, none, true⟩]

def runningNode : Node where
  port := 5670
  state := .running
  beacon := .running
  system := { position := fun _ => .select }

/-- The command loop has set the name when `Stop` comes, and the discovery loop takes work
while `Stop` waits. -/
def stopAtWork : List Action :=
  [.take (.command .setName), .loop (.enter .commandLoop), .loop (.leave .commandLoop), .stop,
    .portSet, .stopCancel, .take .discovery, .loop (.exit .commandLoop),
    .loop (.exit .incomingLoop), .loop (.exit .discoveryLoop), .loop (.exit .heartbeatLoop),
    .stopWait]

theorem failedStarts_and_stopAtWork_unblocked :
    Always step (fun n => ¬ n.Blocked) (newNode 5670) failedStarts ∧
      Always step (fun n => ¬ n.Blocked) runningNode stopAtWork := by
  constructor
  · rw [node_unblocked_iff (newNode 5670) (System.exclusive_of_call_eq rfl)
      (not_blocked_of_call_eq rfl) _ rfl]
    decide
  · rw [node_unblocked_iff runningNode (System.exclusive_of_call_eq rfl)
      (not_blocked_of_call_eq rfl) _ rfl]
    decide

/-- `Start` of a new node waits for the command loop of the beacon as soon as the
socket is bound.  So does `Stop` after a `Start` that failed. -/
theorem start_and_stop_blocked :
    (∃ n, run step (newNode 5670) [.start ⟨true, none, true⟩] = some n ∧ n.Blocked) ∧
      ∃ n, run step (newNode 5670) [.start ⟨true, none, false⟩, .stop] = some n ∧ n.Blocked :=
  ⟨⟨_, rfl, Or.inl ⟨.startPort, rfl, rfl, nofun⟩⟩, ⟨_, rfl, Or.inl ⟨.stopPort, rfl, rfl, nofun⟩⟩⟩

/-- The beacon has not been started, and a call that has the mutex waits for it. -/
structure Early (n : Node) : Prop where
  beacon : n.beacon = .idle
  state : n.state ≠ .running
  call : ∀ call, n.system.call = some call → call.awaitsBeacon = true

theorem Early.setPort (hn : n.Early) (hawaits : call.awaitsBeacon = true) :
    (n.setPort call).Early := by
  have hopen : n.beacon ≠ .stopped := by
    rw [hn.beacon]
    exact nofun
  rw [Node.setPort, if_neg hopen]
  refine ⟨hn.beacon, hn.state, ?_⟩
  rintro other ⟨⟩
  exact hawaits

theorem Early.call_ne (hn : n.Early) (hawaits : call.awaitsBeacon = false) :
    n.system.call ≠ some call := by
  intro hcall
  rw [hn.call call hcall] at hawaits
  cases hawaits

theorem Early.withSystem (hn : n.Early) {system : System Loop Call}
    (hcall : system.call = n.system.call) : Early { n with system } :=
  ⟨hn.beacon, hn.state, fun call hsome => hn.call call (hcall ▸ hsome)⟩

theorem early_act (hn : n.Early) (hact : n.act action = some n') : n'.Early := by
  cases action with
  | start setup =>
    obtain ⟨-, ⟨⟩⟩ := Option.ite_none_right_eq_some.mp hact
    rcases start_cases (n := n) setup with ⟨-, state, port, hstate, hstart⟩ | ⟨-, port, hstart⟩
    · rw [hstart]
      refine ⟨hn.beacon, ?_, hn.call⟩
      rcases hstate with rfl | rfl
      · exact nofun
      · exact hn.state
    · rw [hstart]
      have hstarting : Early { n with state := .starting, port } := ⟨hn.beacon, nofun, hn.call⟩
      exact hstarting.setPort rfl
  | stop =>
    obtain ⟨-, ⟨⟩⟩ := Option.ite_none_right_eq_some.mp hact
    unfold Node.stop
    split
    · exact hn
    · have hstopping : Early { n with state := .stopping } := ⟨hn.beacon, nofun, hn.call⟩
      exact hstopping.setPort rfl
  | portSet =>
    have hrunning := (Option.ite_none_right_eq_some.mp hact).1
    rw [hn.beacon] at hrunning
    cases hrunning
  | startBeacon | stopCancel =>
    exact absurd (Option.ite_none_right_eq_some.mp hact).1 (hn.call_ne rfl)
  | stopWait => exact absurd (Option.ite_none_right_eq_some.mp hact).1.1 (hn.call_ne rfl)
  | take work =>
    obtain ⟨system, htake, rfl⟩ := Option.map_eq_some_iff.mp hact
    exact hn.withSystem (System.call_take htake)
  | loop action =>
    obtain ⟨system, hloop, rfl⟩ := Option.map_eq_some_iff.mp hact
    exact hn.withSystem (System.call_loopStep hloop)

/-- No run of a new node starts the beacon, and the node never runs. -/
theorem never_running (port : UInt16) (actions : List Action) :
    Always step (fun n => n.beacon = .idle ∧ n.state ≠ .running) (newNode port) actions := by
  apply always_of_kept (I := Early) (K := fun _ _ => True)
  · exact fun n action n' hn _ hstep => early_act hn (Option.ite_none_left_eq_some.mp hstep).2
  · exact fun n hn => ⟨hn.beacon, hn.state⟩
  · exact ⟨rfl, nofun, nofun⟩
  · exact throughout_of_forall (fun _ _ _ => trivial) _

/-- A node that is blocked stays so, whatever its goroutines still do. -/
theorem blocked_for_good (hn : n.Blocked) (actions : List Action) :
    Always step Blocked n actions :=
  always_of_invariant (fun _ _ _ => blocked_step) hn actions

theorem started_blocked_for_good :
    ∃ n, run step (newNode 5670) [.start ⟨true, none, true⟩] = some n ∧
      ∀ actions, Always step Blocked n actions :=
  ⟨_, rfl, blocked_for_good (Or.inl ⟨.startPort, rfl, rfl, nofun⟩)⟩

end Node

end Zmq4.ZyreLifecycle
