import Zmq4.LockedLoops
import Zmq4.MalamuteBroker

/-!
The life cycle of the Malamute broker and client (`malamute/broker.go`,
`malamute/client.go`): `Start` and `Stop`, `Connect` and `Disconnect`, and the
goroutines that they start.

Of each piece of work a goroutine does, the model has the critical sections of the
component's mutex that it leads through.  The managers and the sockets have
mutexes of their own, and nothing they do needs this one.
-/

namespace Zmq4.MalamuteLifecycle

open ActionRuns LockedLoops
open MalamuteBroker (MessageType)

namespace Broker

inductive Loop
  | socketLoop
  | messageLoop
  | responseLoop
  | commandLoop
  | heartbeatLoop
  | cleanupLoop
  deriving DecidableEq

instance : Fintype Loop :=
  .ofList [.socketLoop, .messageLoop, .responseLoop, .commandLoop, .heartbeatLoop, .cleanupLoop]
    (by rintro ⟨⟩ <;> decide)

/-- What the handler of a message finds: whether the body can be read, whether
there are `MaxConnections` clients, and whether `RequestCredit` succeeds. -/
structure Outcome where
  decoded : Bool
  full : Bool
  granted : Bool

def updateClientActivity : List Mode := [.write]

def removeClient : List Mode := [.write]

def nextSequence : List Mode := [.write]

def checkClientTimeouts : List Mode := [.write]

def handleConnectionOpen (outcome : Outcome) : List Mode :=
  if outcome.decoded then .read :: if outcome.full then [] else [.write] else []

def handleConnectionPing (outcome : Outcome) : List Mode :=
  if outcome.decoded then nextSequence else []

def handleConnectionClose : List Mode := removeClient

def handleCreditRequest (outcome : Outcome) : List Mode :=
  if outcome.decoded ∧ outcome.granted then nextSequence else []

def processClientMessage (type : Option MessageType) (outcome : Outcome) : List Mode :=
  updateClientActivity ++
    match type with
    | some .connectionOpen => handleConnectionOpen outcome
    | some .connectionPing => handleConnectionPing outcome
    | some .connectionClose => handleConnectionClose
    | some .creditRequest => handleCreditRequest outcome
    | some .streamWrite | some .streamRead | some .streamCancel | some .mailboxSend
    | some .mailboxReceive | some .serviceOffer | some .serviceWithdraw | some .serviceRequest
    | some .serviceReply | none => []

def processHeartbeat : List Mode := updateClientActivity

inductive Command
  | getStatistics
  | getClients

def handleCommand : Command → List Mode
  | .getStatistics => [.read]
  | .getClients => [.read]

inductive Work
  | receive
  | message (type : Option MessageType) (outcome : Outcome)
  | response
  | command (request : Command)
  | heartbeat
  | timeouts
  | cleanup

def Work.loop : Work → Loop
  | .receive => .socketLoop
  | .message _ _ => .messageLoop
  | .response => .responseLoop
  | .command _ => .commandLoop
  | .heartbeat => .heartbeatLoop
  | .timeouts => .heartbeatLoop
  | .cleanup => .cleanupLoop

def Work.sections : Work → List Mode
  | .receive => []
  | .message type outcome => processClientMessage type outcome
  | .response => []
  | .command request => handleCommand request
  | .heartbeat => processHeartbeat
  | .timeouts => checkClientTimeouts
  | .cleanup => []

inductive State
  | stopped
  | starting
  | running
  | stopping
  deriving DecidableEq

inductive StopCall
  | cancel
  | wait
  deriving DecidableEq

def StopCall.need : StopCall → Need
  | .cancel => .nothing
  | .wait => .loops

end Broker

/-- `stopCalls` is the number of calls of `Stop` that do not have the mutex yet.
`closed` is set once the channels are closed. -/
structure Broker where
  state : Broker.State := .stopped
  system : System Broker.Loop Broker.StopCall := { position := fun _ => .exited }
  stopCalls : Nat := 0
  closed : Bool := false
  crashed : Bool := false

namespace Broker

inductive Action
  /-- `Start`, and whether the socket could be bound. -/
  | start (bound : Bool)
  | take (work : Work)
  | loop (action : LoopAction Loop)
  | stopCall
  | stopLock
  | stopCancel
  | stopWait
  /-- A goroutine panics on a closed channel, after a second `Start`. -/
  | crash

def start (b : Broker) (bound : Bool) : Broker :=
  if b.state = .stopped then
    if bound then
      { b with state := .running, system := { b.system with position := fun _ => .select } }
    else { b with state := .starting }
  else b

def stopLock (b : Broker) : Broker :=
  if b.state = .stopped then { b with stopCalls := b.stopCalls - 1 }
  else
    { b with
      state := .stopping
      stopCalls := b.stopCalls - 1
      system := { b.system with call := some .cancel } }

def stopWait (b : Broker) : Broker :=
  if b.closed then { b with crashed := true }
  else { b with state := .stopped, closed := true, system := { b.system with call := none } }

def act (b : Broker) : Action → Option Broker
  | .start bound => if b.system.Admits .write then some (b.start bound) else none
  | .take work =>
    (b.system.take work.loop work.sections).map fun system => { b with system }
  | .loop action => (b.system.loopStep action).map fun system => { b with system }
  | .stopCall => some { b with stopCalls := b.stopCalls + 1 }
  | .stopLock => if 0 < b.stopCalls ∧ b.system.Admits .write then some b.stopLock else none
  | .stopCancel =>
    if b.system.call = some .cancel then
      some { b with system := { b.system with call := some .wait, done := true } }
    else none
  | .stopWait =>
    if b.system.call = some .wait ∧ b.system.Joined then some b.stopWait else none
  | .crash =>
    if b.closed ∧ ¬ b.system.Joined then some { b with crashed := true } else none

def step (b : Broker) (action : Action) : Option Broker :=
  if b.crashed then none else b.act action

/-- `Stop` has the mutex and waits for a goroutine that needs it. -/
def Blocked (b : Broker) : Prop :=
  b.system.Blocked StopCall.need

/-- No goroutine is on its way to the mutex when `Stop` begins to wait for them,
and none takes work that leads there while it waits. -/
def Clear (b : Broker) : Action → Prop
  | .take work => b.system.call = some .wait → work.sections = []
  | .stopCancel => ∀ loop, (b.system.position loop).isWaiting = false
  | .start _ | .loop _ | .stopCall | .stopLock | .stopWait | .crash => True

variable {b b' : Broker} {action : Action}

theorem need_eq_loops_iff {call : StopCall} : call.need = .loops ↔ call = .wait := by
  cases call <;> decide

theorem blocked_iff :
    b.Blocked ↔ b.system.call = some .wait ∧
      ∃ loop, (b.system.position loop).isWaiting = true := by
  constructor
  · rintro ⟨call, hcall, hmutex | ⟨hloops, hwaiting⟩⟩
    · cases call <;> cases hmutex
    · rw [need_eq_loops_iff.mp hloops] at hcall
      exact ⟨hcall, hwaiting⟩
  · rintro ⟨hcall, hwaiting⟩
    exact ⟨.wait, hcall, Or.inr ⟨rfl, hwaiting⟩⟩

theorem call_start {bound : Bool} : (b.start bound).system.call = b.system.call := by
  unfold start
  split
  · split <;> rfl
  · rfl

theorem stopLock_not_waiting (hcall : b.system.call = none) :
    b.stopLock.system.call ≠ some .wait := by
  unfold stopLock
  split
  · dsimp only
    rw [hcall]
    exact nofun
  · exact nofun

theorem position_stopLock : b.stopLock.system.position = b.system.position := by
  unfold stopLock
  split <;> rfl

theorem position_stopWait : b.stopWait.system.position = b.system.position := by
  unfold stopWait
  split <;> rfl

theorem exclusive_act (hb : b.system.Exclusive) (hact : b.act action = some b') :
    b'.system.Exclusive := by
  cases action with
  | start bound =>
    obtain ⟨hadmits, ⟨⟩⟩ := Option.ite_none_right_eq_some.mp hact
    exact System.exclusive_of_call_eq (call_start.trans hadmits.call_eq)
  | take work =>
    obtain ⟨system, htake, rfl⟩ := Option.map_eq_some_iff.mp hact
    exact System.exclusive_take hb htake
  | loop action =>
    obtain ⟨system, hloop, rfl⟩ := Option.map_eq_some_iff.mp hact
    exact System.exclusive_loopStep hb hloop
  | stopCall =>
    cases hact
    exact hb
  | stopLock =>
    obtain ⟨⟨-, hadmits⟩, ⟨⟩⟩ := Option.ite_none_right_eq_some.mp hact
    intro _ loop
    rw [position_stopLock]
    exact hadmits.2 loop
  | stopCancel =>
    obtain ⟨hcall, ⟨⟩⟩ := Option.ite_none_right_eq_some.mp hact
    exact fun _ => hb (by rw [hcall]; rfl)
  | stopWait =>
    obtain ⟨⟨-, hjoined⟩, ⟨⟩⟩ := Option.ite_none_right_eq_some.mp hact
    intro _ loop
    rw [position_stopWait, hjoined loop]
    rfl
  | crash =>
    obtain ⟨-, ⟨⟩⟩ := Option.ite_none_right_eq_some.mp hact
    exact hb

theorem not_blocked_take_iff {work : Work} {system : System Loop StopCall} (hb : ¬ b.Blocked)
    (htake : b.system.take work.loop work.sections = some system) :
    ¬ Blocked { b with system } ↔ b.Clear (.take work) := by
  refine (System.not_blocked_take_iff hb htake).trans ?_
  constructor
  · exact fun hclear hcall => hclear .wait hcall rfl
  · intro hclear call hcall hloops
    rw [need_eq_loops_iff.mp hloops] at hcall
    exact hclear hcall

theorem not_blocked_act_iff (hexclusive : b.system.Exclusive) (hb : ¬ b.Blocked)
    (hact : b.act action = some b') : ¬ b'.Blocked ↔ b.Clear action := by
  cases action with
  | start bound =>
    obtain ⟨hadmits, ⟨⟩⟩ := Option.ite_none_right_eq_some.mp hact
    exact iff_of_true (System.not_blocked_of_call_eq (call_start.trans hadmits.call_eq)) trivial
  | take work =>
    obtain ⟨system, htake, rfl⟩ := Option.map_eq_some_iff.mp hact
    exact not_blocked_take_iff hb htake
  | loop action =>
    obtain ⟨system, hloop, rfl⟩ := Option.map_eq_some_iff.mp hact
    exact iff_of_true (System.not_blocked_loopStep hexclusive hb hloop) trivial
  | stopCall =>
    cases hact
    exact iff_of_true hb trivial
  | stopLock =>
    obtain ⟨⟨-, hadmits⟩, ⟨⟩⟩ := Option.ite_none_right_eq_some.mp hact
    refine iff_of_true (fun hblocked => ?_) trivial
    exact stopLock_not_waiting hadmits.call_eq (blocked_iff.mp hblocked).1
  | stopCancel =>
    obtain ⟨-, ⟨⟩⟩ := Option.ite_none_right_eq_some.mp hact
    exact System.not_blocked_waits_iff rfl true
  | stopWait =>
    obtain ⟨⟨-, hjoined⟩, ⟨⟩⟩ := Option.ite_none_right_eq_some.mp hact
    refine iff_of_true (fun hblocked => ?_) trivial
    obtain ⟨-, loop, hwaiting⟩ := blocked_iff.mp hblocked
    rw [position_stopWait, hjoined.not_waiting loop] at hwaiting
    cases hwaiting
  | crash =>
    obtain ⟨-, ⟨⟩⟩ := Option.ite_none_right_eq_some.mp hact
    exact iff_of_true hb trivial

theorem blocked_step (hb : b.Blocked) (hstep : b.step action = some b') : b'.Blocked := by
  obtain ⟨-, hact⟩ := Option.ite_none_left_eq_some.mp hstep
  obtain ⟨hcall, loop, hwaiting⟩ := blocked_iff.mp hb
  have hheld : ∀ mode, ¬ b.system.Admits mode := by
    intro mode hadmits
    rw [hadmits.call_eq] at hcall
    cases hcall
  have hrunning : ¬ b.system.Joined := by
    intro hjoined
    rw [hjoined.not_waiting loop] at hwaiting
    cases hwaiting
  cases action with
  | start bound => exact absurd (Option.ite_none_right_eq_some.mp hact).1 (hheld .write)
  | take work =>
    obtain ⟨system, htake, rfl⟩ := Option.map_eq_some_iff.mp hact
    exact System.blocked_take hb htake
  | loop action =>
    obtain ⟨system, hloop, rfl⟩ := Option.map_eq_some_iff.mp hact
    exact System.blocked_loopStep hb hloop
  | stopCall =>
    cases hact
    exact hb
  | stopLock => exact absurd (Option.ite_none_right_eq_some.mp hact).1.2 (hheld .write)
  | stopCancel =>
    have hcancel := (Option.ite_none_right_eq_some.mp hact).1
    rw [hcall] at hcancel
    cases hcancel
  | stopWait => exact absurd (Option.ite_none_right_eq_some.mp hact).1.2 hrunning
  | crash =>
    obtain ⟨-, ⟨⟩⟩ := Option.ite_none_right_eq_some.mp hact
    exact hb

theorem run_loops {actions : List (LoopAction Loop)} {system : System Loop StopCall}
    (hcrashed : b.crashed = false)
    (hrun : run System.loopStep b.system actions = some system) :
    run step b (actions.map .loop) = some { b with system } := by
  induction actions generalizing b with
  | nil =>
    cases hrun
    rfl
  | cons action rest ih =>
    obtain ⟨middle, hstep, hrest⟩ := run_cons_eq_some_iff.mp hrun
    have hfirst : b.step (.loop action) = some { b with system := middle } := by
      rw [step, if_neg (by simp [hcrashed]), act, hstep]
      rfl
    exact run_cons_eq_some_iff.mpr ⟨_, hfirst, ih hcrashed hrest⟩

/-- The wait of `Stop` can end if and only if `Stop` is not blocked. -/
theorem exists_stopWait_iff (hexclusive : b.system.Exclusive) (hcrashed : b.crashed = false)
    (hcall : b.system.call = some .wait) (hdone : b.system.done = true) :
    (∃ actions t, run step b (actions ++ [.stopWait]) = some t) ↔ ¬ b.Blocked := by
  constructor
  · rintro ⟨actions, t, hrun⟩ hb
    rw [run_append] at hrun
    obtain ⟨last, hlast, hwait⟩ := Option.bind_eq_some_iff.mp hrun
    have hblocked : last.Blocked :=
      run_keeps (I := Blocked) (fun s action s' => blocked_step) hb hlast
    obtain ⟨final, hstep, -⟩ := run_cons_eq_some_iff.mp hwait
    have hjoined := (Option.ite_none_right_eq_some.mp (Option.ite_none_left_eq_some.mp hstep).2).1.2
    obtain ⟨-, loop, hwaiting⟩ := blocked_iff.mp hblocked
    rw [hjoined.not_waiting loop] at hwaiting
    cases hwaiting
  · intro hb
    obtain ⟨actions, system, hrun, hheld, hjoined⟩ :=
      System.exists_joined hexclusive hb hcall rfl hdone
    have hstep : Broker.step { b with system } .stopWait = some (stopWait { b with system }) := by
      rw [step, if_neg (by simp [hcrashed]), act, if_pos ⟨hheld, hjoined⟩]
    refine ⟨actions.map .loop, stopWait { b with system }, ?_⟩
    rw [run_append, run_loops hcrashed hrun]
    exact run_cons_eq_some_iff.mpr ⟨_, hstep, rfl⟩

end Broker

namespace Client

inductive Loop
  | socketLoop
  | outgoingLoop
  | incomingLoop
  | commandLoop
  | heartbeatLoop
  deriving DecidableEq

instance : Fintype Loop :=
  .ofList [.socketLoop, .outgoingLoop, .incomingLoop, .commandLoop, .heartbeatLoop]
    (by rintro ⟨⟩ <;> decide)

inductive State
  | disconnected
  | connecting
  | connected
  | disconnecting
  deriving DecidableEq

inductive Incoming
  | connectionPong
  | creditConfirm (decoded : Bool)
  | streamSend
  | mailboxDeliver
  | serviceDeliver
  | error
  | other

def nextSequence : List Mode := [.write]

def processIncoming : Incoming → List Mode
  | .creditConfirm decoded => if decoded then [.write] else []
  | .connectionPong | .streamSend | .mailboxDeliver | .serviceDeliver | .error => []
  | .other => [.write]

def sendHeartbeat (state : State) : List Mode :=
  if state = .connected then nextSequence else []

inductive Work
  | receive
  | send
  | incoming (message : Incoming)
  | command
  | heartbeat

def Work.loop : Work → Loop
  | .receive => .socketLoop
  | .send => .outgoingLoop
  | .incoming _ => .incomingLoop
  | .command => .commandLoop
  | .heartbeat => .heartbeatLoop

def Work.sections (state : State) : Work → List Mode
  | .receive => []
  | .send => []
  | .incoming message => processIncoming message
  | .command => []
  | .heartbeat => sendHeartbeat state

inductive Call
  | dial
  | nextSequence
  | register
  | send
  | await
  | closeSequence
  | cancel
  | wait
  deriving DecidableEq

/-- `nextSequence` locks the mutex, and `Connect` locks it to register the channel
for the response. -/
def Call.need : Call → Need
  | .nextSequence | .register | .closeSequence => .mutex
  | .wait => .loops
  | .dial | .send | .await | .cancel => .nothing

end Client

structure Client where
  state : Client.State := .disconnected
  system : System Client.Loop Client.Call := { position := fun _ => .exited }
  connectCalls : Nat := 0
  disconnectCalls : Nat := 0
  closed : Bool := false
  crashed : Bool := false

namespace Client

inductive Action
  | take (work : Work)
  | loop (action : LoopAction Loop)
  | connectCall
  | connectLock
  | connectDial (dialed : Bool)
  | connectSequence
  | connectRegister
  | connectSend (sent : Bool)
  | connectAwait (answered : Bool)
  | disconnectCall
  | disconnectLock
  | disconnectSequence
  | disconnectCancel
  | disconnectWait
  /-- A goroutine panics on a closed channel. -/
  | crash

def goes (c : Client) (call : Option Call) : Client :=
  { c with system := { c.system with call } }

def connectLock (c : Client) : Client :=
  if c.state = .disconnected then
    { c with state := .connecting, connectCalls := c.connectCalls - 1 }.goes (some .dial)
  else { c with connectCalls := c.connectCalls - 1 }

def connectDial (c : Client) (dialed : Bool) : Client :=
  if dialed then
    { c with system := { c.system with position := fun _ => .select } }.goes (some .nextSequence)
  else c.goes none

/-- `outgoing` takes the message, or the context is done or the time is up. -/
def connectSend (c : Client) (sent : Bool) : Client :=
  if c.closed then { c with crashed := true }
  else if sent then c.goes (some .await)
  else c.goes none

def connectAwait (c : Client) (answered : Bool) : Client :=
  if answered then { c with state := .connected }.goes none else c.goes none

def disconnectLock (c : Client) : Client :=
  if c.state = .disconnected then { c with disconnectCalls := c.disconnectCalls - 1 }
  else
    { c with state := .disconnecting, disconnectCalls := c.disconnectCalls - 1 }.goes
      (some .closeSequence)

def disconnectCancel (c : Client) : Client :=
  { c with system := { c.system with done := true } }.goes (some .wait)

def disconnectWait (c : Client) : Client :=
  if c.closed then { c with crashed := true }
  else { c with state := .disconnected, closed := true }.goes none

def act (c : Client) : Action → Option Client
  | .take work =>
    (c.system.take work.loop (work.sections c.state)).map fun system => { c with system }
  | .loop action => (c.system.loopStep action).map fun system => { c with system }
  | .connectCall => some { c with connectCalls := c.connectCalls + 1 }
  | .connectLock =>
    if 0 < c.connectCalls ∧ c.system.Admits .write then some c.connectLock else none
  | .connectDial dialed =>
    if c.system.call = some .dial then some (c.connectDial dialed) else none
  | .connectSequence =>
    if c.system.call = some .nextSequence ∧ c.system.Admits .write then
      some (c.goes (some .register))
    else none
  | .connectRegister =>
    if c.system.call = some .register ∧ c.system.Admits .write then some (c.goes (some .send))
    else none
  | .connectSend sent =>
    if c.system.call = some .send then some (c.connectSend sent) else none
  | .connectAwait answered =>
    if c.system.call = some .await then some (c.connectAwait answered) else none
  | .disconnectCall => some { c with disconnectCalls := c.disconnectCalls + 1 }
  | .disconnectLock =>
    if 0 < c.disconnectCalls ∧ c.system.Admits .write then some c.disconnectLock else none
  | .disconnectSequence =>
    if c.system.call = some .closeSequence ∧ c.system.Admits .write then
      some (c.goes (some .cancel))
    else none
  | .disconnectCancel =>
    if c.system.call = some .cancel then some c.disconnectCancel else none
  | .disconnectWait =>
    if c.system.call = some .wait ∧ c.system.Joined then some c.disconnectWait else none
  | .crash =>
    if c.closed ∧ ¬ c.system.Joined then some { c with crashed := true } else none

def step (c : Client) (action : Action) : Option Client :=
  if c.crashed then none else c.act action

/-- `Connect` or `Disconnect` has the mutex and waits for it, or for a goroutine
that needs it. -/
def Blocked (c : Client) : Prop :=
  c.system.Blocked Call.need

/-- The broker cannot be dialled, and there is nothing to disconnect. -/
def Clear (c : Client) : Action → Prop
  | .connectDial dialed => dialed = false
  | .disconnectLock => c.state = .disconnected
  | .take _ | .loop _ | .connectCall | .connectLock | .connectSequence | .connectRegister
  | .connectSend _ | .connectAwait _ | .disconnectCall | .disconnectSequence | .disconnectCancel
  | .disconnectWait | .crash => True

def Early (c : Client) : Prop :=
  ∀ call, c.system.call = some call → call = .dial

variable {c c' : Client} {action : Action}

theorem Early.not_blocked (hc : c.Early) : ¬ c.Blocked := by
  rintro ⟨call, hcall, hneed⟩
  rw [hc call hcall] at hneed
  rcases hneed with hmutex | ⟨hloops, -⟩
  · cases hmutex
  · cases hloops

theorem Early.of_call_eq (hc : c.Early) (hcall : c'.system.call = c.system.call) : c'.Early := by
  intro call hcall'
  rw [hcall] at hcall'
  exact hc call hcall'

theorem early_of_none (hcall : c.system.call = none) : c.Early := by
  intro call hsome
  rw [hcall] at hsome
  cases hsome

theorem blocked_of_need {call : Call} (hcall : c.system.call = some call)
    (hneed : call.need = .mutex) : c.Blocked :=
  ⟨call, hcall, Or.inl hneed⟩

theorem early_connectLock (hcall : c.system.call = none) : c.connectLock.Early := by
  unfold connectLock
  split
  · intro call hdial
    exact (Option.some.inj hdial).symm
  · exact early_of_none hcall

theorem act_cases (hc : c.Early) (hact : c.act action = some c') :
    (c'.Early ∧ c.Clear action) ∨ (c'.Blocked ∧ ¬ c.Clear action) := by
  cases action with
  | take work =>
    obtain ⟨system, htake, rfl⟩ := Option.map_eq_some_iff.mp hact
    exact Or.inl ⟨hc.of_call_eq (System.call_take htake), trivial⟩
  | loop action =>
    obtain ⟨system, hloop, rfl⟩ := Option.map_eq_some_iff.mp hact
    exact Or.inl ⟨hc.of_call_eq (System.call_loopStep hloop), trivial⟩
  | connectCall | disconnectCall =>
    cases hact
    exact Or.inl ⟨hc, trivial⟩
  | connectLock =>
    obtain ⟨⟨-, hadmits⟩, ⟨⟩⟩ := Option.ite_none_right_eq_some.mp hact
    exact Or.inl ⟨early_connectLock hadmits.call_eq, trivial⟩
  | connectDial dialed =>
    obtain ⟨-, ⟨⟩⟩ := Option.ite_none_right_eq_some.mp hact
    cases dialed with
    | false => exact Or.inl ⟨early_of_none rfl, rfl⟩
    | true => exact Or.inr ⟨blocked_of_need rfl rfl, nofun⟩
  | disconnectLock =>
    obtain ⟨⟨-, hadmits⟩, ⟨⟩⟩ := Option.ite_none_right_eq_some.mp hact
    unfold disconnectLock
    split
    · next hstate => exact Or.inl ⟨early_of_none hadmits.call_eq, hstate⟩
    · next hstate => exact Or.inr ⟨blocked_of_need rfl rfl, hstate⟩
  | connectSequence | connectRegister | disconnectSequence | disconnectWait =>
    cases hc _ (Option.ite_none_right_eq_some.mp hact).1.1
  | connectSend | connectAwait | disconnectCancel =>
    cases hc _ (Option.ite_none_right_eq_some.mp hact).1
  | crash =>
    obtain ⟨-, ⟨⟩⟩ := Option.ite_none_right_eq_some.mp hact
    exact Or.inl ⟨hc, trivial⟩

theorem step_cases (hc : c.Early) (hstep : c.step action = some c') :
    (c'.Early ∧ c.Clear action) ∨ (c'.Blocked ∧ ¬ c.Clear action) :=
  act_cases hc (Option.ite_none_left_eq_some.mp hstep).2

end Client

/-- In a run of the broker `Stop` is never blocked if and only if no goroutine
needs the mutex while `Stop` waits.  In a run of the client `Connect` and
`Disconnect` are never blocked if and only if each `Connect` fails to dial and each
`Disconnect` has nothing to disconnect. -/
theorem lifecycle_unblocked_iff {brokerActions : List Broker.Action} {b : Broker}
    {clientActions : List Client.Action} {c : Client}
    (hbroker : run Broker.step {} brokerActions = some b)
    (hclient : run Client.step {} clientActions = some c) :
    (Always Broker.step (fun b => ¬ b.Blocked) {} brokerActions ↔
        Throughout Broker.step Broker.Clear {} brokerActions) ∧
      (Always Client.step (fun c => ¬ c.Blocked) {} clientActions ↔
        Throughout Client.step Client.Clear {} clientActions) := by
  constructor
  · apply always_iff_throughout (J := fun b : Broker => b.system.Exclusive) _ _
      (System.exclusive_of_call_eq rfl) (System.not_blocked_of_call_eq rfl) hbroker
    · exact fun b action b' hb _ hstep =>
        Broker.exclusive_act hb (Option.ite_none_left_eq_some.mp hstep).2
    · exact fun b action b' hexclusive hb hstep =>
        Broker.not_blocked_act_iff hexclusive hb (Option.ite_none_left_eq_some.mp hstep).2
  · have hstart : Client.Early {} := Client.early_of_none rfl
    apply always_iff_throughout (J := Client.Early) _ _ hstart hstart.not_blocked hclient
    · intro c action c' hc hfree hstep
      rcases Client.step_cases hc hstep with ⟨hearly, -⟩ | ⟨hblocked, -⟩
      · exact hearly
      · exact absurd hblocked hfree
    · intro c action c' hc _ hstep
      rcases Client.step_cases hc hstep with ⟨hearly, hclear⟩ | ⟨hblocked, hnot⟩
      · exact iff_of_true hearly.not_blocked hclear
      · exact iff_of_false (fun hfree => hfree hblocked) hnot

section Example

def quietStop : List Broker.Action :=
  [.start true, .stopCall, .stopLock, .stopCancel]

theorem quietStop_ends_iff :
    ∃ b, run Broker.step {} quietStop = some b ∧
      ((∃ actions t, run Broker.step b (actions ++ [.stopWait]) = some t) ↔ ¬ b.Blocked) :=
  ⟨_, rfl, Broker.exists_stopWait_iff (fun _ loop => by cases loop <;> rfl) rfl rfl rfl⟩

theorem quietStop_unblocked_iff :
    (∃ b, run Broker.step {} quietStop = some b ∧ b.system.call = some .wait) ∧
      (Always Broker.step (fun b => ¬ b.Blocked) {} quietStop ↔
        Throughout Broker.step Broker.Clear {} quietStop) ∧
      (Always Client.step (fun c => ¬ c.Blocked) {} [.connectCall, .connectLock] ↔
        Throughout Client.step Client.Clear {} [.connectCall, .connectLock]) :=
  ⟨⟨_, rfl, rfl⟩, lifecycle_unblocked_iff rfl rfl⟩

def busyStop : List Broker.Action :=
  [.start true, .take (.message (some .streamCancel) ⟨true, false, false⟩), .stopCall, .stopLock,
    .stopCancel]

theorem busyStop_and_connect_blocked :
    (∃ b, run Broker.step {} busyStop = some b ∧ b.Blocked) ∧
      (∃ c, run Client.step {} [.connectCall, .connectLock, .connectDial true] = some c ∧
        c.Blocked) ∧
      ∃ c, run Client.step {} [.connectCall, .connectLock, .connectDial false, .disconnectCall,
          .disconnectLock] = some c ∧ c.Blocked := by
  refine ⟨⟨_, rfl, ?_⟩, ⟨_, rfl, ?_⟩, _, rfl, ?_⟩
  · exact Broker.blocked_iff.mpr ⟨rfl, .messageLoop, by decide +kernel⟩
  · exact Client.blocked_of_need rfl rfl
  · exact Client.blocked_of_need rfl rfl

end Example

end Zmq4.MalamuteLifecycle
