import Mathlib.Logic.Function.Basic
import Mathlib.Tactic.SplitIfs
import Zmq4.ActionRuns

namespace Zmq4.CommandCallers

open ActionRuns

inductive Component
  | serviceManager
  | streamManager
  | mailboxManager
  | creditController
  | broker
  | producer
  | consumer
  | tower
  | group
  | groupManager
  | node
  | discoveryEngine
  | beacon

inductive Name
  | registerWorker | unregisterWorker | removeClient | getService | getServices | restoreCredit
  | subscribe | unsubscribe | getStream | getStreams
  | receive | create | getMailbox | getMailboxes | getMessageCount
  | getClientCredit | setWindowSize | getStatistics | getClients
  | flush | getTopics | getSubscriptions | registerNode | unregisterNode | getNodes
  | addMember | removeMember
  | getGroup | createGroup | deleteGroup | listGroups | joinGroup | leaveGroup | sendToGroup
  | setName | setHeader | join | leave | whisper | shout
  | discoverPeer | setBeaconPort | getPeerCount | setport
  deriving DecidableEq

namespace Component

/-- The capacity of the channel `commands`. -/
def capacity : Component → Nat
  | .serviceManager | .streamManager | .mailboxManager | .broker => 1000
  | .creditController | .producer | .consumer | .tower => 100
  | .groupManager | .node | .discoveryEngine => 100
  | .group => 50
  | .beacon => 10

/-- The cases of `handleCommand`.  Each of them sends a reply. -/
def cases : Component → List Name
  | .serviceManager =>
    [.registerWorker, .unregisterWorker, .removeClient, .getService, .getServices]
  | .streamManager => [.subscribe, .unsubscribe, .removeClient, .getStream, .getStreams]
  | .mailboxManager => [.receive, .create, .removeClient, .getMailbox, .getMailboxes]
  | .creditController => [.getClientCredit, .setWindowSize, .getStatistics, .removeClient]
  | .broker => [.getStatistics, .getClients]
  | .producer => [.flush, .getTopics]
  | .consumer => [.subscribe, .unsubscribe, .getSubscriptions]
  | .tower => [.registerNode, .unregisterNode, .getNodes, .getTopics]
  | .group => [.addMember, .removeMember]
  | .groupManager =>
    [.getGroup, .createGroup, .deleteGroup, .listGroups, .joinGroup, .leaveGroup, .sendToGroup]
  | .node => [.setName, .setHeader, .join, .leave, .whisper, .shout]
  | .discoveryEngine => [.discoverPeer, .setBeaconPort, .getPeerCount]
  | .beacon => [.setport]

/-- The commands that the methods send. -/
def sends : Component → List Name
  | .serviceManager => cases .serviceManager ++ [.restoreCredit]
  | .streamManager => cases .streamManager ++ [.restoreCredit]
  | .mailboxManager => cases .mailboxManager ++ [.getMessageCount]
  | .producer => [.flush]
  | .consumer => [.subscribe, .unsubscribe]
  | component => component.cases

end Component

inductive Caller
  | idle
  | waiting
  | panicked
  deriving DecidableEq

structure Command (ι : Type) where
  caller : ι
  name : Name
  deriving DecidableEq

inductive Loop (ι : Type)
  | select
  | handling (command : Command ι)
  | ended
  deriving DecidableEq

structure State (ι : Type) where
  commands : List (Command ι) := []
  callers : ι → Caller := fun _ => .idle
  loop : Loop ι := .select
  cancelled : Bool := false
  closed : Bool := false

inductive Action (ι : Type)
  /-- The `select` of a call takes its send. -/
  | send (command : Command ι)
  /-- It takes the case of the context, and the call returns. -/
  | refuse (caller : ι)
  | take
  | handled
  | exit
  | cancel
  | close

namespace State

variable {ι : Type}

def Served (s : State ι) : Prop :=
  (s.loop = .ended → ∀ caller, s.callers caller ≠ .waiting) ∧
    ∀ caller, s.callers caller ≠ .panicked

/-- Commands have a case and are sent before `Stop`, and `Stop` comes when the channel is
empty. -/
def Scheduled (component : Component) (s : State ι) : Action ι → Prop
  | .send command => s.cancelled = false ∧ command.name ∈ component.cases
  | .cancel => s.commands = []
  | .refuse _ | .take | .handled | .exit | .close => True

/-- The commands that have been sent and not handled. -/
def pending (s : State ι) : List (Command ι) :=
  match s.loop with
  | .handling command => command :: s.commands
  | .select | .ended => s.commands

/-- Who waits has a pending command that will be answered, and after `Stop` the channel is
empty. -/
structure Attended (component : Component) (s : State ι) : Prop where
  waits : ∀ caller, s.callers caller = .waiting → ∃ command ∈ s.pending, command.caller = caller
  known : ∀ command ∈ s.pending, command.name ∈ component.cases
  drained : s.cancelled = true → s.commands = []
  ended : s.loop = .ended → s.cancelled = true
  closed : s.closed = true → s.cancelled = true
  calm : ∀ caller, s.callers caller ≠ .panicked

theorem Attended.served {component : Component} {s : State ι} (hs : s.Attended component) :
    s.Served := by
  refine ⟨fun hended caller hwaiting => ?_, hs.calm⟩
  obtain ⟨command, hcommand, -⟩ := hs.waits caller hwaiting
  rw [pending, hended] at hcommand
  rw [hs.drained (hs.ended hended)] at hcommand
  cases hcommand

variable [DecidableEq ι]

def set (s : State ι) (caller : ι) (status : Caller) : State ι :=
  { s with callers := Function.update s.callers caller status }

def queue (s : State ι) (command : Command ι) : State ι :=
  { s.set command.caller .waiting with commands := s.commands ++ [command] }

/-- The loop selects between the channel and the context, and a command without a case gets
no reply.  `Stop` cancels, waits for the loop and closes the channel. -/
def step (component : Component) (s : State ι) : Action ι → Option (State ι)
  | .send command =>
    if s.callers command.caller ≠ .idle ∨ command.name ∉ component.sends then none
    else if s.closed then some (s.set command.caller .panicked)
    else if s.commands.length < component.capacity then
      some (s.queue command)
    else none
  | .refuse caller => if s.callers caller = .idle ∧ s.cancelled then some s else none
  | .take =>
    match s.loop, s.commands with
    | .select, command :: rest => some { s with loop := .handling command, commands := rest }
    | _, _ => none
  | .handled =>
    match s.loop with
    | .handling command =>
      some
        { if command.name ∈ component.cases then s.set command.caller .idle else s with
          loop := .select }
    | .select | .ended => none
  | .exit => if s.loop = .select ∧ s.cancelled then some { s with loop := .ended } else none
  | .cancel => some { s with cancelled := true }
  | .close => if s.loop = .ended ∧ s.closed = false then some { s with closed := true } else none

variable {component : Component} {s t : State ι} {action : Action ι}

theorem pending_queue (s : State ι) (command : Command ι) :
    (s.queue command).pending = s.pending ++ [command] := by
  simp only [pending, queue, set]
  cases s.loop with
  | select | ended => rfl
  | handling other => rfl

theorem pending_take (hstep : step component s .take = some t) :
    t.pending = s.pending ∧ t.callers = s.callers ∧ t.cancelled = s.cancelled ∧
      t.closed = s.closed ∧ t.loop ≠ .ended ∧ s.commands ≠ [] := by
  simp only [step] at hstep
  split at hstep
  · rename_i command rest hloop hcommands
    cases hstep
    simp [pending, hloop, hcommands]
  · cases hstep

theorem callers_of_set_idle {caller other : ι}
    (hwaiting : (s.set other .idle).callers caller = .waiting) :
    caller ≠ other ∧ s.callers caller = .waiting := by
  rcases eq_or_ne caller other with rfl | hne
  · cases (Function.update_self _ _ _).symm.trans hwaiting
  · exact ⟨hne, (Function.update_of_ne hne _ _).symm.trans hwaiting⟩

theorem set_ne_panicked (hs : ∀ caller, s.callers caller ≠ .panicked) (other : ι)
    (status : Caller) (hstatus : status ≠ .panicked) (caller : ι) :
    (s.set other status).callers caller ≠ .panicked := by
  simp only [set, Function.update_apply]
  split_ifs
  · exact hstatus
  · exact hs caller

theorem attended_send {command : Command ι} (hs : s.Attended component)
    (hopen : s.cancelled = false) (hknown : command.name ∈ component.cases)
    (hstep : step component s (.send command) = some t) : t.Attended component := by
  simp only [step] at hstep
  split_ifs at hstep with hidle hclosed hroom
  · rw [hs.closed hclosed] at hopen
    cases hopen
  · cases hstep
    refine ⟨?_, ?_, fun hcancelled => ?_, hs.ended, hs.closed,
      set_ne_panicked hs.calm _ _ nofun⟩
    · intro caller hwaiting
      rw [pending_queue]
      rcases eq_or_ne caller command.caller with rfl | hne
      · exact ⟨command, by simp, rfl⟩
      · obtain ⟨other, hother, hcaller⟩ :=
          hs.waits caller ((Function.update_of_ne hne _ _).symm.trans hwaiting)
        exact ⟨other, List.mem_append_left _ hother, hcaller⟩
    · rw [pending_queue]
      exact List.forall_mem_append.mpr ⟨hs.known, List.forall_mem_singleton.mpr hknown⟩
    · cases hopen.symm.trans hcancelled

theorem attended_handled (hs : s.Attended component)
    (hstep : step component s .handled = some t) : t.Attended component := by
  simp only [step] at hstep
  split at hstep
  · rename_i command hloop
    have hpending : s.pending = command :: s.commands := by rw [pending, hloop]
    obtain ⟨hknown, hrest⟩ := List.forall_mem_cons.mp (hpending ▸ hs.known)
    rw [if_pos hknown] at hstep
    cases hstep
    refine ⟨fun caller hwaiting => ?_, hrest, hs.drained, nofun, hs.closed,
      set_ne_panicked hs.calm _ _ nofun⟩
    obtain ⟨hne, hwaiting⟩ := callers_of_set_idle hwaiting
    obtain ⟨other, hother, rfl⟩ := hs.waits caller hwaiting
    rw [hpending, List.mem_cons] at hother
    exact ⟨other, hother.resolve_left fun h => hne (h ▸ rfl), rfl⟩
  · cases hstep
  · cases hstep

theorem attended_step (hs : s.Attended component) (hscheduled : s.Scheduled component action)
    (hstep : step component s action = some t) : t.Attended component := by
  cases action with
  | send command => exact attended_send hs hscheduled.1 hscheduled.2 hstep
  | refuse caller =>
    obtain ⟨-, ⟨⟩⟩ := Option.ite_none_right_eq_some.mp hstep
    exact hs
  | take =>
    obtain ⟨hpending, hcallers, hcancelled, hclosed, hloop, hsome⟩ := pending_take hstep
    refine ⟨?_, ?_, fun h => ?_, fun h => absurd h hloop, ?_, ?_⟩
    · rw [hpending, hcallers]
      exact hs.waits
    · rw [hpending]
      exact hs.known
    · exact absurd (hs.drained (hcancelled ▸ h)) hsome
    · rw [hclosed, hcancelled]
      exact hs.closed
    · rw [hcallers]
      exact hs.calm
  | handled => exact attended_handled hs hstep
  | exit =>
    obtain ⟨⟨hloop, hcancelled⟩, ⟨⟩⟩ := Option.ite_none_right_eq_some.mp hstep
    have hpending : s.pending = s.commands := by rw [pending, hloop]
    exact ⟨hpending ▸ hs.waits, hpending ▸ hs.known, hs.drained, fun _ => hcancelled, hs.closed,
      hs.calm⟩
  | cancel =>
    cases hstep
    exact ⟨hs.waits, hs.known, fun _ => hscheduled, fun _ => rfl, fun _ => rfl, hs.calm⟩
  | close =>
    obtain ⟨⟨hloop, -⟩, ⟨⟩⟩ := Option.ite_none_right_eq_some.mp hstep
    exact ⟨hs.waits, hs.known, hs.drained, hs.ended, fun _ => hs.ended hloop, hs.calm⟩

/-- As long as calls send commands that have a case, before `Stop`, and `Stop` comes when
the channel is empty, no call is left waiting by the loop and none panics. -/
theorem always_served_of_scheduled (component : Component) {actions : List (Action ι)}
    (hscheduled : Throughout (step component) (Scheduled component) {} actions) :
    Always (step component) Served {} actions := by
  have hstart : ({} : State ι).Attended component :=
    ⟨nofun, nofun, fun _ => rfl, nofun, nofun, fun _ => nofun⟩
  refine always_of_kept ?_ (fun _ hs => hs.served) hstart hscheduled
  exact fun _ _ _ hs hK hstep => attended_step hs hK hstep

def stoppedIdle : List (Action Unit) :=
  [.send ⟨(), .joinGroup⟩, .take, .cancel, .handled, .exit, .close, .refuse ()]

theorem always_served_stoppedIdle :
    (∃ s, run (step .groupManager) {} stoppedIdle = some s ∧ s.closed = true) ∧
      Always (step .groupManager) Served {} stoppedIdle := by
  refine ⟨⟨_, rfl, rfl⟩, always_served_of_scheduled .groupManager ?_⟩
  simp [Throughout, stoppedIdle, step, Scheduled, set, queue, Component.capacity,
    Component.cases, Component.sends]

/-- The loop takes the case of the context while a command is in the channel, and a call
comes after the channel was closed. -/
theorem not_served_stopped :
    (∃ s, run (step .serviceManager) {}
        ([.send ⟨(), .registerWorker⟩, .cancel, .exit] : List (Action Unit)) = some s ∧
      s.loop = .ended ∧ s.callers () = .waiting) ∧
    ∃ s, run (step .groupManager) {}
        ([.cancel, .exit, .close, .send ⟨(), .joinGroup⟩] : List (Action Unit)) = some s ∧
      s.callers () = .panicked :=
  ⟨⟨_, rfl, rfl, rfl⟩, _, rfl, rfl⟩

end State

end Zmq4.CommandCallers
