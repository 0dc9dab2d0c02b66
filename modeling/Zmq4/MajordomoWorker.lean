import Zmq4.CallScripts
import Zmq4.MajordomoMessages

namespace Zmq4.MajordomoWorker

open ByteCodec CallScripts DuplexProgram MajordomoMessages

section Manager

structure WorkerOptions where
  heartbeatLiveness : Int
  heartbeatInterval : Int

inductive StateUpdate where
  | connected
  | disconnected
  | expectReply (clientAddr : Bytes)
  | replyComplete
  | setLiveness (liveness : Int)
  | decreaseLiveness
  | setHeartbeatTime (time : Int)
  | setRunning (running : Bool)
  | setSocketReady (ready : Bool)
  | setSocketClosed

inductive StatsUpdate where
  | incRequests
  | incReplies
  | incErrors
  | incReconnects

structure Stats where
  totalRequests : Nat
  totalReplies : Nat
  totalErrors : Nat
  reconnects : Nat
  connected : Bool
  running : Bool
  liveness : Int

inductive Query where
  | isConnected
  | isRunning
  | getStats
  | getExpectReply
  | getReplyTo
  | getHeartbeatTime
  | getLiveness
  | isSocketReady
  deriving DecidableEq

abbrev Query.Answer : Query → Type
  | .isConnected => Bool
  | .isRunning => Bool
  | .getStats => Stats
  | .getExpectReply => Bool
  | .getReplyTo => Bytes
  | .getHeartbeatTime => Int
  | .getLiveness => Int
  | .isSocketReady => Bool

/-- The local variables of `stateManager`; an address that is nil is empty. -/
structure Manager where
  connected : Bool
  running : Bool
  expectReply : Bool
  replyTo : Bytes
  liveness : Int
  heartbeatAt : Int
  socketReady : Bool
  totalRequests : Nat
  totalReplies : Nat
  totalErrors : Nat
  reconnects : Nat

def Manager.updateState (o : WorkerOptions) (now : Int) (m : Manager) : StateUpdate → Manager
  | .connected =>
    { m with
      connected := true
      liveness := o.heartbeatLiveness
      heartbeatAt := now + o.heartbeatInterval }
  | .disconnected =>
    { m with connected := false, socketReady := false, expectReply := false, replyTo := [] }
  | .expectReply clientAddr => { m with expectReply := true, replyTo := clientAddr }
  | .replyComplete => { m with expectReply := false, replyTo := [] }
  | .setLiveness liveness => { m with liveness := liveness }
  | .decreaseLiveness => { m with liveness := m.liveness - 1 }
  | .setHeartbeatTime time => { m with heartbeatAt := time }
  | .setRunning running => { m with running := running }
  | .setSocketReady ready => { m with socketReady := ready }
  | .setSocketClosed => { m with socketReady := false }

def Manager.updateStats (m : Manager) : StatsUpdate → Manager
  | .incRequests => { m with totalRequests := m.totalRequests + 1 }
  | .incReplies => { m with totalReplies := m.totalReplies + 1 }
  | .incErrors => { m with totalErrors := m.totalErrors + 1 }
  | .incReconnects => { m with reconnects := m.reconnects + 1 }

def Manager.stats (m : Manager) : Stats where
  totalRequests := m.totalRequests
  totalReplies := m.totalReplies
  totalErrors := m.totalErrors
  reconnects := m.reconnects
  connected := m.connected
  running := m.running
  liveness := m.liveness

def Manager.answer (m : Manager) : (q : Query) → q.Answer
  | .isConnected => m.connected
  | .isRunning => m.running
  | .getStats => m.stats
  | .getExpectReply => m.expectReply
  | .getReplyTo => m.replyTo
  | .getHeartbeatTime => m.heartbeatAt
  | .getLiveness => m.liveness
  | .isSocketReady => m.socketReady

end Manager

section Thread

structure WorkerMessage where
  command : Bytes
  clientAddr : Bytes
  body : Bytes
  deriving DecidableEq

/-- What the goroutine that processes messages does, one call at a time.  A query
is put on its channel first and answered later. -/
inductive Op where
  | updateState (update : StateUpdate)
  | updateStats (update : StatsUpdate)
  | sendQuery (q : Query)
  | awaitResponse (q : Query)
  | socket
  | getSocketManagerID
  | validateSecurityReadiness
  | handler (request : Message)
  | refuse (request : Message)
  | queue (msg : WorkerMessage)

abbrev Op.Answer : Op → Type
  | .updateState _ => Unit
  | .updateStats _ => Unit
  | .sendQuery _ => Bool
  | .awaitResponse q => Option q.Answer
  | .socket => Bool
  | .getSocketManagerID => Nat
  | .validateSecurityReadiness => Except Err Unit
  | .handler _ => Except Bytes Bytes
  | .refuse _ => Unit
  | .queue _ => Bool

abbrev Thread := Script Op Op.Answer

abbrev Op.call (op : Op) : Thread op.Answer :=
  ask op

def updateState (update : StateUpdate) : Thread Unit :=
  (Op.updateState update).call

def updateStats (update : StatsUpdate) : Thread Unit :=
  (Op.updateStats update).call

def queryState (q : Query) : Thread (Option q.Answer) := do
  let sent ← (Op.sendQuery q).call
  if sent then (Op.awaitResponse q).call else return none

def validateConnectionState : Thread (Except Err Unit) := do
  let connected ← queryState .isConnected
  if connected ≠ some true then return .error (.text "worker not connected to broker")
  let socketReady ← queryState .isSocketReady
  if socketReady ≠ some true then return .error (.text "socket not ready for operations")
  let socket ← Op.socket.call
  if !socket then return .error (.text "socket is nil")
  let currentManagerID ← Op.getSocketManagerID.call
  if currentManagerID = 0 then return .error (.text "socket manager not initialized")
  let security ← Op.validateSecurityReadiness.call
  if let .error err := security then return .error (.wrap "security validation failed" err)
  let liveness ← queryState .getLiveness
  if liveness.any (· ≤ 0) then return .error (.text "broker liveness exhausted")
  return .ok ()

def sendToBroker (command clientAddr body : Bytes) : Thread Unit := do
  let socketReady ← queryState .isSocketReady
  if socketReady ≠ some true then updateState .decreaseLiveness
  else
    let queued ← (Op.queue ⟨command, clientAddr, body⟩).call
    if queued then return () else updateState .decreaseLiveness

def sendReply (reply : Bytes) : Thread Unit := do
  let expectReply ← queryState .getExpectReply
  if expectReply ≠ some true then return ()
  else
    match ← queryState .getReplyTo with
    | none => return ()
    | some replyAddr =>
      sendToBroker workerReply replyAddr reply
      updateState .replyComplete
      updateStats .incReplies

def processRequest (request : Message) : Thread Unit := do
  let expectReply ← queryState .getExpectReply
  if expectReply = some true then (Op.refuse request).call
  else
    updateState (.expectReply request.clientAddr)
    updateStats .incRequests
    let result ← (Op.handler request).call
    match result with
    | .error err =>
      updateStats .incErrors
      sendReply (ascii "Error: " ++ err)
    | .ok reply => sendReply reply

def disconnect : Thread Unit := do
  let connected ← queryState .isConnected
  if connected ≠ some true then return ()
  else
    updateState .setSocketClosed
    updateState .disconnected

def processMessage (o : WorkerOptions) (frames : List Bytes) : Thread Unit := do
  updateState (.setLiveness o.heartbeatLiveness)
  match parseWorkerMessage frames with
  | .error _ => return ()
  | .ok msg =>
    if msg.command = workerRequest then processRequest msg
    else if msg.command = workerHeartbeat then return ()
    else if msg.command = workerDisconnect then disconnect
    else return ()

def sendHeartbeat (o : WorkerOptions) (now : Int) : Thread Unit := do
  let connected ← queryState .isConnected
  if connected ≠ some true then return ()
  else
    sendToBroker workerHeartbeat [] []
    updateState (.setHeartbeatTime (now + o.heartbeatInterval))

def healthCheckInterval : Nat := 50

/-- `processMessages` on a message.  The code ends with the health-check counter
if the loop goes on, and with nothing if it is left. -/
def onMessage (o : WorkerOptions) (healthCheckCounter : Nat) (frames : List Bytes) :
    Thread (Option Nat) := do
  match ← validateConnectionState with
  | .error _ =>
    disconnect
    return none
  | .ok () =>
    processMessage o frames
    return some healthCheckCounter

def onError : Thread (Option Nat) := do
  disconnect
  return none

def checkHealth (healthCheckCounter : Nat) : Thread (Except Err Nat) :=
  if healthCheckCounter + 1 ≥ healthCheckInterval then do
    match ← validateConnectionState with
    | .error err => return .error err
    | .ok () => return .ok 0
  else return .ok (healthCheckCounter + 1)

def checkHeartbeat (o : WorkerOptions) (now : Int) : Thread Unit := do
  let heartbeatTime ← queryState .getHeartbeatTime
  if heartbeatTime.any (· < now) then sendHeartbeat o now else return ()

def checkBroker (healthCheckCounter : Nat) : Thread (Option Nat) := do
  let liveness ← queryState .getLiveness
  if liveness.any (· ≤ 0) then
    disconnect
    return none
  else return some healthCheckCounter

def onTick (o : WorkerOptions) (healthCheckCounter : Nat) (now : Int) :
    Thread (Option Nat) := do
  match ← checkHealth healthCheckCounter with
  | .error _ =>
    disconnect
    return none
  | .ok counter =>
    checkHeartbeat o now
    checkBroker counter

end Thread

section System

/-- A query on its channel; `listening` says whether its sender still waits. -/
structure QueryRequest where
  queryType : Query
  listening : Bool

inductive Event where
  | handled (request : Message)
  | refused (request : Message)
  | replied (clientAddr body : Bytes)
  deriving DecidableEq

structure Worker where
  manager : Manager
  stateUpdateCh : List StateUpdate
  statsUpdateCh : List StatsUpdate
  queryCh : List QueryRequest
  sendCh : List WorkerMessage
  socket : Bool
  socketManagerID : Nat
  securityReadiness : Except Err Unit
  thread : Thread (Option Nat)
  history : List Event

def stateUpdateCap : Nat := 10
def statsUpdateCap : Nat := 10
def queryCap : Nat := 5
def sendCap : Nat := 10

inductive Action where
  | receive (frames : List Bytes)
  | socketError
  | tick (now : Int)
  | work
  | timeout
  | serveUpdate (now : Int)
  | serveStats
  | serveQuery
  | send (succeeds : Bool)

def Worker.pushUpdate (w : Worker) (update : StateUpdate) : Worker :=
  if w.stateUpdateCh.length < stateUpdateCap then
    { w with stateUpdateCh := w.stateUpdateCh ++ [update] }
  else w

def Worker.record (w : Worker) (event : Event) : Worker :=
  { w with history := w.history ++ [event] }

def Worker.pushMessage (w : Worker) (msg : WorkerMessage) : Worker :=
  let w := { w with sendCh := w.sendCh ++ [msg] }
  if msg.command = workerReply then w.record (.replied msg.clientAddr msg.body) else w

variable (handler : Bytes → Except Bytes Bytes) (o : WorkerOptions)

def perform (w : Worker) : (op : Op) → Option (Worker × op.Answer)
  | .updateState update => some (w.pushUpdate update, ())
  | .updateStats update =>
    if w.statsUpdateCh.length < statsUpdateCap then
      some ({ w with statsUpdateCh := w.statsUpdateCh ++ [update] }, ())
    else some (w, ())
  | .sendQuery q =>
    if w.queryCh.length < queryCap then
      some ({ w with queryCh := w.queryCh ++ [⟨q, true⟩] }, true)
    else some (w, false)
  | .awaitResponse _ => none
  | .socket => some (w, w.socket)
  | .getSocketManagerID => some (w, w.socketManagerID)
  | .validateSecurityReadiness => some (w, w.securityReadiness)
  | .handler request => some (w.record (.handled request), handler request.body)
  | .refuse request => some (w.record (.refused request), ())
  | .queue msg =>
    if w.sendCh.length < sendCap then some (w.pushMessage msg, true) else some (w, false)

def work (w : Worker) : Option Worker :=
  match w.thread with
  | .done _ => none
  | .call op next =>
    (perform handler w op).map fun result => { result.1 with thread := next result.2 }

def begin (w : Worker) (code : Nat → Thread (Option Nat)) : Option Worker :=
  match w.thread with
  | .done (some healthCheckCounter) => some { w with thread := code healthCheckCounter }
  | _ => none

/-- A query that has waited too long stays on its channel. -/
def timeout (w : Worker) : Option Worker :=
  match w.thread with
  | .call (.awaitResponse _) next =>
    some { w with
      thread := next none
      queryCh := w.queryCh.map fun request => { request with listening := false } }
  | _ => none

def serveQuery (w : Worker) : Option Worker :=
  match w.queryCh with
  | [] => none
  | ⟨_, false⟩ :: rest => some { w with queryCh := rest }
  | ⟨queryType, true⟩ :: rest =>
    match w.thread with
    | .call (.awaitResponse q) next =>
      if q = queryType then
        some { w with queryCh := rest, thread := next (some (w.manager.answer q)) }
      else none
    | _ => none

def step (w : Worker) : Action → Option Worker
  | .receive frames => begin w fun counter => onMessage o counter frames
  | .socketError => begin w fun _ => onError
  | .tick now => begin w fun counter => onTick o counter now
  | .work => work handler w
  | .timeout => timeout w
  | .serveUpdate now =>
    match w.stateUpdateCh with
    | [] => none
    | update :: rest =>
      some { w with
        manager := w.manager.updateState o now update
        stateUpdateCh := rest }
  | .serveStats =>
    match w.statsUpdateCh with
    | [] => none
    | update :: rest =>
      some { w with manager := w.manager.updateStats update, statsUpdateCh := rest }
  | .serveQuery => serveQuery w
  | .send succeeds =>
    match w.sendCh with
    | [] => none
    | _ :: rest =>
      let w := { w with sendCh := rest }
      some (if succeeds then w else w.pushUpdate .decreaseLiveness)

end System

section Flags

/-- The part of the manager's state that a reply depends on. -/
structure Flags where
  expectReply : Bool
  replyTo : Bytes
  socketReady : Bool

def Manager.flags (m : Manager) : Flags where
  expectReply := m.expectReply
  replyTo := m.replyTo
  socketReady := m.socketReady

def Flags.updateState (f : Flags) : StateUpdate → Flags
  | .disconnected => ⟨false, [], false⟩
  | .expectReply clientAddr => { f with expectReply := true, replyTo := clientAddr }
  | .replyComplete => { f with expectReply := false, replyTo := [] }
  | .setSocketReady ready => { f with socketReady := ready }
  | .setSocketClosed => { f with socketReady := false }
  | _ => f

theorem flags_updateStats (m : Manager) (update : StatsUpdate) :
    (m.updateStats update).flags = m.flags := by
  cases update <;> rfl

/-- The answer is the one that the flags give; nothing depends on the answers to
the other queries. -/
def Flags.Gives (f : Flags) : (q : Query) → Option q.Answer → Prop
  | .getExpectReply, answer => answer = some f.expectReply
  | .getReplyTo, answer => answer = some f.replyTo
  | .isSocketReady, answer => answer = some f.socketReady
  | .isConnected, answer => answer.isSome
  | .isRunning, answer => answer.isSome
  | .getStats, answer => answer.isSome
  | .getHeartbeatTime, answer => answer.isSome
  | .getLiveness, answer => answer.isSome

instance (f : Flags) (q : Query) (answer : Option q.Answer) : Decidable (f.Gives q answer) := by
  unfold Flags.Gives
  split <;> infer_instance

def Worker.settled (w : Worker) : Flags :=
  w.stateUpdateCh.foldl Flags.updateState w.manager.flags

def Op.Fits (w : Worker) : Op → Prop
  | .updateState _ => w.stateUpdateCh.length < stateUpdateCap
  | .updateStats _ => w.statsUpdateCh.length < statsUpdateCap
  | .sendQuery _ => w.queryCh.length < queryCap
  | .queue _ => w.sendCh.length < sendCap
  | _ => True

instance (w : Worker) (op : Op) : Decidable (op.Fits w) := by
  unfold Op.Fits
  split <;> infer_instance

end Flags

end Zmq4.MajordomoWorker
