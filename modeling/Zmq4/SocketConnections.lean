import Mathlib.Data.List.Nodup
import Zmq4.ActionRuns
import Zmq4.Connection

/-!
The connections of a socket, from `Accept` or `Dial` to the reaper (`core_socket.go`).

The accept loop, the calls of `Dial`, the reader loops, the reaper and `Close` take
their steps in any order.  A step is what happens between two places where another
goroutine can come in: a call into the network, a lock, or a channel.
-/

namespace Zmq4.SocketConnections

open ActionRuns DuplexProgram Connection

/-- How the reading of a connection ends: `io.ReadFull` returns an error, the length of
a frame is too large, or a frame cannot be decrypted. -/
inductive Ending
  | io (err : Err)
  | overflow
  | decrypt (err : Err)
  deriving DecidableEq

/-- Whether `checkIO` is called and calls `SetClosed`. -/
def Ending.setsClosed : Ending → Bool
  | .io err => err.isEof || err.netTimeout == some false
  | .overflow | .decrypt _ => false

/-- The reader has a list of connections and a loop for each.  REQ reads without a
loop, and PUSH has no reader. -/
def readerListens : SocketType → Bool
  | .req | .push => false
  | .pair | .pub | .sub | .rep | .dealer | .router | .pull | .xpub | .xsub => true

def hasWriter : SocketType → Bool
  | .pull => false
  | .pair | .pub | .sub | .req | .rep | .dealer | .router | .push | .xpub | .xsub => true

/-- `pubMWriter.rmConn` closes the connection, the other writers do not. -/
def writerCloses : SocketType → Bool
  | .pub | .xpub => true
  | .pair | .sub | .req | .rep | .dealer | .router | .pull | .push | .xsub => false

/-- A connection is listed until the reaper removes it, and late if it was registered
after `Close` had gone through the list. -/
inductive Stage
  | unmade
  | opening
  | opened
  | failed
  | listed
  | late
  | removed
  deriving DecidableEq

def Stage.isListed : Stage → Bool
  | .listed | .late => true
  | .unmade | .opening | .opened | .failed | .removed => false

def Stage.isRegistered (stage : Stage) : Bool :=
  stage.isListed || stage = .removed

/-- The reader loop of a connection.  It leaves because a read has failed or because
the socket has been closed. -/
inductive Loop
  | absent
  | reading
  | leaving (ending : Option Ending)
  | returned
  deriving DecidableEq

def Loop.setsClosed : Loop → Bool
  | .leaving (some ending) => ending.setsClosed
  | .absent | .reading | .leaving none | .returned => false

/-- `closed` says that the network connection has been closed, `marked` is the flag of
`SetClosed`.  The counts are of the calls of `scheduleRmConn`, all of them and those
from the heartbeat, and `ioFailed` tells of a `SetClosed` outside the reader loop. -/
structure Link where
  stage : Stage := .unmade
  closed : Bool := false
  marked : Bool := false
  handed : Nat := 0
  beats : Nat := 0
  ioFailed : Bool := false
  loop : Loop := .absent

inductive WorkerKind
  | accept
  | dial
  deriving DecidableEq

inductive Phase
  | checking
  | connecting
  | opening (conn : Nat)
  | adding (conn : Nat)
  | ended
  deriving DecidableEq

structure Worker where
  kind : WorkerKind
  phase : Phase
  deriving DecidableEq

def Worker.next (worker : Worker) : Phase :=
  match worker.kind with
  | .accept => .checking
  | .dial => .ended

inductive Listener
  | absent
  | listening
  | closed
  deriving DecidableEq

inductive ClosePhase
  | cancelled
  | walked
  deriving DecidableEq

structure Socket where
  typ : SocketType
  autoReconnect : Bool
  made : Nat := 0
  link : Nat → Link := fun _ => {}
  conns : List Nat := []
  readers : List Nat := []
  writers : List Nat := []
  closedConns : List Nat := []
  reaping : List Nat := []
  beating : Option Nat := none
  reaperStarted : Bool := false
  workers : List Worker := []
  listener : Listener := .absent
  cancelled : Bool := false
  closing : Option ClosePhase := none
  walked : Bool := false
  returned : Bool := false

/-- `check` is the accept loop's look at the context, and `connect` the return of
`Accept` or of the transport's `Dial`. -/
inductive Move
  | check
  | connect
  | connectFails (retry : Bool)
  | openFails
  | opens
  | addConn

inductive Action
  | listen
  | dial
  | work (worker : Nat) (move : Move)
  /-- A handshake or a `Send` meets an error that calls `SetClosed`. -/
  | ioFails (conn : Nat)
  /-- The heartbeat looks up a connection that has timed out, and closes it later. -/
  | heartbeatFinds (conn : Nat)
  | heartbeatTimeout
  | readFails (conn : Nat) (ending : Ending)
  | loopCancelled (conn : Nat)
  | loopReturns (conn : Nat)
  | reap
  | rmConn
  | close
  | walk
  | closeReturns

namespace Socket

def setLink (s : Socket) (conn : Nat) (link : Link) : Socket :=
  { s with link := Function.update s.link conn link }

def setPhase (s : Socket) (worker : Nat) (kind : WorkerKind) (phase : Phase) : Socket :=
  { s with workers := s.workers.set worker { kind, phase } }

/-- With automatic reconnection the caller dials again. -/
def scheduleRmConn (s : Socket) (conn : Nat) : Socket :=
  { s.setLink conn { s.link conn with handed := (s.link conn).handed + 1 } with
    closedConns := s.closedConns ++ [conn]
    workers :=
      if s.autoReconnect then s.workers ++ [{ kind := .dial, phase := .connecting }]
      else s.workers }

def setClosed (s : Socket) (conn : Nat) : Socket :=
  if (s.link conn).marked then s
  else (s.setLink conn { s.link conn with marked := true }).scheduleRmConn conn

def connected (s : Socket) : Socket :=
  { s.setLink s.made { stage := .opening } with made := s.made + 1 }

/-- `Dial` starts the reaper before it registers the connection. -/
def opened (s : Socket) (kind : WorkerKind) (conn : Nat) : Socket :=
  { s.setLink conn { s.link conn with stage := .opened } with
    reaperStarted := s.reaperStarted || kind = .dial }

def addConn (s : Socket) (conn : Nat) : Socket :=
  { s.setLink conn { s.link conn with
      stage := if s.walked then .late else .listed
      loop := if readerListens s.typ then .reading else .absent } with
    conns := s.conns ++ [conn]
    writers := if hasWriter s.typ then s.writers ++ [conn] else s.writers
    readers := if readerListens s.typ then s.readers ++ [conn] else s.readers }

def rmConn (s : Socket) (conn : Nat) : Socket :=
  if conn ∈ s.conns then
    { s.setLink conn { s.link conn with
        stage := .removed
        closed := (s.link conn).closed || writerCloses s.typ } with
      conns := s.conns.erase conn
      readers := s.readers.erase conn
      writers := s.writers.erase conn }
  else s

def readFails (s : Socket) (conn : Nat) (ending : Ending) : Socket :=
  let left := s.setLink conn { s.link conn with loop := .leaving (some ending) }
  if ending.setsClosed then left.setClosed conn else left

def loopReturns (s : Socket) (conn : Nat) : Socket :=
  { s.setLink conn { s.link conn with loop := .returned, closed := true } with
    readers := s.readers.erase conn }

def walk (s : Socket) : Socket :=
  { s with
    link := fun conn =>
      if conn ∈ s.conns then { s.link conn with closed := true } else s.link conn
    closing := some .walked
    walked := true }

def work (s : Socket) (worker : Nat) (w : Worker) : Move → Option Socket
  | .check =>
    if w.phase = .checking then
      some (s.setPhase worker w.kind (if s.cancelled then .ended else .connecting))
    else none
  | .connect =>
    if w.phase = .connecting ∧ (w.kind = .accept → s.listener = .listening) then
      some (s.connected.setPhase worker w.kind (.opening s.made))
    else none
  | .connectFails retry =>
    if w.phase = .connecting then
      some (s.setPhase worker w.kind
        (if w.kind = .dial ∧ retry = true ∧ s.cancelled = false then .connecting else w.next))
    else none
  | .openFails =>
    match w.phase with
    | .opening conn =>
      if (s.link conn).stage = .opening then
        some ((s.setLink conn { s.link conn with stage := .failed }).setPhase worker w.kind
          w.next)
      else none
    | _ => none
  | .opens =>
    match w.phase with
    | .opening conn =>
      -- a handshake that has met an I/O error fails
      if (s.link conn).stage = .opening ∧ (s.link conn).marked = false then
        some ((s.opened w.kind conn).setPhase worker w.kind (.adding conn))
      else none
    | _ => none
  | .addConn =>
    match w.phase with
    | .adding conn =>
      if (s.link conn).stage = .opened then
        some ((s.addConn conn).setPhase worker w.kind w.next)
      else none
    | _ => none

def step (s : Socket) : Action → Option Socket
  | .listen =>
    if s.listener = .absent then
      some { s with
        listener := .listening
        reaperStarted := true
        workers := s.workers ++ [{ kind := .accept, phase := .checking }] }
    else none
  | .dial => some { s with workers := s.workers ++ [{ kind := .dial, phase := .connecting }] }
  | .work worker move => s.workers[worker]?.bind fun w => s.work worker w move
  | .ioFails conn =>
    if (s.link conn).stage = .opening ∨ (s.link conn).stage.isRegistered = true then
      some ((s.setLink conn { s.link conn with ioFailed := true }).setClosed conn)
    else none
  | .heartbeatFinds conn =>
    if s.beating = none ∧ conn ∈ s.conns then some { s with beating := some conn } else none
  | .heartbeatTimeout =>
    s.beating.map fun conn =>
      { s.setLink conn { s.link conn with
          closed := true
          beats := (s.link conn).beats + 1 } with beating := none }.scheduleRmConn conn
  | .readFails conn ending =>
    if (s.link conn).loop = .reading then some (s.readFails conn ending) else none
  | .loopCancelled conn =>
    if (s.link conn).loop = .reading ∧ s.cancelled = true then
      some (s.setLink conn { s.link conn with loop := .leaving none })
    else none
  | .loopReturns conn =>
    match (s.link conn).loop with
    | .leaving _ => some (s.loopReturns conn)
    | _ => none
  | .reap =>
    if s.reaperStarted = true ∧ s.cancelled = false ∧ s.closedConns ≠ [] ∧ s.reaping = [] then
      some { s with reaping := s.closedConns, closedConns := [] }
    else none
  | .rmConn =>
    match s.reaping with
    | [] => none
    | conn :: rest => some ({ s with reaping := rest }.rmConn conn)
  | .close =>
    if s.closing = none then some { s with cancelled := true, closing := some .cancelled }
    else none
  | .walk => if s.closing = some .cancelled then some s.walk else none
  | .closeReturns =>
    if s.closing = some .walked then
      some { s with
        closing := none
        returned := true
        listener := if s.listener = .listening then .closed else s.listener }
    else none

end Socket

/-- What holds of a connection whatever the rest of the socket does. -/
structure Link.Ok (link : Link) : Prop where
  counted : link.handed = (if link.marked then 1 else 0) + link.beats
  marks : link.loop ≠ .returned → link.marked = (link.ioFailed || link.loop.setsClosed)
  unregistered : link.stage.isRegistered = false →
    link.loop = .absent ∧ link.beats = 0 ∧ link.closed = false
  opened : link.stage = .opened → link.marked = false

variable {link : Link} {conns held : List Nat}

theorem Link.Ok.absent (hlink : link.Ok) (hstage : link.stage.isRegistered = false) :
    link.marked = link.ioFailed := by
  have habsent := (hlink.unregistered hstage).1
  rw [hlink.marks (by simp [habsent]), habsent]
  exact Bool.or_false _

theorem Link.Ok.registered_of_loop (hlink : link.Ok) (hloop : link.loop ≠ .absent) :
    link.stage.isRegistered = true := by
  by_contra hstage
  exact hloop (hlink.unregistered (Bool.eq_false_of_not_eq_true hstage)).1

variable {loop : Loop}

theorem Link.Ok.setClosed (hlink : link.Ok) (hstage : link.stage ≠ .opened) {ioFailed : Bool}
    (hmarks : loop ≠ .returned → (ioFailed || loop.setsClosed) = true)
    (hloop : link.stage.isRegistered = false → loop = .absent) :
    Link.Ok { link with
      ioFailed, loop
      marked := true
      handed := if link.marked then link.handed else link.handed + 1 } where
  counted := by
    change (if link.marked then link.handed else link.handed + 1) = 1 + link.beats
    rw [hlink.counted]
    split <;> omega
  marks hne := (hmarks hne).symm
  unregistered hnot := ⟨hloop hnot, (hlink.unregistered hnot).2⟩
  opened hopened := absurd hopened hstage

theorem Link.Ok.leave (hlink : link.Ok) (hreading : link.loop = .reading)
    (hloop : loop.setsClosed = false) : Link.Ok { link with loop } where
  counted := hlink.counted
  marks _ := by
    rw [hlink.marks (by simp [hreading]), hreading, hloop]
    rfl
  unregistered hnot := by
    have hregistered := hlink.registered_of_loop (by simp [hreading])
    exact absurd hnot (by simp [hregistered])
  opened := hlink.opened

theorem Link.Ok.register (hlink : link.Ok) (hopened : link.stage = .opened) {stage : Stage}
    (hstage : stage.isListed = true) (hloop : loop.setsClosed = false) :
    Link.Ok { link with stage, loop } where
  counted := hlink.counted
  marks _ := by
    have hunregistered : link.stage.isRegistered = false := by rw [hopened]; rfl
    rw [hlink.absent hunregistered, hloop]
    exact (Bool.or_false _).symm
  unregistered hnot := by simp [Stage.isRegistered, hstage] at hnot
  opened hopen := by
    change stage = .opened at hopen
    simp [hopen, Stage.isListed] at hstage

theorem Link.Ok.returned (hlink : link.Ok) (hloop : link.loop ≠ .absent) :
    Link.Ok { link with loop := .returned, closed := true } where
  counted := hlink.counted
  marks hne := absurd rfl hne
  unregistered hnot := absurd hnot (by simp [hlink.registered_of_loop hloop])
  opened := hlink.opened

theorem Link.Ok.shut (hlink : link.Ok) (hstage : link.stage.isRegistered = true) :
    Link.Ok { link with closed := true } where
  counted := hlink.counted
  marks := hlink.marks
  unregistered hnot := absurd hnot (by simp [hstage])
  opened := hlink.opened

theorem Link.Ok.beat (hlink : link.Ok) (hstage : link.stage.isRegistered = true) :
    Link.Ok { link with
      closed := true
      beats := link.beats + 1
      handed := link.handed + 1 } where
  counted := by
    change link.handed + 1 = (if link.marked then 1 else 0) + (link.beats + 1)
    rw [hlink.counted]
    omega
  marks := hlink.marks
  unregistered hnot := absurd hnot (by simp [hstage])
  opened := hlink.opened

theorem isRegistered_of_isListed {stage : Stage} (hstage : stage.isListed = true) :
    stage.isRegistered = true := by
  simp [Stage.isRegistered, hstage]

/-- The list of a reader or a writer holds connections of the socket, each once. -/
structure Within (conns held : List Nat) : Prop where
  nodup : held.Nodup
  subset : ∀ c ∈ held, c ∈ conns

theorem Within.concat {conn : Nat} (hheld : Within conns held) (hnew : conn ∉ conns)
    (held' : List Nat) (hheld' : held' = held ++ [conn] ∨ held' = held) :
    Within (conns ++ [conn]) held' := by
  rcases hheld' with rfl | rfl
  · have habsent : conn ∉ held := fun hc => hnew (hheld.subset conn hc)
    refine ⟨List.concat_eq_append ▸ hheld.nodup.concat habsent, fun c hc => ?_⟩
    rw [List.mem_append] at hc ⊢
    exact hc.imp_left (hheld.subset c)
  · exact ⟨hheld.nodup, fun c hc => List.mem_append_left _ (hheld.subset c hc)⟩

theorem Within.erase (hheld : Within conns held) (conn : Nat) :
    Within (conns.erase conn) (held.erase conn) := by
  refine ⟨hheld.nodup.erase conn, fun c hc => ?_⟩
  obtain ⟨hne, hmem⟩ := hheld.nodup.mem_erase_iff.mp hc
  exact (List.mem_erase_of_ne hne).mpr (hheld.subset c hmem)

theorem Within.drop (hheld : Within conns held) (conn : Nat) : Within conns (held.erase conn) :=
  ⟨hheld.nodup.erase conn, fun c hc => hheld.subset c (List.mem_of_mem_erase hc)⟩

namespace Socket

/-- What the socket knows of a connection.  One that was in the list when `Close` went
through it, and is still there, has been closed, and one in the list that has been handed to
`scheduleRmConn` waits for the reaper. -/
structure Placed (s : Socket) (conn : Nat) (link : Link) : Prop where
  ok : link.Ok
  unmade : s.made ≤ conn → link.stage = .unmade
  listed : conn ∈ s.conns ↔ link.stage.isListed = true
  walked : s.walked = true → link.stage = .listed → link.closed = true
  beating : s.beating = some conn → link.stage.isRegistered = true
  pending : conn ∈ s.conns → 0 < link.handed → conn ∈ s.closedConns ∨ conn ∈ s.reaping

structure Tracked (s : Socket) : Prop where
  placed : ∀ c, s.Placed c (s.link c)
  nodup : s.conns.Nodup
  readers : Within s.conns s.readers
  writers : Within s.conns s.writers
  ended : s.returned = true ∨ s.closing = some .walked → s.walked = true

theorem tracked_new (typ : SocketType) (autoReconnect : Bool) :
    Tracked { typ, autoReconnect } where
  placed _ :=
    { ok := ⟨rfl, fun _ => rfl, fun _ => ⟨rfl, rfl, rfl⟩, nofun⟩
      unmade := fun _ => rfl
      listed := iff_of_false List.not_mem_nil nofun
      walked := nofun
      beating := nofun
      pending := nofun }
  nodup := List.nodup_nil
  readers := ⟨List.nodup_nil, nofun⟩
  writers := ⟨List.nodup_nil, nofun⟩
  ended := nofun

section Steps

variable {s : Socket}

theorem setLink_link_self (conn : Nat) (link : Link) : (s.setLink conn link).link conn = link := by
  simp [Socket.setLink]

variable {conn : Nat} {link : Link}

theorem setLink_link_of_ne {c : Nat} (hc : c ≠ conn) : (s.setLink conn link).link c = s.link c := by
  simp [Socket.setLink, hc]

theorem forall_setLink {P : Nat → Link → Prop} (hall : ∀ c, P c (s.link c)) (hlink : P conn link)
    (c : Nat) :
    P c ((s.setLink conn link).link c) :=
  (Function.forall_update_iff s.link P).mpr ⟨hlink, fun c _ => hall c⟩ c

/-- A connection changes within its stage.  If it has been handed to `scheduleRmConn`
now, it has been put on the reaper's list. -/
theorem Tracked.relink (hs : s.Tracked) {closedConns : List Nat} {workers : List Worker}
    (hok : link.Ok) (hstage : link.stage = (s.link conn).stage)
    (hclosed : (s.link conn).closed = true → link.closed = true)
    (hqueue : ∀ c ∈ s.closedConns, c ∈ closedConns)
    (hhanded : link.handed = (s.link conn).handed ∨ conn ∈ closedConns) :
    Tracked { s.setLink conn link with closedConns, workers } := by
  have hpending : ∀ c, c ∈ s.conns → 0 < (s.link c).handed → c ∈ closedConns ∨ c ∈ s.reaping :=
    fun c hc hpos => ((hs.placed c).pending hc hpos).imp_left (hqueue c)
  refine { hs with placed := (Function.forall_update_iff s.link _).mpr ⟨?_, fun c _ => ?_⟩ }
  · have hconn := hs.placed conn
    exact
    { ok := hok
      unmade := hstage ▸ hconn.unmade
      listed := hstage ▸ hconn.listed
      walked := fun hwalked hlisted => hclosed (hconn.walked hwalked (hstage ▸ hlisted))
      beating := hstage ▸ hconn.beating
      pending := by
        rcases hhanded with hsame | hqueued
        · exact hsame ▸ hpending conn
        · exact fun _ _ => .inl hqueued }
  · exact { hs.placed c with pending := hpending c }

theorem Tracked.setLink (hs : s.Tracked) (hok : link.Ok) (hstage : link.stage = (s.link conn).stage)
    (hhanded : link.handed = (s.link conn).handed)
    (hclosed : (s.link conn).closed = true → link.closed = true) :
    (s.setLink conn link).Tracked :=
  hs.relink hok hstage hclosed (fun _ hc => hc) (.inl hhanded)

theorem scheduleRmConn_setLink (conn : Nat) (link : Link) :
    (s.setLink conn link).scheduleRmConn conn =
      { s.setLink conn { link with handed := link.handed + 1 } with
        closedConns := s.closedConns ++ [conn]
        workers :=
          if s.autoReconnect then s.workers ++ [{ kind := .dial, phase := .connecting }]
          else s.workers } := by
  simp only [scheduleRmConn, Socket.setLink, Function.update_self, Function.update_idem]
  rfl

theorem setClosed_setLink (conn : Nat) (link : Link) :
    (s.setLink conn link).setClosed conn =
      if link.marked then s.setLink conn link
      else (s.setLink conn { link with marked := true }).scheduleRmConn conn := by
  simp only [Socket.setClosed, Socket.setLink, Function.update_self, Function.update_idem]

theorem stage_setLink (hstage : link.stage = (s.link conn).stage) (c : Nat) :
    ((s.setLink conn link).link c).stage = (s.link c).stage :=
  forall_setLink (P := fun c link => link.stage = (s.link c).stage) (fun _ => rfl) hstage c

theorem closed_setLink (hclosed : (s.link conn).closed = true → link.closed = true) (c : Nat) :
    (s.link c).closed = true → ((s.setLink conn link).link c).closed = true :=
  forall_setLink (P := fun c link => (s.link c).closed = true → link.closed = true)
    (fun _ => id) hclosed c

/-- The link is the one with what the caller of `scheduleRmConn` has written down. -/
theorem Tracked.scheduleRmConn (hs : s.Tracked)
    (hok : Link.Ok { link with handed := link.handed + 1 })
    (hstage : link.stage = (s.link conn).stage)
    (hclosed : (s.link conn).closed = true → link.closed = true) :
    ((s.setLink conn link).scheduleRmConn conn).Tracked := by
  rw [scheduleRmConn_setLink]
  exact hs.relink hok hstage hclosed (fun _ => List.mem_append_left [conn])
    (.inr List.mem_concat_self)

theorem Tracked.setClosed (hs : s.Tracked) (hok : Link.Ok { link with
      marked := true
      handed := if link.marked then link.handed else link.handed + 1 })
    (hstage : link.stage = (s.link conn).stage) (hhanded : link.handed = (s.link conn).handed)
    (hclosed : (s.link conn).closed = true → link.closed = true) :
    ((s.setLink conn link).setClosed conn).Tracked := by
  rw [setClosed_setLink]
  split
  · rename_i hmarked
    simp only [hmarked, if_true] at hok
    exact hs.setLink (by rwa [← hmarked] at hok) hstage hhanded hclosed
  · rename_i hmarked
    simp only [hmarked] at hok
    exact hs.scheduleRmConn hok hstage hclosed

theorem Tracked.advance (hs : s.Tracked) {made : Nat} {reaperStarted : Bool} (hok : link.Ok)
    (hfrom : (s.link conn).stage.isRegistered = false) (hto : link.stage.isRegistered = false)
    (hmade : ∀ c, made ≤ c → s.made ≤ c ∧ c ≠ conn) :
    Tracked { s.setLink conn link with made, reaperStarted } := by
  simp only [Stage.isRegistered, Bool.or_eq_false_iff] at hfrom hto
  have hconn := hs.placed conn
  have habsent : conn ∉ s.conns := by
    rw [hconn.listed, hfrom.1]
    exact Bool.false_ne_true
  refine { hs with placed := (Function.forall_update_iff s.link _).mpr ⟨?_, fun c _ => ?_⟩ }
  · exact
    { ok := hok
      unmade := fun hle => absurd rfl (hmade conn hle).2
      listed := iff_of_false habsent (by simp [hto.1])
      walked := fun _ hlisted => absurd hto.1 (by simp [hlisted, Stage.isListed])
      beating := fun hbeating => by
        have hregistered := hconn.beating hbeating
        simp [Stage.isRegistered, hfrom] at hregistered
      pending := fun hc => absurd hc habsent }
  · exact { hs.placed c with unmade := fun hle => (hs.placed c).unmade (hmade c hle).1 }

theorem addConn_stage (conn : Nat) :
    ((s.addConn conn).link conn).stage = if s.walked then .late else .listed := by
  rw [Socket.addConn, Socket.setLink]
  simp only [Function.update_self]

theorem Tracked.addConn (hs : s.Tracked) (hopened : (s.link conn).stage = .opened) :
    (s.addConn conn).Tracked := by
  have hunregistered : (s.link conn).stage.isRegistered = false := by simp [hopened]; rfl
  have hconn := hs.placed conn
  have habsent : conn ∉ s.conns := by
    rw [hconn.listed, hopened]
    exact Bool.false_ne_true
  have hunhanded : (s.link conn).handed = 0 := by
    rw [hconn.ok.counted, hconn.ok.opened hopened, (hconn.ok.unregistered hunregistered).2.1]
    rfl
  have hstage : (if s.walked then Stage.late else .listed).isListed = true := by split <;> rfl
  have hloop : (if readerListens s.typ then Loop.reading else .absent).setsClosed = false := by
    split <;> rfl
  refine
  { hs with
    placed := (Function.forall_update_iff s.link _).mpr ⟨?_, fun c hne => ?_⟩
    nodup := ?_
    readers := hs.readers.concat habsent _ (ite_eq_or_eq _ _ _)
    writers := hs.writers.concat habsent _ (ite_eq_or_eq _ _ _) }
  · exact
    { ok := hconn.ok.register hopened hstage hloop
      unmade := fun hle => absurd (hconn.unmade hle) (by simp [hopened])
      listed := iff_of_true List.mem_concat_self hstage
      walked := fun hwalked hlisted => by
        change s.walked = true at hwalked
        simp [hwalked] at hlisted
      beating := fun _ => isRegistered_of_isListed hstage
      pending := fun _ hpos => absurd hunhanded (Nat.ne_of_gt hpos) }
  · have hmem : c ∈ s.conns ++ [conn] ↔ c ∈ s.conns := by simp [hne]
    exact
    { hs.placed c with
      listed := hmem.trans (hs.placed c).listed
      pending := fun hc => (hs.placed c).pending (hmem.mp hc) }
  · change (s.conns ++ [conn]).Nodup
    rw [← List.concat_eq_append]
    exact hs.nodup.concat habsent

theorem Tracked.rmConn (hs : s.Tracked) {rest : List Nat} (hreaping : s.reaping = conn :: rest) :
    ({ s with reaping := rest }.rmConn conn).Tracked := by
  have hpending : ∀ c, c ≠ conn → c ∈ s.conns → 0 < (s.link c).handed →
      c ∈ s.closedConns ∨ c ∈ rest := fun c hne hc hpos => by
    simpa [hreaping, hne] using (hs.placed c).pending hc hpos
  rw [Socket.rmConn]
  split
  · rename_i hmem
    have hconn := hs.placed conn
    have hlisted := hconn.listed.mp hmem
    refine
    { hs with
      placed := (Function.forall_update_iff s.link _).mpr ⟨?_, fun c hne => ?_⟩
      nodup := hs.nodup.erase conn
      readers := hs.readers.erase conn
      writers := hs.writers.erase conn }
    · exact
      { ok := ⟨hconn.ok.counted, hconn.ok.marks, nofun, nofun⟩
        unmade := fun hle => by simp [hconn.unmade hle, Stage.isListed] at hlisted
        listed := iff_of_false hs.nodup.not_mem_erase nofun
        walked := nofun
        beating := fun _ => rfl
        pending := fun hc => absurd hc hs.nodup.not_mem_erase }
    · exact
      { hs.placed c with
        listed := (List.mem_erase_of_ne hne).trans (hs.placed c).listed
        pending := fun hc => hpending c hne (List.mem_of_mem_erase hc) }
  · rename_i hnot
    refine { hs with placed := fun c => { hs.placed c with pending := fun hc => ?_ } }
    apply hpending c _ hc
    rintro rfl
    exact hnot hc

theorem walk_link_of_mem {c : Nat} (hc : c ∈ s.conns) :
    s.walk.link c = { s.link c with closed := true } :=
  if_pos hc

theorem walk_link_of_not_mem {c : Nat} (hc : c ∉ s.conns) : s.walk.link c = s.link c :=
  if_neg hc

theorem Tracked.walk (hs : s.Tracked) : s.walk.Tracked := by
  refine { hs with placed := fun c => ?_, ended := fun _ => rfl }
  by_cases hc : c ∈ s.conns
  · rw [walk_link_of_mem hc]
    have hregistered := isRegistered_of_isListed ((hs.placed c).listed.mp hc)
    exact { hs.placed c with ok := (hs.placed c).ok.shut hregistered, walked := fun _ _ => rfl }
  · rw [walk_link_of_not_mem hc]
    refine { hs.placed c with walked := fun _ hlisted => ?_ }
    exact absurd ((hs.placed c).listed.mpr (by rw [hlisted]; rfl)) hc

theorem Tracked.loopReturns (hs : s.Tracked) (hloop : (s.link conn).loop ≠ .absent) :
    (s.loopReturns conn).Tracked :=
  have hclosed := hs.setLink ((hs.placed conn).ok.returned hloop) rfl rfl fun _ => rfl
  { hclosed with
    placed := fun c => { hclosed.placed c with }
    readers := hs.readers.drop conn }

theorem Tracked.readFails (hs : s.Tracked) (hreading : (s.link conn).loop = .reading)
    (ending : Ending) : (s.readFails conn ending).Tracked := by
  have hlink := (hs.placed conn).ok
  have hregistered := hlink.registered_of_loop (by simp [hreading])
  rw [Socket.readFails]
  dsimp only
  split
  · rename_i hsets
    refine hs.setClosed (hlink.setClosed ?_ (fun _ => ?_) ?_) rfl rfl id
    · intro hopened
      rw [hopened] at hregistered
      contradiction
    · simp [Loop.setsClosed, hsets]
    · intro hnot
      rw [hregistered] at hnot
      contradiction
  · rename_i hsets
    exact hs.setLink (hlink.leave hreading (by simpa [Loop.setsClosed] using hsets)) rfl rfl id

theorem Tracked.setPhase (hs : s.Tracked) (worker : Nat) (kind : WorkerKind) (phase : Phase) :
    (s.setPhase worker kind phase).Tracked :=
  { hs with placed := fun c => { hs.placed c with } }

section Moves

variable {s' : Socket} {worker : Nat} {w : Worker}

theorem work_openFails_eq_some (hwork : s.work worker w .openFails = some s') :
    ∃ conn, w.phase = .opening conn ∧ (s.link conn).stage = .opening ∧
      s' = (s.setLink conn { s.link conn with stage := .failed }).setPhase worker w.kind
        w.next := by
  rw [work] at hwork
  split at hwork
  · rename_i conn hphase
    obtain ⟨hstage, hs'⟩ := Option.ite_none_right_eq_some.mp hwork
    exact ⟨conn, hphase, hstage, (Option.some.inj hs').symm⟩
  · contradiction

theorem work_opens_eq_some (hwork : s.work worker w .opens = some s') :
    ∃ conn, w.phase = .opening conn ∧ (s.link conn).stage = .opening ∧
      (s.link conn).marked = false ∧
      s' = (s.opened w.kind conn).setPhase worker w.kind (.adding conn) := by
  rw [work] at hwork
  split at hwork
  · rename_i conn hphase
    obtain ⟨hstage, hs'⟩ := Option.ite_none_right_eq_some.mp hwork
    exact ⟨conn, hphase, hstage.1, hstage.2, (Option.some.inj hs').symm⟩
  · contradiction

theorem work_addConn_eq_some (hwork : s.work worker w .addConn = some s') :
    ∃ conn, w.phase = .adding conn ∧ (s.link conn).stage = .opened ∧
      s' = (s.addConn conn).setPhase worker w.kind w.next := by
  rw [work] at hwork
  split at hwork
  · rename_i conn hphase
    obtain ⟨hstage, hs'⟩ := Option.ite_none_right_eq_some.mp hwork
    exact ⟨conn, hphase, hstage, (Option.some.inj hs').symm⟩
  · contradiction

theorem tracked_work (hs : s.Tracked) {move : Move} (hwork : s.work worker w move = some s') :
    s'.Tracked := by
  have hmade : ∀ conn, (s.link conn).stage = .opening → ∀ c, s.made ≤ c →
      s.made ≤ c ∧ c ≠ conn := by
    rintro conn hopening c hle
    refine ⟨hle, ?_⟩
    rintro rfl
    exact absurd ((hs.placed c).unmade hle) (by simp [hopening])
  cases move with
  | check =>
    obtain ⟨-, ⟨⟩⟩ := Option.ite_none_right_eq_some.mp hwork
    exact hs.setPhase ..
  | connect =>
    obtain ⟨-, ⟨⟩⟩ := Option.ite_none_right_eq_some.mp hwork
    apply Tracked.setPhase
    have hunmade := (hs.placed s.made).unmade le_rfl
    exact hs.advance ⟨rfl, fun _ => rfl, fun _ => ⟨rfl, rfl, rfl⟩, nofun⟩ (by rw [hunmade]; rfl)
      rfl fun c hc => ⟨Nat.le_of_succ_le hc, Nat.ne_of_gt hc⟩
  | connectFails retry =>
    obtain ⟨-, ⟨⟩⟩ := Option.ite_none_right_eq_some.mp hwork
    exact hs.setPhase ..
  | openFails =>
    obtain ⟨conn, _, hstage, rfl⟩ := work_openFails_eq_some hwork
    apply Tracked.setPhase
    have hlink := (hs.placed conn).ok
    have hfrom : (s.link conn).stage.isRegistered = false := by rw [hstage]; rfl
    exact hs.advance ⟨hlink.counted, hlink.marks, fun _ => hlink.unregistered hfrom, nofun⟩ hfrom
      rfl (hmade conn hstage)
  | opens =>
    obtain ⟨conn, _, hstage, hmarked, rfl⟩ := work_opens_eq_some hwork
    apply Tracked.setPhase
    have hlink := (hs.placed conn).ok
    have hfrom : (s.link conn).stage.isRegistered = false := by rw [hstage]; rfl
    exact hs.advance ⟨hlink.counted, hlink.marks, fun _ => hlink.unregistered hfrom,
      fun _ => hmarked⟩ hfrom rfl (hmade conn hstage)
  | addConn =>
    obtain ⟨conn, _, hopened, rfl⟩ := work_addConn_eq_some hwork
    exact (hs.addConn hopened).setPhase ..

end Moves

variable {s' : Socket}

theorem step_loopReturns_eq_some (hstep : s.step (.loopReturns conn) = some s') :
    ∃ ending, (s.link conn).loop = .leaving ending ∧ s' = s.loopReturns conn := by
  rw [step] at hstep
  split at hstep
  · rename_i ending hloop
    exact ⟨ending, hloop, (Option.some.inj hstep).symm⟩
  · contradiction

theorem step_rmConn_eq_some (hstep : s.step .rmConn = some s') :
    ∃ conn rest, s.reaping = conn :: rest ∧ s' = { s with reaping := rest }.rmConn conn := by
  rw [step] at hstep
  split at hstep
  · contradiction
  · rename_i conn rest hreaping
    exact ⟨conn, rest, hreaping, (Option.some.inj hstep).symm⟩

theorem tracked_step (hs : s.Tracked) {action : Action} (hstep : s.step action = some s') :
    s'.Tracked := by
  cases action with
  | listen =>
    obtain ⟨-, ⟨⟩⟩ := Option.ite_none_right_eq_some.mp hstep
    exact { hs with placed := fun c => { hs.placed c with } }
  | dial =>
    obtain rfl := Option.some.inj hstep
    exact { hs with placed := fun c => { hs.placed c with } }
  | work worker move =>
    obtain ⟨w, _, hwork⟩ := Option.bind_eq_some_iff.mp hstep
    exact tracked_work hs hwork
  | ioFails conn =>
    obtain ⟨hstage, ⟨⟩⟩ := Option.ite_none_right_eq_some.mp hstep
    have hne : (s.link conn).stage ≠ .opened := by
      intro hopened
      rw [hopened] at hstage
      simp [Stage.isRegistered, Stage.isListed] at hstage
    have hlink := (hs.placed conn).ok
    have hloop := fun hnot => (hlink.unregistered hnot).1
    exact hs.setClosed (hlink.setClosed hne (fun _ => rfl) hloop) rfl rfl id
  | heartbeatFinds conn =>
    obtain ⟨hfinds, ⟨⟩⟩ := Option.ite_none_right_eq_some.mp hstep
    refine { hs with placed := fun c => { hs.placed c with beating := fun hc => ?_ } }
    obtain rfl := Option.some.inj hc
    exact isRegistered_of_isListed ((hs.placed conn).listed.mp hfinds.2)
  | heartbeatTimeout =>
    obtain ⟨conn, hbeating, rfl⟩ := Option.map_eq_some_iff.mp hstep
    have hidle : Tracked { s with beating := none } :=
      { hs with placed := fun c => { hs.placed c with beating := nofun } }
    have hbeat := (hs.placed conn).ok.beat ((hs.placed conn).beating hbeating)
    exact hidle.scheduleRmConn hbeat rfl fun _ => rfl
  | readFails conn ending =>
    obtain ⟨hreading, ⟨⟩⟩ := Option.ite_none_right_eq_some.mp hstep
    exact hs.readFails hreading ending
  | loopCancelled conn =>
    obtain ⟨hreading, ⟨⟩⟩ := Option.ite_none_right_eq_some.mp hstep
    exact hs.setLink ((hs.placed conn).ok.leave hreading.1 rfl) rfl rfl id
  | loopReturns conn =>
    obtain ⟨ending, hloop, rfl⟩ := step_loopReturns_eq_some hstep
    exact hs.loopReturns (by simp [hloop])
  | reap =>
    obtain ⟨hreap, ⟨⟩⟩ := Option.ite_none_right_eq_some.mp hstep
    refine { hs with placed := fun c => { hs.placed c with pending := fun hc hpos => .inr ?_ } }
    simpa [hreap.2.2.2] using (hs.placed c).pending hc hpos
  | rmConn =>
    obtain ⟨conn, rest, hreaping, rfl⟩ := step_rmConn_eq_some hstep
    exact hs.rmConn hreaping
  | close =>
    obtain ⟨-, ⟨⟩⟩ := Option.ite_none_right_eq_some.mp hstep
    exact
      { hs with
        placed := fun c => { hs.placed c with }
        ended := fun hended => hs.ended (hended.imp_right nofun) }
  | walk =>
    obtain ⟨-, ⟨⟩⟩ := Option.ite_none_right_eq_some.mp hstep
    exact hs.walk
  | closeReturns =>
    obtain ⟨hclosing, ⟨⟩⟩ := Option.ite_none_right_eq_some.mp hstep
    exact
      { hs with
        placed := fun c => { hs.placed c with }
        ended := fun _ => hs.ended (.inr hclosing) }

end Steps

end Socket

end Zmq4.SocketConnections
