import Zmq4.ReplyRouting
import Zmq4.RequestRoundRobin

namespace Zmq4.ProxyForwarding

open ByteCodec DuplexProgram ZmtpMessage ZmtpMetadata Connection SocketReaders ActionRuns
open RequestRoundRobin (ReqWriter)

def canRecv : SocketType → Bool
  | .push => false
  | _ => true

def canSend : SocketType → Bool
  | .pull => false
  | _ => true

/-- `socket.Recv` with a `qreader`, for a message from the channel: the message
is returned along with its error. -/
def qreaderRecv (queued : Msg) : Msg × Option Err :=
  (queued, queued.err)

section Publisher

/-- The channel of one subscriber of a `pubMWriter`.  It is drained even after
it has been removed from `subscribers`. -/
structure Subscriber where
  listed : Bool
  hwm : Nat
  queue : List Msg

/-- How the `select` for one subscriber ends. -/
inductive Visit where
  | done (err : Err)
  | queued
  | full
  deriving DecidableEq

def Subscriber.push (sub : Subscriber) (msg : Msg) : Subscriber :=
  { sub with queue := sub.queue ++ [msg] }

/-- A channel without a buffer takes a message if its goroutine waits for one. -/
def Subscriber.hasRoom (sub : Subscriber) : Bool :=
  sub.queue.length < max sub.hwm 1

/-- The loop of `pubMWriter.write` over the subscribers, in the order of the map
iteration. -/
def pubMWriterWrite (msg : Msg) (visit : Nat → Visit) :
    List Nat → List Subscriber → Option (Option Err × List Subscriber)
  | [], subs => some (none, subs)
  | i :: rest, subs =>
    match subs[i]?, visit i with
    | none, _ => none
    | some _, .done err => some (some err, subs)
    | some sub, .queued =>
      if sub.hasRoom then pubMWriterWrite msg visit rest (subs.set i (sub.push msg)) else none
    | some sub, .full =>
      if sub.hwm ≤ sub.queue.length then pubMWriterWrite msg visit rest subs else none

def listedSubscribers (subs : List Subscriber) : List Nat :=
  (List.range subs.length).filter fun i => (subs[i]?.map Subscriber.listed) = some true

def Visit.err? : Visit → Option Err
  | .done err => some err
  | _ => none

def reached (visit : Nat → Visit) (order : List Nat) : List Nat :=
  order.takeWhile fun i => (visit i).err?.isNone

/-- The goroutine of a subscriber takes the first frame of each message for the
topic. -/
def AllFramed (subs : List Subscriber) : Prop :=
  ∀ sub ∈ subs, ∀ msg ∈ sub.queue, msg.frames ≠ []

variable {subs : List Subscriber}

theorem allFramed_set_iff {i : Nat} {sub : Subscriber} {queue : List Msg}
    (hsub : subs[i]? = some sub) (hqueue : ∀ msg ∈ sub.queue, msg ∈ queue) :
    AllFramed (subs.set i { sub with queue := queue }) ↔
      AllFramed subs ∧ ∀ msg ∈ queue, msg.frames ≠ [] := by
  obtain ⟨hi, rfl⟩ := List.getElem?_eq_some_iff.mp hsub
  constructor
  · intro hset
    have hnew := hset _ (List.mem_set hi _)
    refine ⟨fun other hother msg hmsg => ?_, hnew⟩
    obtain ⟨j, hj, rfl⟩ := List.mem_iff_getElem.mp hother
    rcases eq_or_ne i j with rfl | hne
    · exact hnew msg (hqueue msg hmsg)
    · refine hset _ (List.mem_iff_getElem.mpr ⟨j, by simpa using hj, ?_⟩) msg hmsg
      simp [List.getElem_set_ne hne]
  · rintro ⟨hframed, hnew⟩ other hother
    rcases List.mem_or_eq_of_mem_set hother with hold | rfl
    · exact hframed other hold
    · exact hnew

theorem pubMWriterWrite_spec {msg : Msg} {visit : Nat → Visit} {order : List Nat}
    {subs' : List Subscriber} {err : Option Err}
    (hwrite : pubMWriterWrite msg visit order subs = some (err, subs')) :
    err = order.findSome? (fun i => (visit i).err?) ∧
      (AllFramed subs' ↔ AllFramed subs ∧
        (msg.frames = [] → ∀ i ∈ reached visit order, visit i ≠ .queued)) := by
  induction order generalizing subs with
  | nil =>
    simp only [pubMWriterWrite, Option.some.injEq, Prod.mk.injEq] at hwrite
    obtain ⟨rfl, rfl⟩ := hwrite
    simp [reached]
  | cons i rest ih =>
    rw [pubMWriterWrite] at hwrite
    split at hwrite
    · cases hwrite
    · rename_i hvisit
      simp only [Option.some.injEq, Prod.mk.injEq] at hwrite
      obtain ⟨rfl, rfl⟩ := hwrite
      simp [reached, hvisit, Visit.err?]
    · rename_i sub hsub hvisit
      split at hwrite
      · obtain ⟨herr, hframed⟩ := ih hwrite
        have hpush : AllFramed (subs.set i { sub with queue := sub.queue ++ [msg] }) ↔
            AllFramed subs ∧ ∀ m ∈ sub.queue ++ [msg], m.frames ≠ [] :=
          allFramed_set_iff hsub fun _ => List.mem_append_left _
        refine ⟨by simpa [hvisit, Visit.err?] using herr, ?_⟩
        simp only [reached, hvisit, Visit.err?, Option.isNone_none, List.takeWhile_cons_of_pos,
          List.forall_mem_cons, ne_eq, not_true_eq_false, false_and, imp_false]
        rw [hframed, Subscriber.push, hpush]
        constructor
        · rintro ⟨⟨hold, hnew⟩, -⟩
          exact ⟨hold, hnew msg (by simp)⟩
        · rintro ⟨hold, hmsg⟩
          refine ⟨⟨hold, fun m hm => ?_⟩, fun hnone => absurd hnone hmsg⟩
          rcases List.mem_append.mp hm with hm | hm
          · exact hold sub (List.mem_of_getElem? hsub) m hm
          · rwa [List.mem_singleton.mp hm]
      · cases hwrite
    · rename_i hvisit
      split at hwrite
      · obtain ⟨herr, hframed⟩ := ih hwrite
        refine ⟨by simpa [hvisit, Visit.err?] using herr, hframed.trans ?_⟩
        simp [reached, hvisit, Visit.err?]
      · cases hwrite

end Publisher

section Send

/-- What the surroundings contribute to a `Send`: the peers of a ROUTER, the
connections and the cursor of a REQ with the answers to its attempts, the course of a
publisher's loop, the result of the other writers, and whether `Send` of the capture socket
panics, as that of a REQ can. -/
structure Sending where
  pids : List Bytes
  req : ReqWriter Nat
  answers : Nat → Option Err
  result : Option Err
  order : List Nat
  visit : Nat → Visit
  capturePanics : Bool

def isPublisher : SocketType → Bool
  | .pub | .xpub => true
  | _ => false

def reqWrite (how : Sending) (msg : Msg) : Except Stop (Option Err) :=
  match how.req.write msg how.answers with
  | .ok () _ => .ok none
  | .error (.fail err) _ => .ok (some err)
  | .error stop _ => .error stop

/-- `Send` of the destination: how it ends, and its subscribers then. -/
def send (dst : SocketType) (how : Sending) (msg : Msg) (subs : List Subscriber) :
    Option (Except Stop (Option Err) × List Subscriber) :=
  if isPublisher dst then
    if how.order.isPerm (listedSubscribers subs) then
      (pubMWriterWrite msg how.visit how.order subs).map fun (err, subs') => (.ok err, subs')
    else none
  else if dst = .router then
    some ((ReplyRouting.routerMWriterWrite how.pids msg).map fun _ => how.result, subs)
  else if dst = .req then some (reqWrite how msg, subs)
  else if dst = .pull then
    some (.ok (some (.text "zmq4: PULL sockets can't send messages")), subs)
  else some (.ok how.result, subs)

def Sending.returns (how : Sending) (dst : SocketType) (msg : Msg) : Option Err :=
  if isPublisher dst then how.order.findSome? fun i => (how.visit i).err?
  else if dst = .req then (reqWrite how msg).toOption.join
  else how.result

/-- No subscriber of a publisher takes the message. -/
def Sending.Misses (how : Sending) (dst : SocketType) : Prop :=
  isPublisher dst = true → ∀ i ∈ reached how.visit how.order, how.visit i ≠ .queued

/-- `Send` of a ROUTER takes the first frame of the message without looking whether there
is one.  That of a REQ goes past the end of its connections when none from the cursor on
accepts, unless the cursor is at the front. -/
def Sending.Panics (how : Sending) (dst : SocketType) (msg : Msg) : Prop :=
  dst = .router ∧ msg.frames = [] ∨
    dst = .req ∧ how.req.conns ≠ [] ∧ how.req.cursor ≠ 0 ∧
      ∀ i, i + how.req.cursor < how.req.conns.length → how.answers i ≠ none

theorem reqWrite_spec (how : Sending) (msg : Msg) :
    (how.Panics .req msg ∧ ∃ stop, reqWrite how msg = .error stop) ∨
      (¬ how.Panics .req msg ∧ reqWrite how msg = .ok (how.returns .req msg)) := by
  have hreturns : how.returns .req msg = (reqWrite how msg).toOption.join := rfl
  have hpanics : how.Panics .req msg ↔ how.req.conns ≠ [] ∧ how.req.cursor ≠ 0 ∧
      ∀ i, i + how.req.cursor < how.req.conns.length → how.answers i ≠ none := by
    simp [Sending.Panics]
  rw [hreturns, hpanics]
  rcases how.req.write_cases msg how.answers with
    ⟨j, hj, -, hanswer, hwrite⟩ | ⟨hrefused, ⟨hfront, failure, hwrite⟩ | ⟨hpast, s', hwrite⟩⟩
  · refine .inr ⟨fun h => h.2.2 j hj hanswer, ?_⟩
    simp only [reqWrite, hwrite]
    rfl
  · refine .inr ⟨fun h => hfront.elim h.1 h.2.1, ?_⟩
    simp only [reqWrite, hwrite]
    rfl
  · refine .inl ⟨⟨hpast.1, hpast.2, hrefused⟩, .panicked "index out of range", ?_⟩
    simp only [reqWrite, hwrite]

theorem routerWrite_spec (how : Sending) (msg : Msg) :
    (how.Panics .router msg ∧ ∃ stop,
        (ReplyRouting.routerMWriterWrite how.pids msg).map (fun _ => how.result) = .error stop) ∨
      (¬ how.Panics .router msg ∧
        (ReplyRouting.routerMWriterWrite how.pids msg).map (fun _ => how.result) =
          .ok (how.returns .router msg)) := by
  have hpanics : how.Panics .router msg ↔ msg.frames = [] := by
    simp [Sending.Panics]
  rw [hpanics]
  rcases hframes : msg.frames with _ | ⟨id, rest⟩
  · refine .inl ⟨rfl, .panicked "index out of range", ?_⟩
    simp only [ReplyRouting.routerMWriterWrite, hframes, Except.map]
  · refine .inr ⟨List.cons_ne_nil id rest, ?_⟩
    simp only [ReplyRouting.routerMWriterWrite, hframes, Except.map]
    rfl

theorem send_spec {dst : SocketType} {how : Sending} {msg : Msg} {subs subs' : List Subscriber}
    {outcome : Except Stop (Option Err)} (hdst : canSend dst = true)
    (hsend : send dst how msg subs = some (outcome, subs')) :
    (AllFramed subs' ↔ AllFramed subs ∧ (msg.frames = [] → how.Misses dst)) ∧
      ((how.Panics dst msg ∧ ∃ stop, outcome = .error stop) ∨
        (¬ how.Panics dst msg ∧ outcome = .ok (how.returns dst msg))) := by
  rw [send] at hsend
  by_cases hpub : isPublisher dst = true
  · rw [if_pos hpub] at hsend
    have hcalm : ¬ how.Panics dst msg := by
      rintro (⟨rfl, -⟩ | ⟨rfl, -⟩)
      · cases hpub
      · cases hpub
    split at hsend
    · obtain ⟨⟨err, subs'⟩, hwrite, heq⟩ := Option.map_eq_some_iff.mp hsend
      simp only [Prod.mk.injEq] at heq
      obtain ⟨rfl, rfl⟩ := heq
      obtain ⟨herr, hframed⟩ := pubMWriterWrite_spec hwrite
      refine ⟨by simpa [Sending.Misses, hpub] using hframed, .inr ⟨hcalm, ?_⟩⟩
      simp [Sending.returns, hpub, herr]
    · cases hsend
  · rw [if_neg hpub] at hsend
    have hsubs : AllFramed subs ↔ AllFramed subs ∧ (msg.frames = [] → how.Misses dst) :=
      (and_iff_left fun _ h => absurd h hpub).symm
    split at hsend
    · rename_i hrouter
      subst hrouter
      simp only [Option.some.injEq, Prod.mk.injEq] at hsend
      obtain ⟨rfl, rfl⟩ := hsend
      exact ⟨hsubs, routerWrite_spec how msg⟩
    split at hsend
    · rename_i hreq
      subst hreq
      simp only [Option.some.injEq, Prod.mk.injEq] at hsend
      obtain ⟨rfl, rfl⟩ := hsend
      exact ⟨hsubs, reqWrite_spec how msg⟩
    · rename_i hrouter hreq
      have hpull : dst ≠ .pull := by
        rintro rfl
        cases hdst
      rw [if_neg hpull] at hsend
      simp only [Option.some.injEq, Prod.mk.injEq] at hsend
      obtain ⟨rfl, rfl⟩ := hsend
      refine ⟨hsubs, .inr ⟨?_, by simp [Sending.returns, hpub, hreq]⟩⟩
      rintro (⟨h, -⟩ | ⟨h, -⟩)
      · exact hrouter h
      · exact hreq h

end Send

section Pipe

/-- The loop for one destination, with the messages for which `Recv` returned no
error, those passed to `Send`, those for which `Send` returned no error and those
passed to `Send` of the capture socket. -/
structure Pipe where
  running : Bool
  subscribers : List Subscriber
  received : List Msg
  sent : List Msg
  forwarded : List Msg
  captured : List Msg

def Pipe.receive (pipe : Pipe) (recv : Msg × Option Err) : Pipe :=
  if recv.2 = none then { pipe with received := pipe.received ++ [recv.1] } else pipe

def Pipe.toCapture (pipe : Pipe) (capture : Bool) (how : Sending) (msg : Msg) :
    Except Stop Pipe :=
  if capture ∧ msg.frames ≠ [] then
    if how.capturePanics then .error (.panicked "index out of range")
    else .ok { pipe with captured := pipe.captured ++ [msg] }
  else .ok pipe

def Pipe.afterSend (pipe : Pipe) (capture : Bool) (how : Sending) (msg : Msg)
    (err : Option Err) : Except Stop Pipe :=
  let pipe := { pipe with sent := pipe.sent ++ [msg] }
  if err = none then
    { pipe with forwarded := pipe.forwarded ++ [msg] }.toCapture capture how msg
  else .ok pipe

def Pipe.turn (pipe : Pipe) (dst : SocketType) (capture stopping : Bool) (recv : Msg × Option Err)
    (how : Sending) : Option (Except Stop Pipe) :=
  if stopping then some (.ok { pipe.receive recv with running := false })
  else if canSend dst then
    (send dst how recv.1 pipe.subscribers).map fun (outcome, subscribers) =>
      outcome.bind fun err =>
        { pipe.receive recv with subscribers := subscribers }.afterSend capture how recv.1 err
  else if recv.2 = none then some ((pipe.receive recv).toCapture capture how recv.1)
  else some (.ok pipe)

theorem receive_eq (pipe : Pipe) (recv : Msg × Option Err) :
    pipe.receive recv =
      { pipe with received := pipe.received ++ if recv.2 = none then [recv.1] else [] } := by
  rw [Pipe.receive]
  split <;> simp

theorem afterSend_eq (pipe : Pipe) (capture : Bool) (how : Sending) (msg : Msg)
    (err : Option Err) :
    pipe.afterSend capture how msg err =
      if (err = none ∧ capture = true ∧ msg.frames ≠ []) ∧ how.capturePanics = true then
        .error (.panicked "index out of range")
      else .ok
        { pipe with
          sent := pipe.sent ++ [msg]
          forwarded := pipe.forwarded ++ if err = none then [msg] else []
          captured := pipe.captured ++
            if err = none ∧ capture = true ∧ msg.frames ≠ [] then [msg] else [] } := by
  by_cases herr : err = none
  · by_cases hcapture : capture = true ∧ msg.frames ≠ []
    · by_cases hpanics : how.capturePanics = true <;>
        simp [Pipe.afterSend, Pipe.toCapture, herr, hcapture, hpanics]
    · simp [Pipe.afterSend, Pipe.toCapture, herr, hcapture]
  · simp [Pipe.afterSend, herr]

structure Pipe.Faithful (capture : Bool) (pipe : Pipe) : Prop where
  sent_eq : pipe.sent = pipe.received
  captured_eq : capture = true → pipe.captured = pipe.forwarded
  framed : AllFramed pipe.subscribers

/-- A turn takes a message only if it can pass it on and capture it without a panic, and a
message without frames only if no subscriber takes it and no capture is due. -/
def Forwards (dst : SocketType) (capture stopping : Bool) (recv : Msg × Option Err)
    (how : Sending) : Prop :=
  if stopping = true ∨ canSend dst = false then recv.2 ≠ none
  else
    recv.2 = none ∧ ¬ how.Panics dst recv.1 ∧ (recv.1.frames = [] → how.Misses dst) ∧
      (capture = true → recv.1.frames = [] ∨ how.capturePanics = true →
        how.returns dst recv.1 ≠ none)

variable {capture : Bool} {pipe : Pipe} {recv : Msg × Option Err}

theorem stop_faithful_iff (hpipe : pipe.Faithful capture) :
    Pipe.Faithful capture { pipe.receive recv with running := false } ↔ recv.2 ≠ none := by
  rw [receive_eq]
  constructor
  · intro hfaithful herr
    have hsent := hfaithful.sent_eq
    simp [hpipe.sent_eq, herr] at hsent
  · intro herr
    exact ⟨by simp [hpipe.sent_eq, herr], hpipe.captured_eq, hpipe.framed⟩

theorem unsent_faithful_iff (hpipe : pipe.Faithful capture) (how : Sending) :
    (∃ pipe', (if recv.2 = none then (pipe.receive recv).toCapture capture how recv.1
        else .ok pipe) = .ok pipe' ∧ pipe'.Faithful capture) ↔ recv.2 ≠ none := by
  by_cases herr : recv.2 = none
  · refine iff_of_false ?_ (fun h => h herr)
    rintro ⟨pipe', hcapture, hfaithful⟩
    have hsent := hfaithful.sent_eq
    rw [if_pos herr, receive_eq, Pipe.toCapture] at hcapture
    split_ifs at hcapture <;> cases hcapture <;> simp [hpipe.sent_eq] at hsent
  · rw [if_neg herr]
    exact iff_of_true ⟨pipe, rfl, hpipe⟩ herr

theorem afterSend_faithful_iff (hpipe : pipe.Faithful capture) {subs : List Subscriber}
    {how : Sending} {err : Option Err} :
    (∃ pipe', { pipe.receive recv with subscribers := subs }.afterSend capture how recv.1 err =
        .ok pipe' ∧ pipe'.Faithful capture) ↔
      recv.2 = none ∧ AllFramed subs ∧
        (capture = true → recv.1.frames = [] ∨ how.capturePanics = true → err ≠ none) := by
  rw [afterSend_eq, receive_eq]
  constructor
  · rintro ⟨pipe', hsend, hsent, hcaptured, hframed⟩
    split at hsend
    · cases hsend
    rename_i hpanics
    obtain rfl := Except.ok.inj hsend
    refine ⟨?_, hframed, ?_⟩
    · by_contra herr
      simp [hpipe.sent_eq, herr] at hsent
    · rintro hcapture hwhy rfl
      by_cases hframes : recv.1.frames = []
      · simpa [hpipe.captured_eq hcapture, hframes] using hcaptured hcapture
      · exact hpanics ⟨⟨rfl, hcapture, hframes⟩, hwhy.resolve_left hframes⟩
  · rintro ⟨herr, hframed, hdue⟩
    rw [if_neg fun h => hdue h.1.2.1 (.inr h.2) h.1.1]
    refine ⟨_, rfl, by simp [hpipe.sent_eq, herr], fun hcapture => ?_, hframed⟩
    by_cases hframes : recv.1.frames = []
    · simp [hpipe.captured_eq hcapture, hframes, hdue hcapture (.inl hframes)]
    · simp [hpipe.captured_eq hcapture, hframes, hcapture]

theorem turn_faithful_iff {dst : SocketType} {stopping : Bool} {how : Sending}
    {outcome : Except Stop Pipe} (hpipe : pipe.Faithful capture)
    (hturn : pipe.turn dst capture stopping recv how = some outcome) :
    (∃ pipe', outcome = .ok pipe' ∧ pipe'.Faithful capture) ↔
      Forwards dst capture stopping recv how := by
  rw [Pipe.turn] at hturn
  rw [Forwards]
  by_cases hstop : stopping = true
  · rw [if_pos hstop, Option.some.injEq] at hturn
    obtain rfl := hturn
    simp [hstop, stop_faithful_iff hpipe]
  · rw [if_neg hstop] at hturn
    by_cases hdst : canSend dst = true
    · rw [if_pos hdst] at hturn
      obtain ⟨⟨sent, subs'⟩, hsend, rfl⟩ := Option.map_eq_some_iff.mp hturn
      obtain ⟨hframed, hcases⟩ := send_spec hdst hsend
      rw [if_neg (by simp [hstop, hdst])]
      rcases hcases with ⟨hpanics, stop, rfl⟩ | ⟨hcalm, rfl⟩
      · simp [Except.bind, hpanics]
      · simp only [Except.bind, afterSend_faithful_iff hpipe, hframed, hpipe.framed, true_and,
          hcalm, not_false_eq_true]
    · rw [if_neg hdst, ← apply_ite some, Option.some.injEq] at hturn
      obtain rfl := hturn
      rw [unsent_faithful_iff hpipe how, if_pos (by simp [hdst])]

end Pipe

section Proxy

inductive Side where
  | frontend
  | backend
  deriving DecidableEq

def Side.other : Side → Side
  | .frontend => .backend
  | .backend => .frontend

/-- The two sockets of a proxy, and whether it has a capture socket. -/
structure Setup where
  socket : Side → SocketType
  capture : Bool

/-- Each pipe goes by the side of its destination. -/
structure Proxy where
  pipes : Side → Pipe
  ctxDone : Bool
  quit : Bool
  controlling : Bool
  panicked : Bool

inductive ProxyCmd where
  | stats
  | pause
  | resume
  | kill
  deriving DecidableEq

def newProxy (setup : Setup) : Proxy where
  pipes side :=
    { running := canRecv (setup.socket side.other), subscribers := [], received := [], sent := []
      forwarded := [], captured := [] }
  ctxDone := false
  quit := false
  controlling := true
  panicked := false

inductive Action where
  /-- A turn of the loop with the given destination. -/
  | turn (side : Side) (recv : Msg × Option Err) (how : Sending)
  | addConn (side : Side) (hwm : Nat)
  | rmConn (side : Side) (i : Nat)
  /-- The goroutine of a subscriber takes a message from its channel. -/
  | publish (side : Side) (i : Nat)
  | cancel
  | command (cmd : ProxyCmd)
  | controlDone

def Proxy.setPipe (s : Proxy) (side : Side) (pipe : Pipe) : Proxy :=
  { s with pipes := Function.update s.pipes side pipe }

def Proxy.setSubscribers (s : Proxy) (side : Side) (subs : List Subscriber) : Proxy :=
  s.setPipe side { s.pipes side with subscribers := subs }

def turn (setup : Setup) (s : Proxy) (side : Side) (recv : Msg × Option Err) (how : Sending) :
    Option Proxy :=
  if (s.pipes side).running then
    ((s.pipes side).turn (setup.socket side) setup.capture (s.ctxDone || s.quit) recv how).map
      fun outcome =>
        match outcome with
        | .ok pipe => s.setPipe side pipe
        | .error _ => { s with panicked := true }
  else none

def rmConn (s : Proxy) (side : Side) (i : Nat) : Option Proxy :=
  (s.pipes side).subscribers[i]?.map fun sub =>
    s.setSubscribers side ((s.pipes side).subscribers.set i { sub with listed := false })

def publish (s : Proxy) (side : Side) (i : Nat) : Option Proxy :=
  (s.pipes side).subscribers[i]?.bind fun sub =>
    match sub.queue with
    | [] => none
    | msg :: rest =>
      if msg.frames = [] then some { s with panicked := true }
      else
        some (s.setSubscribers side
          ((s.pipes side).subscribers.set i { sub with queue := rest }))

def command (s : Proxy) (cmd : ProxyCmd) : Option Proxy :=
  if s.controlling then
    some (if cmd = .kill then { s with quit := true, controlling := false } else s)
  else none

def perform (setup : Setup) (s : Proxy) : Action → Option Proxy
  | .turn side recv how => turn setup s side recv how
  | .addConn side hwm =>
    some (s.setSubscribers side
      ((s.pipes side).subscribers ++ [{ listed := true, hwm := hwm, queue := [] }]))
  | .rmConn side i => rmConn s side i
  | .publish side i => publish s side i
  | .cancel => some { s with ctxDone := true }
  | .command cmd => command s cmd
  | .controlDone =>
    if s.controlling ∧ s.ctxDone then some { s with controlling := false } else none

/-- A panic of any goroutine ends the program. -/
def step (setup : Setup) (s : Proxy) (action : Action) : Option Proxy :=
  if s.panicked then none else perform setup s action

/-- In each direction what was sent is what was received and what was captured is
what was forwarded, no goroutine has panicked, and none will on a message in its
channel. -/
structure Faithful (setup : Setup) (s : Proxy) : Prop where
  pipes : ∀ side, (s.pipes side).Faithful setup.capture
  calm : s.panicked = false

def TurnForwards (setup : Setup) (s : Proxy) : Action → Prop
  | .turn side recv how =>
    Forwards (setup.socket side) setup.capture (s.ctxDone || s.quit) recv how
  | _ => True

variable {setup : Setup} {s : Proxy}

theorem faithful_setPipe_iff (hs : Faithful setup s) {side : Side} {pipe : Pipe} :
    Faithful setup (s.setPipe side pipe) ↔ pipe.Faithful setup.capture := by
  constructor
  · intro hset
    simpa [Proxy.setPipe] using hset.pipes side
  · intro hpipe
    refine ⟨fun other => ?_, hs.calm⟩
    rcases eq_or_ne other side with rfl | hne
    · simpa [Proxy.setPipe] using hpipe
    · simpa [Proxy.setPipe, Function.update_of_ne hne] using hs.pipes other

theorem faithful_setSubscribers (hs : Faithful setup s) {side : Side} {subs : List Subscriber}
    (hframed : AllFramed subs) :
    Faithful setup (s.setSubscribers side subs) :=
  (faithful_setPipe_iff hs).mpr
    ⟨(hs.pipes side).sent_eq, (hs.pipes side).captured_eq, hframed⟩

theorem AllFramed.set {subs : List Subscriber} (hframed : AllFramed subs) {i : Nat}
    {sub sub' : Subscriber} (hsub : subs[i]? = some sub)
    (hqueue : ∀ msg ∈ sub'.queue, msg ∈ sub.queue) : AllFramed (subs.set i sub') := by
  intro other hother
  rcases List.mem_or_eq_of_mem_set hother with hold | rfl
  · exact hframed other hold
  · exact fun msg hmsg => hframed sub (List.mem_of_getElem? hsub) msg (hqueue msg hmsg)

theorem step_faithful_iff {action : Action} {s' : Proxy} (hs : Faithful setup s)
    (hstep : step setup s action = some s') :
    Faithful setup s' ↔ TurnForwards setup s action := by
  rw [step, if_neg (by simp [hs.calm])] at hstep
  cases action with
  | turn side recv how =>
    rw [perform, ProxyForwarding.turn] at hstep
    split at hstep
    · obtain ⟨outcome, hturn, rfl⟩ := Option.map_eq_some_iff.mp hstep
      refine Iff.trans ?_ (turn_faithful_iff (hs.pipes side) hturn)
      cases outcome with
      | ok pipe => simp [faithful_setPipe_iff hs]
      | error stop => exact iff_of_false (fun h => absurd h.calm (by simp)) (by simp)
    · cases hstep
  | addConn side hwm =>
    refine iff_of_true ?_ trivial
    obtain rfl := Option.some.inj hstep
    refine faithful_setSubscribers hs (List.forall_mem_append.mpr ⟨(hs.pipes side).framed, ?_⟩)
    exact List.forall_mem_singleton.mpr fun _ h => by cases h
  | rmConn side i =>
    refine iff_of_true ?_ trivial
    obtain ⟨sub, hsub, rfl⟩ := Option.map_eq_some_iff.mp hstep
    exact faithful_setSubscribers hs ((hs.pipes side).framed.set hsub fun _ h => h)
  | publish side i =>
    refine iff_of_true ?_ trivial
    obtain ⟨sub, hsub, hqueue⟩ := Option.bind_eq_some_iff.mp hstep
    split at hqueue
    · cases hqueue
    · rename_i msg rest hsplit
      have hframes := (hs.pipes side).framed sub (List.mem_of_getElem? hsub) msg (by simp [hsplit])
      rw [if_neg hframes] at hqueue
      obtain rfl := Option.some.inj hqueue
      refine faithful_setSubscribers hs ((hs.pipes side).framed.set hsub fun m hm => ?_)
      rw [hsplit]
      exact List.mem_cons_of_mem msg hm
  | cancel =>
    obtain rfl := Option.some.inj hstep
    exact iff_of_true ⟨hs.pipes, hs.calm⟩ trivial
  | command cmd =>
    refine iff_of_true ?_ trivial
    rw [perform, ProxyForwarding.command] at hstep
    split at hstep
    · obtain rfl := Option.some.inj hstep
      split
      · exact ⟨hs.pipes, hs.calm⟩
      · exact hs
    · cases hstep
  | controlDone =>
    refine iff_of_true ?_ trivial
    rw [perform] at hstep
    split at hstep
    · obtain rfl := Option.some.inj hstep
      exact ⟨hs.pipes, hs.calm⟩
    · cases hstep

/-- A run of a proxy is faithful as long as each turn passes on what it takes. -/
theorem faithful_iff_turnsForward (setup : Setup) {actions : List Action} {s : Proxy}
    (hrun : run (step setup) (newProxy setup) actions = some s) :
    Always (step setup) (Faithful setup) (newProxy setup) actions ↔
      Throughout (step setup) (TurnForwards setup) (newProxy setup) actions :=
  always_iff_throughout (J := fun _ => True) (fun _ _ _ _ _ _ => trivial)
    (fun _ _ _ _ => step_faithful_iff) trivial ⟨fun _ => ⟨rfl, fun _ => rfl, nofun⟩, rfl⟩ hrun

def dealerRouter : Setup where
  socket
    | .frontend => .dealer
    | .backend => .router
  capture := false

def pullPush : Setup where
  socket
    | .frontend => .pull
    | .backend => .push
  capture := true

def plainSend : Sending where
  pids := [[1]]
  req := .newReqWriter Nat
  answers _ := none
  result := none
  order := []
  visit _ := .full
  capturePanics := false

theorem faithful_iff_turnsForward_routed :
    (∃ s, run (step dealerRouter) (newProxy dealerRouter)
        [.turn .backend (newMsgFrom [[1], [2]], none) plainSend, .cancel] = some s) ∧
      (Always (step dealerRouter) (Faithful dealerRouter) (newProxy dealerRouter)
          [.turn .backend (newMsgFrom [[1], [2]], none) plainSend, .cancel] ↔
        Throughout (step dealerRouter) (TurnForwards dealerRouter) (newProxy dealerRouter)
          [.turn .backend (newMsgFrom [[1], [2]], none) plainSend, .cancel]) :=
  ⟨⟨_, rfl⟩, faithful_iff_turnsForward dealerRouter rfl⟩

def closedEndpoint : Endpoint Unit where
  sec := ()
  conn :=
    { Conn.fresh Metadata.empty with
      rw := { input := [], closedByPeer := true, output := [], writeErr := none } }

def disconnected : Msg :=
  { frames := [], msgType := .usrMsg, multipart := false, err := some .eof }

/-- A peer of the frontend that disconnects makes the loop panic in the ROUTER's
writer, and makes it send a message that was never received to the peers of a
PUSH. -/
theorem disconnect_forwarded :
    (listen nullSecurity qreader 1 Listening.start closedEndpoint).1.queue = [disconnected] ∧
      (∃ s, run (step dealerRouter) (newProxy dealerRouter)
          [.turn .backend (qreaderRecv disconnected) plainSend] = some s ∧ s.panicked = true) ∧
      ∃ s, run (step pullPush) (newProxy pullPush)
          [.turn .backend (qreaderRecv disconnected) plainSend] = some s ∧
        (s.pipes .backend).received = [] ∧ (s.pipes .backend).sent = [disconnected] :=
  ⟨rfl, ⟨_, rfl, rfl⟩, ⟨_, rfl, rfl, rfl⟩⟩

end Proxy

end Zmq4.ProxyForwarding
