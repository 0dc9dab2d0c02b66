import Zmq4.SubscriptionSync

namespace Zmq4.PubFanOut

open ByteCodec ActionRuns ZmtpMessage
open SocketReaders (isTopic subscribe)
open SubscriptionSync (subscribed topicMsg)

inductive Fate where
  | queued
  | full (length capacity : Nat)
  | expired
  deriving DecidableEq

/-- A message that a sender has looked at, with the topics of the connection when it was
taken from the queue and when `subscribed` was called. -/
structure Check where
  msg : Msg
  taken : Finset Bytes
  topics : Finset Bytes
  handed : Bool

inductive Sender where
  | waiting
  | holding (msg : Msg) (taken : Finset Bytes)
  | sending
  | ended
  deriving DecidableEq

def Sender.held : Sender → List Msg
  | .holding msg _ => [msg]
  | .waiting | .sending | .ended => []

/-- A connection that was added.  `offered` has the messages written while it was in the
map. -/
structure Subscriber where
  capacity : Nat
  queue : List Msg
  closed : Bool
  sender : Sender
  offered : List Msg
  fates : List (Msg × Fate)
  checks : List Check

def newSubscriber (capacity : Nat) : Subscriber where
  capacity := capacity
  queue := []
  closed := false
  sender := .waiting
  offered := []
  fates := []
  checks := []

def topic (msg : Msg) : Bytes :=
  msg.frames.headD []

namespace Subscriber

def settle (sub : Subscriber) (msg : Msg) (fate : Fate) : Subscriber :=
  { sub with fates := sub.fates ++ [(msg, fate)] }

/-- A message for which there is no room goes to a goroutine that waits for one. -/
def send (sub : Subscriber) (topics : Finset Bytes) (msg : Msg) : Option Subscriber :=
  if sub.queue.length < sub.capacity then
    some { sub.settle msg .queued with queue := sub.queue ++ [msg] }
  else if sub.queue = [] ∧ sub.sender = .waiting then
    some { sub.settle msg .queued with sender := .holding msg topics }
  else none

def discard (sub : Subscriber) (msg : Msg) : Option Subscriber :=
  if sub.capacity ≤ sub.queue.length then
    some (sub.settle msg (.full sub.queue.length sub.capacity))
  else none

def take (sub : Subscriber) (topics : Finset Bytes) : Option Subscriber :=
  match sub.sender, sub.queue with
  | .waiting, msg :: rest => some { sub with queue := rest, sender := .holding msg topics }
  | _, _ => none

def check (sub : Subscriber) (topics : Finset Bytes) : Option Subscriber :=
  match sub.sender with
  | .holding msg taken =>
    let handed := subscribed topics (topic msg)
    some { sub with
      sender := if handed then .sending else .waiting
      checks := sub.checks ++ [{ msg, taken, topics, handed }] }
  | .waiting | .sending | .ended => none

def sent (sub : Subscriber) : Option Subscriber :=
  if sub.sender = .sending then some { sub with sender := .waiting } else none

def stop (sub : Subscriber) : Option Subscriber :=
  if sub.sender = .waiting ∧ sub.queue = [] ∧ sub.closed then some { sub with sender := .ended }
  else none

def handed (sub : Subscriber) : List Msg :=
  (sub.checks.filter Check.handed).map Check.msg

end Subscriber

/-- Connections are numbers.  `writing` has the message that is being written, with the
subscribers that the loop has not come to. -/
structure Pub where
  hwm : Int
  topics : Nat → Finset Bytes
  subs : Nat → Option Subscriber
  conns : Finset Nat
  writing : Option (Msg × List Nat)
  published : List Msg
  sentOnClosed : Bool

def defaultSendHwm : Int := 1000

def newPub : Pub where
  hwm := defaultSendHwm
  topics _ := ∅
  subs _ := none
  conns := ∅
  writing := none
  published := []
  sentOnClosed := false

/-- `done`, `send` and `skip` are the cases of the `select` in `write`. -/
inductive Action where
  | setHWM (hwm : Int)
  | subscribe (c : Nat) (msg : Msg)
  | addConn (c : Nat)
  | rmConn (c : Nat)
  | write (msg : Msg) (order : List Nat)
  | done
  | send
  | skip
  | writeReturns
  | take (c : Nat)
  | check (c : Nat)
  | sent (c : Nat)
  | stop (c : Nat)

namespace Pub

def set (s : Pub) (c : Nat) (sub : Subscriber) : Pub :=
  { s with subs := Function.update s.subs c (some sub) }

def each (s : Pub) (order : List Nat) (f : Subscriber → Subscriber) : Pub :=
  { s with subs := fun c => if c ∈ order then (s.subs c).map f else s.subs c }

def sender (s : Pub) (c : Nat) (f : Subscriber → Option Subscriber) : Option Pub :=
  ((s.subs c).bind f).map (s.set c)

def visit (s : Pub) (f : Finset Bytes → Subscriber → Msg → Option Subscriber) : Option Pub :=
  match s.writing with
  | some (msg, c :: rest) =>
    (s.subs c).bind fun sub =>
      if sub.closed then some { s with sentOnClosed := true }
      else (f (s.topics c) sub msg).map fun sub' => { s.set c sub' with writing := some (msg, rest) }
  | some (_, []) | none => none

def awaiting (s : Pub) (c : Nat) : List Msg :=
  match s.writing with
  | some (msg, order) => if c ∈ order then [msg] else []
  | none => []

end Pub

/-- `addConn` panics if the high-water mark is negative. -/
def step (s : Pub) : Action → Option Pub
  | .setHWM hwm => some { s with hwm := hwm }
  | .subscribe c msg =>
    if isTopic msg then
      some { s with topics := Function.update s.topics c (subscribe msg (s.topics c)) }
    else none
  | .addConn c =>
    if s.writing = none ∧ s.subs c = none ∧ 0 ≤ s.hwm then
      some { s.set c (newSubscriber s.hwm.toNat) with conns := insert c s.conns }
    else none
  | .rmConn c =>
    if s.writing = none then
      if c ∈ s.conns then
        (s.subs c).map fun sub =>
          { s.set c { sub with closed := true } with conns := s.conns.erase c }
      else some s
    else none
  | .write msg order =>
    if s.writing = none ∧ order.Nodup ∧ order.toFinset = s.conns ∧ msg.frames ≠ [] then
      some { s.each order fun sub => { sub with offered := sub.offered ++ [msg] } with
        writing := some (msg, order)
        published := s.published ++ [msg] }
    else none
  | .done =>
    s.writing.map fun (msg, order) =>
      { s.each order fun sub => sub.settle msg .expired with writing := none }
  | .send => s.visit fun topics sub msg => sub.send topics msg
  | .skip => s.visit fun _ sub msg => sub.discard msg
  | .writeReturns =>
    match s.writing with
    | some (_, []) => some { s with writing := none }
    | some (_, _ :: _) | none => none
  | .take c => s.sender c fun sub => sub.take (s.topics c)
  | .check c => s.sender c fun sub => sub.check (s.topics c)
  | .sent c => s.sender c Subscriber.sent
  | .stop c => s.sender c Subscriber.stop

/-- Every message offered to the subscriber has its fate, but for the one that is being
written.  Those that were queued are in the queue, with the goroutine, or were checked, and
`SendMsg` got the ones that matched a topic then. -/
structure Accounted (sub : Subscriber) (awaiting : List Msg) : Prop where
  offered : sub.offered = sub.fates.map Prod.fst ++ awaiting
  full : ∀ msg length capacity, (msg, Fate.full length capacity) ∈ sub.fates → capacity ≤ length
  queued : (sub.fates.filter (·.2 = .queued)).map Prod.fst =
    sub.checks.map Check.msg ++ (sub.sender.held ++ sub.queue)
  checked : ∀ check ∈ sub.checks, check.handed = subscribed check.topics (topic check.msg)

structure FannedOut (s : Pub) : Prop where
  subsequence : ∀ c sub, s.subs c = some sub → sub.handed.Sublist s.published
  accounted : ∀ c sub, s.subs c = some sub → Accounted sub (s.awaiting c)
  unclosed : s.sentOnClosed = false

/-- A subscriber in the map has an open queue. -/
structure Sound (published awaiting : List Msg) (listed : Prop) (sub : Subscriber) : Prop where
  accounted : Accounted sub awaiting
  offered : sub.offered.Sublist published
  unclosed : listed → sub.closed = false

structure Inv (s : Pub) : Prop where
  sound : ∀ c sub, s.subs c = some sub → Sound s.published (s.awaiting c) (c ∈ s.conns) sub
  writing : ∀ msg order, s.writing = some (msg, order) → order.Nodup ∧ ∀ c ∈ order, c ∈ s.conns
  unclosed : s.sentOnClosed = false

structure Keeps (sub sub' : Subscriber) (awaiting : List Msg) : Prop where
  accounted : Accounted sub' awaiting
  offered : sub'.offered = sub.offered
  closed : sub'.closed = sub.closed

section Subscribers

variable {sub sub' : Subscriber} {topics : Finset Bytes} {msg : Msg} {awaiting : List Msg}

theorem full_settle (hsub : Accounted sub awaiting) {fate : Fate}
    (hfate : ∀ length capacity, fate = .full length capacity → capacity ≤ length) :
    ∀ other length capacity,
      (other, Fate.full length capacity) ∈ (sub.settle msg fate).fates → capacity ≤ length := by
  intro other length capacity hmem
  rcases List.mem_append.mp hmem with hbefore | hnew
  · exact hsub.full other length capacity hbefore
  · exact hfate length capacity (Prod.ext_iff.mp (List.mem_singleton.mp hnew)).2.symm

theorem accounted_settle (hsub : Accounted sub [msg]) {fate : Fate} (hne : fate ≠ .queued)
    (hfate : ∀ length capacity, fate = .full length capacity → capacity ≤ length) :
    Accounted (sub.settle msg fate) [] := by
  refine ⟨by simp [Subscriber.settle, hsub.offered], full_settle hsub hfate, ?_, hsub.checked⟩
  simp [Subscriber.settle, hsub.queued, hne]

theorem keeps_send (hsub : Accounted sub [msg]) (hsend : sub.send topics msg = some sub') :
    Keeps sub sub' [] := by
  have hoffered : sub.offered = (sub.settle msg .queued).fates.map Prod.fst ++ [] := by
    simp [Subscriber.settle, hsub.offered]
  unfold Subscriber.send at hsend
  split at hsend
  · cases hsend
    refine ⟨⟨hoffered, full_settle hsub nofun, ?_, hsub.checked⟩, rfl, rfl⟩
    simp [Subscriber.settle, hsub.queued]
  · obtain ⟨⟨hempty, hwaiting⟩, ⟨⟩⟩ := Option.ite_none_right_eq_some.mp hsend
    refine ⟨⟨hoffered, full_settle hsub nofun, ?_, hsub.checked⟩, rfl, rfl⟩
    simp [Subscriber.settle, hsub.queued, hempty, hwaiting, Sender.held]

theorem keeps_discard (hsub : Accounted sub [msg]) (hdiscard : sub.discard msg = some sub') :
    Keeps sub sub' [] := by
  obtain ⟨hfull, ⟨⟩⟩ := Option.ite_none_right_eq_some.mp hdiscard
  refine ⟨accounted_settle hsub nofun ?_, rfl, rfl⟩
  rintro length capacity ⟨⟩
  exact hfull

theorem keeps_take (hsub : Accounted sub awaiting) (htake : sub.take topics = some sub') :
    Keeps sub sub' awaiting := by
  unfold Subscriber.take at htake
  split at htake
  · rename_i msg rest hwaiting hqueue
    cases htake
    refine ⟨⟨hsub.offered, hsub.full, ?_, hsub.checked⟩, rfl, rfl⟩
    rw [hsub.queued, hwaiting, hqueue]
    rfl
  · cases htake

theorem keeps_check (hsub : Accounted sub awaiting) (hcheck : sub.check topics = some sub') :
    Keeps sub sub' awaiting := by
  unfold Subscriber.check at hcheck
  split at hcheck
  · rename_i msg taken hholding
    cases hcheck
    have hheld : (if subscribed topics (topic msg) then Sender.sending else .waiting).held = [] := by
      split <;> rfl
    refine ⟨⟨hsub.offered, hsub.full, ?_, ?_⟩, rfl, rfl⟩
    · rw [hsub.queued, hholding, hheld]
      simp [Sender.held]
    · exact List.forall_mem_append.mpr ⟨hsub.checked, List.forall_mem_singleton.mpr rfl⟩
  all_goals cases hcheck

theorem keeps_sender (hsub : Accounted sub awaiting) {sender : Sender}
    (hheld : sub.sender.held = sender.held) : Keeps sub { sub with sender } awaiting := by
  refine ⟨⟨hsub.offered, hsub.full, ?_, hsub.checked⟩, rfl, rfl⟩
  rw [hsub.queued, hheld]

theorem keeps_sent (hsub : Accounted sub awaiting) (hsent : sub.sent = some sub') :
    Keeps sub sub' awaiting := by
  obtain ⟨hsending, ⟨⟩⟩ := Option.ite_none_right_eq_some.mp hsent
  exact keeps_sender hsub (by rw [hsending]; rfl)

theorem keeps_stop (hsub : Accounted sub awaiting) (hstop : sub.stop = some sub') :
    Keeps sub sub' awaiting := by
  obtain ⟨⟨hwaiting, -⟩, ⟨⟩⟩ := Option.ite_none_right_eq_some.mp hstop
  exact keeps_sender hsub (by rw [hwaiting]; rfl)

theorem handed_sublist (hsub : Accounted sub awaiting) : sub.handed.Sublist sub.offered := by
  have hqueued : sub.handed.Sublist ((sub.fates.filter (·.2 = .queued)).map Prod.fst) := by
    rw [hsub.queued]
    exact (List.filter_sublist.map _).trans (List.sublist_append_left ..)
  rw [hsub.offered]
  exact hqueued.trans ((List.filter_sublist.map _).trans (List.sublist_append_left ..))

end Subscribers

section Steps

variable {s s' : Pub} {c : Nat} {sub sub' : Subscriber} {P : Nat → Subscriber → Prop}

theorem of_set (hP : ∀ d other, s.subs d = some other → d ≠ c → P d other) (hc : P c sub') :
    ∀ d other, (s.set c sub').subs d = some other → P d other := by
  intro d other hother
  rcases eq_or_ne d c with rfl | hne
  · obtain rfl : sub' = other := by simpa [Pub.set] using hother
    exact hc
  · exact hP d other (by simpa [Pub.set, hne] using hother) hne

theorem of_each {order : List Nat} {f : Subscriber → Subscriber}
    (hin : ∀ d other, s.subs d = some other → d ∈ order → P d (f other))
    (hout : ∀ d other, s.subs d = some other → d ∉ order → P d other) :
    ∀ d other, (s.each order f).subs d = some other → P d other := by
  intro d other hother
  rw [Pub.each] at hother
  dsimp only at hother
  split at hother
  · rename_i hmem
    obtain ⟨before, hbefore, rfl⟩ := Option.map_eq_some_iff.mp hother
    exact hin d before hbefore hmem
  · rename_i hmem
    exact hout d other hother hmem

theorem inv_sender {f : Subscriber → Option Subscriber} (hs : Inv s)
    (hstep : s.sender c f = some s')
    (hf : ∀ {sub sub'}, Accounted sub (s.awaiting c) → f sub = some sub' →
      Keeps sub sub' (s.awaiting c)) : Inv s' := by
  obtain ⟨sub', hbind, rfl⟩ := Option.map_eq_some_iff.mp hstep
  obtain ⟨sub, hsub, hf'⟩ := Option.bind_eq_some_iff.mp hbind
  obtain ⟨haccounted, hoffered, hunclosed⟩ := hs.sound c sub hsub
  obtain ⟨haccounted', hsame, hclosed⟩ := hf haccounted hf'
  refine ⟨of_set (fun d other hother _ => hs.sound d other hother) ?_, hs.writing, hs.unclosed⟩
  exact ⟨haccounted', hsame ▸ hoffered, fun hmem => hclosed.trans (hunclosed hmem)⟩

/-- The loop goes on with the subscribers behind, and has the lock, so that the queue of
this one is open. -/
theorem inv_visit {f : Finset Bytes → Subscriber → Msg → Option Subscriber} (hs : Inv s)
    (hstep : s.visit f = some s')
    (hf : ∀ {topics sub sub' msg}, Accounted sub [msg] → f topics sub msg = some sub' →
      Keeps sub sub' []) : Inv s' := by
  unfold Pub.visit at hstep
  split at hstep
  · rename_i msg c rest hwriting
    obtain ⟨hnodup, hmem⟩ := hs.writing msg _ hwriting
    obtain ⟨sub, hsub, hstep⟩ := Option.bind_eq_some_iff.mp hstep
    obtain ⟨haccounted, hoffered, hunclosed⟩ := hs.sound c sub hsub
    have hopen : sub.closed = false := hunclosed (hmem c List.mem_cons_self)
    rw [if_neg (by simp [hopen])] at hstep
    obtain ⟨sub', hf', rfl⟩ := Option.map_eq_some_iff.mp hstep
    have hawaiting : s.awaiting c = [msg] := by
      simp [Pub.awaiting, hwriting]
    rw [hawaiting] at haccounted
    obtain ⟨haccounted', hsame, hclosed⟩ := hf haccounted hf'
    refine ⟨of_set ?_ ⟨?_, hsame ▸ hoffered, fun _ => hclosed.trans hopen⟩, ?_, hs.unclosed⟩
    · intro d other hother hne
      obtain ⟨hbefore, hpublished, hlisted⟩ := hs.sound d other hother
      refine ⟨?_, hpublished, hlisted⟩
      simpa [Pub.awaiting, hwriting, hne] using hbefore
    · simpa [Pub.awaiting, (List.nodup_cons.mp hnodup).1] using haccounted'
    · rintro _ _ ⟨⟩
      exact ⟨(List.nodup_cons.mp hnodup).2, fun d hd => hmem d (List.mem_cons_of_mem c hd)⟩
  all_goals cases hstep

theorem inv_rmConn (hs : Inv s) (hstep : step s (.rmConn c) = some s') : Inv s' := by
  obtain ⟨hwriting, hstep⟩ := Option.ite_none_right_eq_some.mp hstep
  split at hstep
  · obtain ⟨sub, hsub, rfl⟩ := Option.map_eq_some_iff.mp hstep
    refine ⟨of_set ?_ ?_, ?_, hs.unclosed⟩
    · intro d other hother _
      obtain ⟨haccounted, hoffered, hunclosed⟩ := hs.sound d other hother
      exact ⟨haccounted, hoffered, fun hmem => hunclosed (Finset.mem_of_mem_erase hmem)⟩
    · obtain ⟨haccounted, hoffered, -⟩ := hs.sound c sub hsub
      refine ⟨⟨haccounted.offered, haccounted.full, haccounted.queued, haccounted.checked⟩,
        hoffered, fun hmem => ?_⟩
      exact absurd hmem (Finset.notMem_erase c s.conns)
    · intro msg order horder
      exact nomatch hwriting.symm.trans horder
  · cases hstep
    exact hs

theorem inv_write {msg : Msg} {order : List Nat} (hs : Inv s)
    (hstep : step s (.write msg order) = some s') : Inv s' := by
  obtain ⟨⟨hwriting, hnodup, horder, -⟩, ⟨⟩⟩ := Option.ite_none_right_eq_some.mp hstep
  have hbefore : ∀ d, s.awaiting d = [] := fun d => by rw [Pub.awaiting, hwriting]
  refine ⟨of_each ?_ ?_, ?_, hs.unclosed⟩
  · intro d other hother hmem
    obtain ⟨haccounted, hoffered, hunclosed⟩ := hs.sound d other hother
    rw [hbefore] at haccounted
    refine ⟨⟨?_, haccounted.full, haccounted.queued, haccounted.checked⟩,
      hoffered.append (.refl _), hunclosed⟩
    simp [Pub.awaiting, hmem, haccounted.offered]
  · intro d other hother hmem
    obtain ⟨haccounted, hoffered, hunclosed⟩ := hs.sound d other hother
    refine ⟨?_, hoffered.trans (List.sublist_append_left ..), hunclosed⟩
    simpa [Pub.awaiting, hmem, hwriting] using haccounted
  · rintro _ _ ⟨⟩
    exact ⟨hnodup, fun c hc => horder ▸ List.mem_toFinset.mpr hc⟩

theorem inv_done (hs : Inv s) (hstep : step s .done = some s') : Inv s' := by
  obtain ⟨⟨msg, order⟩, hwriting, rfl⟩ := Option.map_eq_some_iff.mp hstep
  refine ⟨of_each ?_ ?_, nofun, hs.unclosed⟩
  · intro d other hother hmem
    obtain ⟨haccounted, hoffered, hunclosed⟩ := hs.sound d other hother
    rw [Pub.awaiting, hwriting] at haccounted
    exact ⟨accounted_settle (by simpa [hmem] using haccounted) nofun nofun, hoffered, hunclosed⟩
  · intro d other hother hmem
    obtain ⟨haccounted, hoffered, hunclosed⟩ := hs.sound d other hother
    exact ⟨by simpa [Pub.awaiting, hwriting, hmem] using haccounted, hoffered, hunclosed⟩

theorem inv_step (s : Pub) (action : Action) (s' : Pub) (hs : Inv s)
    (hstep : step s action = some s') : Inv s' := by
  cases action with
  | setHWM hwm =>
    cases hstep
    exact { hs with }
  | subscribe c msg =>
    obtain ⟨-, ⟨⟩⟩ := Option.ite_none_right_eq_some.mp hstep
    exact { hs with }
  | addConn c =>
    obtain ⟨⟨hwriting, -⟩, ⟨⟩⟩ := Option.ite_none_right_eq_some.mp hstep
    refine ⟨of_set ?_ ?_, ?_, hs.unclosed⟩
    · intro d other hother hne
      obtain ⟨haccounted, hoffered, hunclosed⟩ := hs.sound d other hother
      exact ⟨haccounted, hoffered, fun hmem => hunclosed (Finset.mem_of_mem_insert_of_ne hmem hne)⟩
    · have hawaiting : s.awaiting c = [] := by rw [Pub.awaiting, hwriting]
      refine ⟨?_, List.nil_sublist _, fun _ => rfl⟩
      exact ⟨hawaiting.symm, nofun, rfl, nofun⟩
    · intro msg order horder
      exact nomatch hwriting.symm.trans horder
  | rmConn c => exact inv_rmConn hs hstep
  | write msg order => exact inv_write hs hstep
  | done => exact inv_done hs hstep
  | send => exact inv_visit (f := fun topics sub msg => sub.send topics msg) hs hstep keeps_send
  | skip => exact inv_visit (f := fun _ sub msg => sub.discard msg) hs hstep keeps_discard
  | writeReturns =>
    simp only [step] at hstep
    split at hstep
    · rename_i msg hwriting
      cases hstep
      refine ⟨fun c sub hsub => ?_, nofun, hs.unclosed⟩
      obtain ⟨haccounted, hoffered, hunclosed⟩ := hs.sound c sub hsub
      exact ⟨by simpa [Pub.awaiting, hwriting] using haccounted, hoffered, hunclosed⟩
    all_goals cases hstep
  | take c => exact inv_sender hs hstep keeps_take
  | check c => exact inv_sender hs hstep keeps_check
  | sent c => exact inv_sender hs hstep keeps_sent
  | stop c => exact inv_sender hs hstep keeps_stop

end Steps

/-- Whatever the order of events, `SendMsg` gets a subsequence of what was written, each
subscriber is accounted for, and nothing is sent on a closed queue. -/
theorem messages_fannedOut (actions : List Action) : Always step FannedOut newPub actions := by
  have hstart : Inv newPub := ⟨nofun, nofun, rfl⟩
  apply always_of_kept (K := fun _ _ => True) (fun s action s' hs _ => inv_step s action s' hs) _
    hstart (throughout_of_forall (fun _ _ _ => trivial) _)
  intro s hs
  refine ⟨fun c sub hsub => ?_, fun c sub hsub => (hs.sound c sub hsub).accounted, hs.unclosed⟩
  exact (handed_sublist (hs.sound c sub hsub).accounted).trans (hs.sound c sub hsub).offered

def lateSubscription : List Action :=
  [.addConn 0, .write (newMsgFrom [ascii "t"]) [0], .send, .writeReturns, .take 0,
    .subscribe 0 (topicMsg true (ascii "t")), .check 0]

theorem lateSubscription_handed :
    ∃ s sub, run step newPub lateSubscription = some s ∧ s.subs 0 = some sub ∧
      sub.handed = [newMsgFrom [ascii "t"]] ∧
      ∃ check ∈ sub.checks, check.handed = true ∧
        subscribed check.taken (topic check.msg) = false := by
  refine ⟨_, _, rfl, rfl, by decide, _, List.mem_singleton_self _, ?_, ?_⟩
  · decide
  · decide

end Zmq4.PubFanOut
