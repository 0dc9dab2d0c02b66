import Zmq4.ActionRuns
import Zmq4.SocketReaders

namespace Zmq4.XPubForwarding

open ByteCodec ActionRuns ZmtpMessage
open DuplexProgram (Err)
open SocketReaders hiding listen

/-- What a call of `Recv` returns, and the connection its message has come from, if it
has received one. -/
structure Result where
  msg : Msg
  err : Option Err
  source : Option Nat

def qrsize : Nat := 10

/-- Connections are numbers.  `incoming` has what `Conn.read` will return, `held` the
message that a listener is about to put on the channel, and `handled` those that the
listener of a connection has looked at. -/
structure XPub where
  incoming : Nat → List Msg
  connected : Nat → Bool
  listening : Nat → Bool
  topics : Nat → Finset Bytes
  held : Nat → Option Msg
  channel : List (Nat × Msg)
  enabled : Bool
  done : Bool
  handled : Nat → List Msg
  results : List Result

/-- The peers send the given messages, on whatever connections they will have. -/
def newXPub (incoming : Nat → List Msg) : XPub where
  incoming := incoming
  connected _ := false
  listening _ := false
  topics _ := ∅
  held _ := none
  channel := []
  enabled := false
  done := false
  handled _ := []
  results := []

/-- `recv` is a call of `Recv` that takes a message from the channel, `recvDone` one that
finds the context done. -/
inductive Action where
  | addConn (c : Nat)
  | listen (c : Nat)
  | put (c : Nat)
  | recv
  | recvDone
  | close

def zeroMsg : Msg where
  frames := []
  msgType := .usrMsg
  multipart := false
  err := none

def hear (s : XPub) (c : Nat) (msg : Msg) (rest : List Msg) : XPub :=
  if s.done then
    { s with
      incoming := Function.update s.incoming c rest
      listening := Function.update s.listening c false }
  else
    let heard := pubQReader.handle msg { queue := [], topics := s.topics c }
    { s with
      incoming := Function.update s.incoming c rest
      listening := Function.update s.listening c heard.2
      topics := Function.update s.topics c heard.1.topics
      held := Function.update s.held c heard.1.queue.head?
      handled := Function.update s.handled c
        (s.handled c ++ if msg.err.isSome then [] else [msg]) }

def step (s : XPub) : Action → Option XPub
  | .addConn c =>
    if s.connected c then none
    else some { s with
      connected := Function.update s.connected c true
      listening := Function.update s.listening c true
      enabled := true }
  | .listen c =>
    if s.listening c ∧ (s.held c).isNone then
      match s.incoming c with
      | [] => none
      | msg :: rest => some (hear s c msg rest)
    else none
  | .put c =>
    if s.channel.length < qrsize then
      (s.held c).map fun msg =>
        { s with channel := s.channel ++ [(c, msg)], held := Function.update s.held c none }
    else none
  | .recv =>
    if s.enabled ∨ s.done then
      match s.channel with
      | [] => none
      | (c, msg) :: rest =>
        some { s with
          channel := rest
          results := s.results ++ [{ msg := msg, err := msg.err, source := some c }] }
    else none
  | .recvDone =>
    if s.done then
      some { s with
        results := s.results ++ [{ msg := zeroMsg, err := zeroMsg.err, source := none }] }
    else none
  | .close => some { s with done := true }

namespace XPub

def returnedFrom (s : XPub) (c : Nat) : List Msg :=
  (s.results.filter fun result => result.source = some c).map Result.msg

def onTheWay (s : XPub) (c : Nat) : List Msg :=
  (s.channel.filter fun entry => entry.1 = c).map Prod.snd ++ (s.held c).toList

end XPub

def topicsAfter (msgs : List Msg) : Finset Bytes :=
  msgs.foldl (fun topics msg => if isTopic msg then subscribe msg topics else topics) ∅

/-- The subscriptions have changed the topics, all messages of each connection have been
returned in their order or are about to be, and `Recv` has succeeded only with one. -/
structure Forwards (s : XPub) : Prop where
  updated : ∀ c, s.topics c = topicsAfter (s.handled c)
  forwarded : ∀ c, s.returnedFrom c ++ s.onTheWay c = s.handled c
  received : ∀ result ∈ s.results, result.err = none → result.source ≠ none

/-- No subscription is looked at, and no call of `Recv` finds the socket closed. -/
def NoneLost (s : XPub) : Action → Prop
  | .listen c =>
    s.done = false → ∀ msg ∈ (s.incoming c).head?, msg.err = none → isTopic msg = false
  | .recvDone => False
  | _ => True

instance : (s : XPub) → (action : Action) → Decidable (NoneLost s action)
  | s, .listen c => inferInstanceAs (Decidable (s.done = false → ∀ msg ∈ (s.incoming c).head?, _))
  | _, .recvDone => inferInstanceAs (Decidable False)
  | _, .addConn _ | _, .put _ | _, .recv | _, .close => inferInstanceAs (Decidable True)

section Steps

variable {s t : XPub}

variable {c : Nat} {msg : Msg}

theorem hear_eq (hdone : s.done = false) (herr : msg.err = none) (rest : List Msg) :
    hear s c msg rest =
      { s with
        incoming := Function.update s.incoming c rest
        listening := Function.update s.listening c true
        topics := Function.update s.topics c
          (if isTopic msg then subscribe msg (s.topics c) else s.topics c)
        held := Function.update s.held c (if isTopic msg then none else some msg)
        handled := Function.update s.handled c (s.handled c ++ [msg]) } := by
  cases htopic : isTopic msg with
  | true => simp [hear, hdone, pubQReader, untilError, herr, htopic]
  | false => simp [hear, hdone, pubQReader, untilError, herr, htopic, Listening.push]

theorem hear_ends (hends : s.done = true ∨ msg.err ≠ none) (hheld : s.held c = none)
    (rest : List Msg) :
    (hear s c msg rest).topics = s.topics ∧ (hear s c msg rest).held = s.held ∧
      (hear s c msg rest).handled = s.handled ∧ (hear s c msg rest).channel = s.channel ∧
      (hear s c msg rest).results = s.results := by
  rcases hdone : s.done with _ | _
  · have herr : msg.err.isSome := by
      rcases hends with hends | hends
      · rw [hdone] at hends
        contradiction
      · exact Option.isSome_iff_ne_none.mpr hends
    simp [hear, hdone, pubQReader, untilError, herr, ← hheld]
  · simp [hear, hdone]

theorem forwards_congr (hs : Forwards s) (htopics : t.topics = s.topics)
    (hresults : t.results = s.results) (hchannel : t.channel = s.channel) (hheld : t.held = s.held)
    (hhandled : t.handled = s.handled) : Forwards t where
  updated c := by
    rw [htopics, hhandled]
    exact hs.updated c
  forwarded c := by
    rw [XPub.returnedFrom, XPub.onTheWay, hresults, hchannel, hheld, hhandled]
    exact hs.forwarded c
  received := by
    rw [hresults]
    exact hs.received

theorem forwards_hear_iff (hs : Forwards s) {rest : List Msg} (hheld : s.held c = none)
    (hdone : s.done = false) (herr : msg.err = none) :
    Forwards (hear s c msg rest) ↔ isTopic msg = false := by
  rw [hear_eq hdone herr]
  have hbefore := hs.forwarded c
  constructor
  · intro ht
    by_contra htopic
    rw [Bool.not_eq_false] at htopic
    have hafter := ht.forwarded c
    simp only [XPub.returnedFrom, XPub.onTheWay, Function.update_self, htopic, if_true] at hafter
    rw [XPub.returnedFrom, XPub.onTheWay, hheld] at hbefore
    rw [hbefore] at hafter
    simp at hafter
  · intro htopic
    refine ⟨?_, ?_, hs.received⟩
    · intro other
      by_cases hother : other = c
      · subst hother
        simp [topicsAfter, List.foldl_append, htopic, hs.updated]
      · simp [hother, hs.updated]
    · intro other
      by_cases hother : other = c
      · subst hother
        rw [XPub.returnedFrom, XPub.onTheWay, hheld] at hbefore
        simp [XPub.returnedFrom, XPub.onTheWay, htopic, ← hbefore]
      · simpa [XPub.returnedFrom, XPub.onTheWay, hother] using hs.forwarded other

theorem forwards_put (hs : Forwards s) (hheld : s.held c = some msg) :
    Forwards { s with
      channel := s.channel ++ [(c, msg)]
      held := Function.update s.held c none } := by
  refine ⟨hs.updated, ?_, hs.received⟩
  intro other
  have hbefore := hs.forwarded other
  rw [XPub.returnedFrom, XPub.onTheWay] at hbefore ⊢
  by_cases hother : other = c
  · subst hother
    simpa [List.filter_append, hheld] using hbefore
  · simpa [List.filter_append, hother, Ne.symm hother] using hbefore

theorem forwards_recv (hs : Forwards s) {rest : List (Nat × Msg)}
    (hchannel : s.channel = (c, msg) :: rest) :
    Forwards { s with
      channel := rest
      results := s.results ++ [{ msg := msg, err := msg.err, source := some c }] } := by
  refine ⟨hs.updated, ?_, ?_⟩
  · intro other
    have hbefore := hs.forwarded other
    rw [XPub.returnedFrom, XPub.onTheWay, hchannel] at hbefore
    rw [XPub.returnedFrom, XPub.onTheWay]
    by_cases hother : c = other
    · simpa [List.filter_append, List.filter_cons, hother] using hbefore
    · simpa [List.filter_append, List.filter_cons, hother] using hbefore
  · refine List.forall_mem_append.mpr ⟨hs.received, List.forall_mem_singleton.mpr ?_⟩
    exact fun _ => Option.some_ne_none c

theorem forwards_step_iff {action : Action} (hs : Forwards s) (hstep : step s action = some t) :
    Forwards t ↔ NoneLost s action := by
  cases action with
  | addConn c =>
    obtain ⟨-, ⟨⟩⟩ := Option.ite_none_left_eq_some.mp hstep
    exact iff_of_true (forwards_congr hs rfl rfl rfl rfl rfl) trivial
  | listen c =>
    obtain ⟨⟨-, hheld⟩, hheard⟩ := Option.ite_none_right_eq_some.mp hstep
    rw [Option.isNone_iff_eq_none] at hheld
    split at hheard
    · contradiction
    · next msg rest hincoming =>
        obtain rfl := Option.some.inj hheard
        by_cases hends : s.done = true ∨ msg.err ≠ none
        · obtain ⟨htopics, hheld', hhandled, hchannel, hresults⟩ := hear_ends hends hheld rest
          refine iff_of_true (forwards_congr hs htopics hresults hchannel hheld' hhandled) ?_
          intro hdone msg' hmsg' herr
          obtain rfl : msg = msg' := by simpa [hincoming] using hmsg'
          rcases hends with hends | hends
          · rw [hdone] at hends
            contradiction
          · exact absurd herr hends
        · simp only [not_or, Bool.not_eq_true, not_not] at hends
          rw [forwards_hear_iff hs hheld hends.1 hends.2, NoneLost, hincoming]
          simp [hends]
  | put c =>
    obtain ⟨-, hput⟩ := Option.ite_none_right_eq_some.mp hstep
    obtain ⟨msg, hheld, rfl⟩ := Option.map_eq_some_iff.mp hput
    exact iff_of_true (forwards_put hs hheld) trivial
  | recv =>
    obtain ⟨-, hrecv⟩ := Option.ite_none_right_eq_some.mp hstep
    split at hrecv
    · contradiction
    · next c msg rest hchannel =>
        obtain rfl := Option.some.inj hrecv
        exact iff_of_true (forwards_recv hs hchannel) trivial
  | recvDone =>
    obtain ⟨-, ⟨⟩⟩ := Option.ite_none_right_eq_some.mp hstep
    refine iff_of_false (fun ht => ?_) id
    exact ht.received _ (List.mem_append_right _ (List.mem_singleton_self _)) rfl rfl
  | close =>
    cases hstep
    exact iff_of_true (forwards_congr hs rfl rfl rfl rfl rfl) trivial

theorem forwards_newXPub (incoming : Nat → List Msg) : Forwards (newXPub incoming) where
  updated _ := rfl
  forwarded _ := rfl
  received _ hresult := absurd hresult List.not_mem_nil

/-- Messages come from connections, and the first of them lets `Recv` through. -/
structure Ready (s : XPub) : Prop where
  listens : ∀ c, s.listening c = true → s.enabled = true
  holds : ∀ c, s.held c ≠ none → s.enabled = true
  queues : s.channel ≠ [] → s.enabled = true

theorem ready_hear (hs : Ready s) (hlistens : s.listening c = true) (msg : Msg) (rest : List Msg) :
    Ready (hear s c msg rest) := by
  have henabled : (hear s c msg rest).enabled = true := by
    rw [hear]
    split
    · exact hs.listens c hlistens
    · exact hs.listens c hlistens
  exact ⟨fun _ _ => henabled, fun _ _ => henabled, fun _ => henabled⟩

theorem ready_step {action : Action} (hs : Ready s) (hstep : step s action = some t) :
    Ready t := by
  cases action with
  | addConn c =>
    obtain ⟨-, ⟨⟩⟩ := Option.ite_none_left_eq_some.mp hstep
    exact ⟨fun _ _ => rfl, fun _ _ => rfl, fun _ => rfl⟩
  | listen c =>
    obtain ⟨⟨hlistens, -⟩, hheard⟩ := Option.ite_none_right_eq_some.mp hstep
    split at hheard
    · contradiction
    · obtain rfl := Option.some.inj hheard
      exact ready_hear hs hlistens _ _
  | put c =>
    obtain ⟨-, hput⟩ := Option.ite_none_right_eq_some.mp hstep
    obtain ⟨msg, hheld, rfl⟩ := Option.map_eq_some_iff.mp hput
    have henabled : s.enabled = true := hs.holds c (by simp [hheld])
    exact ⟨hs.listens, fun _ _ => henabled, fun _ => henabled⟩
  | recv =>
    obtain ⟨-, hrecv⟩ := Option.ite_none_right_eq_some.mp hstep
    split at hrecv
    · contradiction
    · next c msg rest hchannel =>
        obtain rfl := Option.some.inj hrecv
        exact ⟨hs.listens, hs.holds, fun _ => hs.queues (by simp [hchannel])⟩
  | recvDone =>
    obtain ⟨-, ⟨⟩⟩ := Option.ite_none_right_eq_some.mp hstep
    exact { hs with }
  | close =>
    cases hstep
    exact { hs with }

theorem exists_progress (hready : Ready s) (hs : Forwards s) (hwaits : s.onTheWay c ≠ []) :
    ∃ action t, step s action = some t ∧ (Ready t ∧ Forwards t ∧ t.handled = s.handled) ∧
      2 * t.channel.length + 3 * (t.held c).toList.length <
        2 * s.channel.length + 3 * (s.held c).toList.length := by
  rcases hchannel : s.channel with _ | ⟨⟨first, msg⟩, rest⟩
  · obtain ⟨msg, hheld⟩ : ∃ msg, s.held c = some msg := by
      rw [XPub.onTheWay, hchannel] at hwaits
      apply Option.ne_none_iff_exists'.mp
      rintro hnone
      simp [hnone] at hwaits
    have hstep : step s (.put c) = some
        { s with channel := s.channel ++ [(c, msg)], held := Function.update s.held c none } := by
      simp [step, hchannel, hheld, qrsize]
    refine ⟨.put c, _, hstep, ⟨ready_step hready hstep, forwards_put hs hheld, rfl⟩, ?_⟩
    simp [hchannel, hheld]
  · have hstep : step s .recv = some
        { s with
          channel := rest
          results := s.results ++ [{ msg := msg, err := msg.err, source := some first }] } := by
      simp [step, hchannel, hready.queues]
    refine ⟨.recv, _, hstep, ⟨ready_step hready hstep, forwards_recv hs hchannel, rfl⟩, ?_⟩
    simp only [List.length_cons]
    omega

end Steps

/-- An XPUB socket forwards what it gets if and only if it gets no subscription and is not
closed under a call of `Recv`. -/
theorem forwards_iff {incoming : Nat → List Msg} {actions : List Action} {s : XPub}
    (hrun : run step (newXPub incoming) actions = some s) :
    (Always step Forwards (newXPub incoming) actions ↔
      Throughout step NoneLost (newXPub incoming) actions) ∧
    (Throughout step NoneLost (newXPub incoming) actions →
      ∀ c, ∃ later t, run step s later = some t ∧ t.handled c = s.handled c ∧
        t.returnedFrom c = t.handled c) := by
  have hiff := always_iff_throughout (J := fun _ => True) (fun _ _ _ _ _ _ => trivial)
    (fun _ _ _ _ hs hstep => forwards_step_iff hs hstep) trivial (forwards_newXPub incoming) hrun
  refine ⟨hiff, ?_⟩
  intro hlost c
  have hready : Ready s := run_keeps (fun _ _ _ => ready_step)
    ⟨fun _ hlistens => (by cases hlistens), fun _ hheld => absurd rfl hheld,
      fun hchannel => absurd rfl hchannel⟩ hrun
  have hs : Forwards s := run_keeps_of_throughout
    (fun _ _ _ hs hC hstep => (forwards_step_iff hs hstep).mpr hC) hlost
    (forwards_newXPub incoming) hrun
  obtain ⟨actions, t, hrun, ⟨-, ht, hhandled⟩, hnone⟩ := exists_run_of_measure
    (fun t => Ready t ∧ Forwards t ∧ t.handled = s.handled) (fun t => t.onTheWay c = [])
    (fun t => 2 * t.channel.length + 3 * (t.held c).toList.length)
    (by
      rintro t ⟨htready, ht, hhandled⟩ hwaits
      obtain ⟨action, t', hstep, ⟨hready', ht', hhandled'⟩, hlt⟩ :=
        exists_progress htready ht hwaits
      exact ⟨action, t', hstep, ⟨hready', ht', hhandled'.trans hhandled⟩, hlt⟩)
    ⟨hready, hs, rfl⟩
  refine ⟨actions, t, hrun, congrFun hhandled c, ?_⟩
  have hforwarded := ht.forwarded c
  rwa [hnone, List.append_nil] at hforwarded

def plainRun : List Action :=
  [.addConn 0, .listen 0, .put 0, .recv]

theorem forwards_plainRun :
    ∃ s, run step (newXPub fun _ => [newMsgFrom [[97]]]) plainRun = some s ∧
      Always step Forwards (newXPub fun _ => [newMsgFrom [[97]]]) plainRun := by
  have hlost : Throughout step NoneLost (newXPub fun _ => [newMsgFrom [[97]]]) plainRun := by
    decide
  have hforwards : ∀ s, run step (newXPub fun _ => [newMsgFrom [[97]]]) plainRun = some s →
      Always step Forwards (newXPub fun _ => [newMsgFrom [[97]]]) plainRun :=
    fun s hrun => (forwards_iff hrun).1.mpr hlost
  exact ⟨_, rfl, hforwards _ rfl⟩

/-- A peer subscribes, and the socket is closed while `Recv` waits for the
subscription. -/
theorem subscription_kept_back :
    ∃ s, run step (newXPub fun _ => [newMsgFrom [[1, 97]]])
        [.addConn 0, .listen 0, .close, .recvDone] = some s ∧
      s.handled 0 = [newMsgFrom [[1, 97]]] ∧ s.topics 0 = {[97]} ∧ s.channel = [] ∧
      s.held 0 = none ∧ s.results = [{ msg := newMsgFrom [], err := none, source := none }] :=
  ⟨_, rfl, rfl, rfl, rfl, rfl, rfl⟩

end Zmq4.XPubForwarding
