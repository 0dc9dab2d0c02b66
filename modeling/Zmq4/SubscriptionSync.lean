import Mathlib.Data.Finset.Sort
import Mathlib.Data.List.Lex
import Zmq4.ActionRuns
import Zmq4.SocketReaders

namespace Zmq4.SubscriptionSync

open ActionRuns ByteCodec ZmtpMessage SocketReaders

def topicLE (a b : Bytes) : Prop :=
  a.map UInt8.toNat ≤ b.map UInt8.toNat

instance : DecidableRel topicLE :=
  fun _ _ => inferInstanceAs (Decidable (_ ≤ _))

instance : IsTrans Bytes topicLE where
  trans _ _ _ := le_trans

instance : Std.Total topicLE where
  total _ _ := le_total _ _

instance : Std.Antisymm topicLE where
  antisymm _ _ hab hba :=
    List.map_injective_iff.mpr (fun _ _ => UInt8.toNat_inj.mp) (le_antisymm hab hba)

def sortedTopics (topics : Finset Bytes) : List Bytes :=
  topics.sort topicLE

def subscribed (topics : Finset Bytes) (topic : Bytes) : Bool :=
  decide (∃ k ∈ topics, k = [] ∨ k.isPrefixOf topic = true)

def topicMsg (on : Bool) (topic : Bytes) : Msg :=
  newMsgFrom [(if on then 1 else 0) :: topic]

def subSubscribe (on : Bool) (topic : Bytes) (topics : Finset Bytes) : Finset Bytes :=
  if on then insert topic topics else topics.erase topic

/-- A connection of the SUB socket: the messages on their way, and the topics of
the connection at the publisher. -/
structure Link where
  frames : List Msg
  topics : Finset Bytes

def Link.fresh : Link where
  frames := []
  topics := ∅

def Link.write (link : Link) (msg : Msg) : Link :=
  { link with frames := link.frames ++ [msg] }

/-- Where the application thread is in `SetOption`.  `sending` has the
connections that `mwriter.write` has not yet written to. -/
inductive Thread where
  | idle
  | updated (msg : Msg)
  | sending (msg : Msg) (left : Finset Nat)

/-- Where `addConn` is, for the connection added last.  `replaying` lists the
topics it has not yet sent. -/
inductive Adding where
  | idle
  | locked
  | replaying (left : List Bytes)

structure SubSocket where
  topics : Finset Bytes
  links : List Link
  thread : Thread
  adding : Adding

def SubSocket.start : SubSocket where
  topics := ∅
  links := []
  thread := .idle
  adding := .idle

inductive Action where
  | setOption (on : Bool) (topic : Bytes)
  | send
  | write (i : Nat)
  | sent
  | addConn
  | snapshot
  | replay
  | added
  | deliver (i : Nat)

namespace SubSocket

def setOption (s : SubSocket) (on : Bool) (topic : Bytes) : Option SubSocket :=
  match s.thread with
  | .idle =>
    some { s with
      topics := subSubscribe on topic s.topics
      thread := .updated (topicMsg on topic) }
  | _ => none

def send (s : SubSocket) : Option SubSocket :=
  match s.thread, s.adding with
  | .updated msg, .idle =>
    some { s with
      thread :=
        if s.links.length > 0 then .sending msg (Finset.range s.links.length) else .idle }
  | _, _ => none

def write (s : SubSocket) (i : Nat) : Option SubSocket :=
  match s.thread with
  | .sending msg left =>
    if i ∈ left then
      some { s with
        links := s.links.modify i fun link => link.write msg
        thread := .sending msg (left.erase i) }
    else none
  | _ => none

def sent (s : SubSocket) : Option SubSocket :=
  match s.thread with
  | .sending _ left => if left = ∅ then some { s with thread := .idle } else none
  | _ => none

def addConn (s : SubSocket) : Option SubSocket :=
  match s.thread, s.adding with
  | .sending _ _, _ => none
  | _, .idle => some { s with links := s.links ++ [Link.fresh], adding := .locked }
  | _, _ => none

def snapshot (s : SubSocket) : Option SubSocket :=
  match s.adding with
  | .locked => some { s with adding := .replaying (sortedTopics s.topics) }
  | _ => none

def replay (s : SubSocket) : Option SubSocket :=
  match s.adding with
  | .replaying (topic :: left) =>
    some { s with
      links := s.links.modify (s.links.length - 1) fun link => link.write (topicMsg true topic)
      adding := .replaying left }
  | _ => none

def added (s : SubSocket) : Option SubSocket :=
  match s.adding with
  | .replaying [] => some { s with adding := .idle }
  | _ => none

end SubSocket

def Link.deliver (link : Link) : Option Link :=
  match link.frames with
  | [] => none
  | msg :: rest =>
    let st := (pubQReader.handle msg { queue := [], topics := link.topics }).1
    some { frames := rest, topics := st.topics }

def SubSocket.deliver (s : SubSocket) (i : Nat) : Option SubSocket :=
  match s.links[i]? with
  | none => none
  | some link =>
    match link.deliver with
    | none => none
    | some link' => some { s with links := s.links.set i link' }

def step (s : SubSocket) : Action → Option SubSocket
  | .setOption on topic => s.setOption on topic
  | .send => s.send
  | .write i => s.write i
  | .sent => s.sent
  | .addConn => s.addConn
  | .snapshot => s.snapshot
  | .replay => s.replay
  | .added => s.added
  | .deliver i => s.deliver i

variable {msg : Msg}

section Messages

theorem subscribe_topicMsg (on : Bool) (topic : Bytes) (topics : Finset Bytes) :
    subscribe (topicMsg on topic) topics = subSubscribe on topic topics := by
  cases on with
  | false | true => rfl

def applyAll (msgs : List Msg) (topics : Finset Bytes) : Finset Bytes :=
  msgs.foldl (fun topics msg => subscribe msg topics) topics

theorem applyAll_append (first second : List Msg) (topics : Finset Bytes) :
    applyAll (first ++ second) topics = applyAll second (applyAll first topics) :=
  List.foldl_append

theorem applyAll_replay (left : List Bytes) (topics : Finset Bytes) :
    applyAll (left.map (topicMsg true)) topics = topics ∪ left.toFinset := by
  induction left generalizing topics with
  | nil => exact (Finset.union_empty topics).symm
  | cons topic left ih =>
    have hfirst : subscribe (topicMsg true topic) topics = insert topic topics :=
      subscribe_topicMsg true topic topics
    change applyAll (left.map (topicMsg true)) (subscribe (topicMsg true topic) topics) = _
    rw [hfirst, ih, List.toFinset_cons, Finset.insert_union, Finset.union_insert]

theorem applyAll_sortedTopics (topics : Finset Bytes) :
    applyAll ((sortedTopics topics).map (topicMsg true)) ∅ = topics := by
  rw [applyAll_replay, Finset.empty_union, sortedTopics, Finset.sort_toFinset]

theorem Link.deliver_eq {link : Link} {rest : List Msg} (hframes : link.frames = msg :: rest)
    (herr : msg.err = none) (htopic : isTopic msg = true) :
    link.deliver = some { frames := rest, topics := subscribe msg link.topics } := by
  simp [Link.deliver, hframes, pubQReader, untilError, herr, htopic]

end Messages

def Thread.pending : Thread → Nat → List Msg
  | .idle, _ => []
  | .updated msg, _ => [msg]
  | .sending msg left, i => if i ∈ left then [msg] else []

def Adding.replays (topics : Finset Bytes) : Adding → List Bytes
  | .idle => []
  | .locked => sortedTopics topics
  | .replaying left => left

def SubSocket.owed (s : SubSocket) (i : Nat) : List Msg :=
  (if i + 1 = s.links.length then (s.adding.replays s.topics).map (topicMsg true) else []) ++
    s.thread.pending i

def IsTopicMsg (msg : Msg) : Prop :=
  msg.err = none ∧ isTopic msg = true

/-- Each connection will have the socket's topics once it has got all messages
that are on their way or still to be written. -/
structure Synced (s : SubSocket) : Prop where
  links : ∀ (i : Nat) (link : Link), s.links[i]? = some link →
    applyAll (link.frames ++ s.owed i) link.topics = s.topics
  fresh : s.adding = .locked → ∀ (i : Nat) (link : Link), s.links[i]? = some link →
    i + 1 = s.links.length → link = Link.fresh
  wire : ∀ (i : Nat) (link : Link), s.links[i]? = some link → ∀ msg ∈ link.frames, IsTopicMsg msg
  pending : ∀ i, ∀ msg ∈ s.thread.pending i, IsTopicMsg msg ∧ subscribe msg s.topics = s.topics
  lock : ∀ msg left, s.thread = .sending msg left → s.adding = .idle

section Steps

variable {s s' : SubSocket}

theorem synced_start : Synced SubSocket.start := by
  constructor <;> simp [SubSocket.start, Thread.pending]

theorem isTopicMsg_topicMsg (on : Bool) (topic : Bytes) : IsTopicMsg (topicMsg on topic) :=
  ⟨rfl, by cases on <;> rfl⟩

theorem Synced.applyAll_pending (hs : Synced s) (i : Nat) :
    applyAll (s.thread.pending i) s.topics = s.topics := by
  have hpending := hs.pending i
  generalize s.thread.pending i = msgs at hpending
  induction msgs with
  | nil => rfl
  | cons msg msgs ih =>
    obtain ⟨hmsg, hmsgs⟩ := List.forall_mem_cons.mp hpending
    change applyAll msgs (subscribe msg s.topics) = s.topics
    rw [hmsg.2, ih hmsgs]

variable {links : List Link} {i : Nat} {msg : Msg} {link : Link}

theorem getElem?_modify_write {j : Nat}
    (hlink : (links.modify i fun link => link.write msg)[j]? = some link) :
    ∃ old, links[j]? = some old ∧ (i = j ∧ link = old.write msg ∨ i ≠ j ∧ link = old) := by
  rw [List.getElem?_modify] at hlink
  obtain ⟨old, hold, rfl⟩ := Option.map_eq_some_iff.mp hlink
  refine ⟨old, hold, ?_⟩
  by_cases hij : i = j
  · exact Or.inl ⟨hij, if_pos hij⟩
  · exact Or.inr ⟨hij, if_neg hij⟩

theorem getElem?_concat_eq_some {last : Link} (hlink : (links ++ [last])[i]? = some link) :
    i < links.length ∧ links[i]? = some link ∨ i = links.length ∧ link = last := by
  rcases Nat.lt_trichotomy i links.length with hlt | rfl | hgt
  · rw [List.getElem?_append_left hlt] at hlink
    exact Or.inl ⟨hlt, hlink⟩
  · rw [List.getElem?_concat_length] at hlink
    exact Or.inr ⟨rfl, (Option.some_inj.mp hlink).symm⟩
  · have hlength : (links ++ [last]).length = links.length + 1 := by simp
    rw [List.getElem?_eq_none (by omega)] at hlink
    cases hlink

theorem getElem?_set_eq_some {j : Nat} {after : Link} (hi : i < links.length)
    (hlink : (links.set i after)[j]? = some link) :
    i = j ∧ link = after ∨ links[j]? = some link := by
  rw [List.getElem?_set] at hlink
  split at hlink
  · rename_i hij
    exact Or.inl ⟨hij, (Option.some_inj.mp hlink).symm⟩
  · exact Or.inr hlink

theorem Synced.wire_write (hs : Synced s) {j : Nat} (hmsg : IsTopicMsg msg)
    (hlink : (s.links.modify i fun link => link.write msg)[j]? = some link) :
    ∀ other ∈ link.frames, IsTopicMsg other := by
  obtain ⟨old, hold, ⟨-, rfl⟩ | ⟨-, rfl⟩⟩ := getElem?_modify_write hlink
  · exact List.forall_mem_append.mpr ⟨hs.wire j old hold, List.forall_mem_singleton.mpr hmsg⟩
  · exact hs.wire j link hold

theorem eq_of_mem_pending_sending {other : Msg} {left : Finset Nat}
    (hother : other ∈ (Thread.sending msg left).pending i) : other = msg := by
  simp only [Thread.pending] at hother
  split at hother
  · exact List.mem_singleton.mp hother
  · cases hother

theorem Synced.setOption (hs : Synced s) {on : Bool} {topic : Bytes}
    (hstep : s.setOption on topic = some s') : Synced s' := by
  unfold SubSocket.setOption at hstep
  split at hstep
  · rename_i hidle
    cases hstep
    have hsame : subscribe (topicMsg on topic) (subSubscribe on topic s.topics) =
        subSubscribe on topic s.topics := by
      cases on with
      | false => exact Finset.erase_idem
      | true => exact Finset.insert_idem topic s.topics
    refine { hs with links := ?_, pending := ?_, lock := by simp }
    · intro i link hlink
      have hlater := hs.links i link hlink
      rw [SubSocket.owed, hidle] at hlater
      simp only [SubSocket.owed, Thread.pending, List.append_nil] at hlater ⊢
      rw [← List.append_assoc, applyAll_append]
      by_cases hlocked : i + 1 = s.links.length ∧ s.adding = .locked
      · obtain ⟨hlast, hlocked⟩ := hlocked
        obtain rfl := hs.fresh hlocked i link hlink hlast
        simp only [hlast, hlocked, if_true, Adding.replays, Link.fresh, List.nil_append,
          applyAll_sortedTopics]
        exact hsame
      · have hreplays : (if i + 1 = s.links.length then
            (s.adding.replays (subSubscribe on topic s.topics)).map (topicMsg true) else []) =
            if i + 1 = s.links.length then
              (s.adding.replays s.topics).map (topicMsg true) else [] := by
          split
          · rename_i hlast
            cases hadding : s.adding with
            | idle | replaying => rfl
            | locked => exact absurd ⟨hlast, hadding⟩ hlocked
          · rfl
        rw [hreplays, hlater]
        exact subscribe_topicMsg on topic s.topics
    · intro i msg hmsg
      obtain rfl := List.mem_singleton.mp hmsg
      exact ⟨isTopicMsg_topicMsg on topic, hsame⟩
  · cases hstep

theorem Synced.send (hs : Synced s) (hstep : s.send = some s') : Synced s' := by
  unfold SubSocket.send at hstep
  split at hstep
  · rename_i msg hupdated hidle
    cases hstep
    have hmsg := hs.pending 0 msg (by simp [hupdated, Thread.pending])
    refine { hs with links := ?_, pending := ?_, lock := fun _ _ _ => hidle }
    · intro i link hlink
      have hlater := hs.links i link hlink
      obtain ⟨hi, -⟩ := List.getElem?_eq_some_iff.mp (show s.links[i]? = some link from hlink)
      have hne : s.links.length > 0 := by omega
      simpa [SubSocket.owed, hidle, hupdated, Adding.replays, Thread.pending, hne, hi] using hlater
    · intro i other hother
      by_cases hne : s.links.length > 0
      · simp only [hne, if_true] at hother
        rw [eq_of_mem_pending_sending hother]
        exact hmsg
      · simp only [hne, if_false] at hother
        cases hother
  · cases hstep

theorem Synced.write (hs : Synced s) (hstep : s.write i = some s') : Synced s' := by
  unfold SubSocket.write at hstep
  split at hstep
  · rename_i msg left hsending
    split at hstep
    · rename_i hi
      cases hstep
      have hidle := hs.lock msg left hsending
      have hmsg := hs.pending i msg (by simp [hsending, Thread.pending, hi])
      constructor
      · intro j link hlink
        obtain ⟨old, hold, hcase⟩ := getElem?_modify_write hlink
        have hlater := hs.links j old hold
        simp only [SubSocket.owed, hidle, hsending, Adding.replays, List.map_nil, ite_self,
          List.nil_append, Thread.pending] at hlater ⊢
        rcases hcase with ⟨rfl, rfl⟩ | ⟨hij, rfl⟩
        · rw [if_pos hi] at hlater
          rw [if_neg (Finset.notMem_erase i left), List.append_nil]
          exact hlater
        · have hji : j ∈ left.erase i ↔ j ∈ left := by
            simp [Finset.mem_erase, Ne.symm hij]
          simp only [hji]
          exact hlater
      · intro hlocked
        rw [show s.adding = .locked from hlocked] at hidle
        cases hidle
      · intro j link hlink
        exact hs.wire_write hmsg.1 hlink
      · intro j other hother
        rw [eq_of_mem_pending_sending hother]
        exact hmsg
      · intro _ _ _
        exact hidle
    · cases hstep
  · cases hstep

theorem Synced.sent (hs : Synced s) (hstep : s.sent = some s') : Synced s' := by
  unfold SubSocket.sent at hstep
  split at hstep
  · rename_i msg left hsending
    split at hstep
    · rename_i hleft
      cases hstep
      refine { hs with links := ?_, pending := ?_, lock := by simp }
      · intro i link hlink
        have hlater := hs.links i link hlink
        simpa [SubSocket.owed, hsending, hleft, Thread.pending] using hlater
      · intro i other hother
        cases hother
    · cases hstep
  · cases hstep

theorem Synced.addConn (hs : Synced s) (hstep : s.addConn = some s') : Synced s' := by
  unfold SubSocket.addConn at hstep
  split at hstep
  · cases hstep
  · rename_i hidle hthread
    cases hstep
    refine { hs with links := ?_, fresh := ?_, wire := ?_, lock := ?_ }
    · intro i link hlink
      rcases getElem?_concat_eq_some hlink with ⟨hlt, hold⟩ | ⟨rfl, rfl⟩
      · have hlater := hs.links i link hold
        simp only [SubSocket.owed, hidle, Adding.replays, List.map_nil, ite_self,
          List.nil_append] at hlater
        have hnotlast : ¬ i + 1 = (s.links ++ [Link.fresh]).length := by
          rw [List.length_append, List.length_singleton]
          omega
        simp only [SubSocket.owed, hnotlast, if_false, List.nil_append]
        exact hlater
      · have hlast : s.links.length + 1 = (s.links ++ [Link.fresh]).length := by simp
        simp only [SubSocket.owed, hlast, if_true, Adding.replays, Link.fresh, List.nil_append]
        rw [applyAll_append, applyAll_sortedTopics]
        exact hs.applyAll_pending _
    · intro _ i link hlink hlast
      rcases getElem?_concat_eq_some hlink with ⟨hlt, -⟩ | ⟨-, rfl⟩
      · simp only [List.length_append, List.length_singleton] at hlast
        omega
      · rfl
    · intro i link hlink
      rcases getElem?_concat_eq_some hlink with ⟨-, hold⟩ | ⟨-, rfl⟩
      · exact hs.wire i link hold
      · intro msg hmsg
        cases hmsg
    · intro msg left hsending
      exact absurd hsending (hthread msg left)
  · cases hstep

theorem Synced.snapshot (hs : Synced s) (hstep : s.snapshot = some s') : Synced s' := by
  unfold SubSocket.snapshot at hstep
  split at hstep
  · rename_i hlocked
    cases hstep
    refine { hs with links := ?_, fresh := by simp, lock := ?_ }
    · intro i link hlink
      have hlater := hs.links i link hlink
      simpa [SubSocket.owed, hlocked, Adding.replays] using hlater
    · intro msg left hsending
      have hidle := hs.lock msg left hsending
      rw [hlocked] at hidle
      cases hidle
  · cases hstep

theorem Synced.replay (hs : Synced s) (hstep : s.replay = some s') : Synced s' := by
  unfold SubSocket.replay at hstep
  split at hstep
  · rename_i topic left hreplaying
    cases hstep
    refine { hs with links := ?_, fresh := by simp, wire := ?_, lock := ?_ }
    · intro j link hlink
      obtain ⟨old, hold, hcase⟩ := getElem?_modify_write hlink
      obtain ⟨hj, -⟩ := List.getElem?_eq_some_iff.mp hold
      have hlater := hs.links j old hold
      simp only [SubSocket.owed, hreplaying, Adding.replays, List.length_modify] at hlater ⊢
      rcases hcase with ⟨hlast, rfl⟩ | ⟨hother, rfl⟩
      · have hlast : j + 1 = s.links.length := by omega
        simp only [hlast, if_true, List.map_cons, Link.write, List.append_assoc] at hlater ⊢
        exact hlater
      · have hother : ¬ j + 1 = s.links.length := by omega
        simp only [hother, if_false] at hlater ⊢
        exact hlater
    · intro j link hlink
      exact hs.wire_write (isTopicMsg_topicMsg true topic) hlink
    · intro msg left hsending
      have hidle := hs.lock msg left hsending
      rw [hreplaying] at hidle
      cases hidle
  · cases hstep

theorem Synced.added (hs : Synced s) (hstep : s.added = some s') : Synced s' := by
  unfold SubSocket.added at hstep
  split at hstep
  · rename_i hreplaying
    cases hstep
    refine { hs with links := ?_, fresh := by simp, lock := fun _ _ _ => rfl }
    intro i link hlink
    have hlater := hs.links i link hlink
    simpa [SubSocket.owed, hreplaying, Adding.replays] using hlater
  · cases hstep

theorem Synced.deliver_eq (hs : Synced s) {rest : List Msg} (hlink : s.links[i]? = some link)
    (hframes : link.frames = msg :: rest) :
    s.deliver i = some { s with
      links := s.links.set i { frames := rest, topics := subscribe msg link.topics } } := by
  obtain ⟨herr, htopic⟩ := hs.wire i link hlink msg (by simp [hframes])
  simp only [SubSocket.deliver, hlink, Link.deliver_eq hframes herr htopic]

theorem Synced.deliver (hs : Synced s) (hstep : s.deliver i = some s') : Synced s' := by
  rcases hlink : s.links[i]? with _ | link
  · simp [SubSocket.deliver, hlink] at hstep
  rcases hframes : link.frames with _ | ⟨msg, rest⟩
  · simp [SubSocket.deliver, hlink, Link.deliver, hframes] at hstep
  rw [hs.deliver_eq hlink hframes] at hstep
  cases hstep
  obtain ⟨hi, -⟩ := List.getElem?_eq_some_iff.mp hlink
  refine { hs with links := ?_, fresh := ?_, wire := ?_ }
  · intro j other hother
    simp only [SubSocket.owed, List.length_set]
    rcases getElem?_set_eq_some hi hother with ⟨rfl, rfl⟩ | hold
    · have hlater := hs.links i link hlink
      rw [hframes] at hlater
      exact hlater
    · exact hs.links j other hold
  · intro hlocked j other hother hlast
    rw [List.length_set] at hlast
    rcases getElem?_set_eq_some hi hother with ⟨rfl, rfl⟩ | hold
    · have hfresh := hs.fresh hlocked i link hlink hlast
      rw [hfresh] at hframes
      cases hframes
    · exact hs.fresh hlocked j other hold hlast
  · intro j other hother
    rcases getElem?_set_eq_some hi hother with ⟨rfl, rfl⟩ | hold
    · intro old hold
      exact hs.wire i link hlink old (hframes ▸ List.mem_cons_of_mem msg hold)
    · exact hs.wire j other hold

theorem synced_step {action : Action} (hs : Synced s) (hstep : step s action = some s') :
    Synced s' := by
  cases action with
  | setOption on topic => exact hs.setOption hstep
  | send => exact hs.send hstep
  | write i => exact hs.write hstep
  | sent => exact hs.sent hstep
  | addConn => exact hs.addConn hstep
  | snapshot => exact hs.snapshot hstep
  | replay => exact hs.replay hstep
  | added => exact hs.added hstep
  | deliver i => exact hs.deliver hstep

end Steps

structure Settled (s : SubSocket) : Prop where
  thread : s.thread = .idle
  adding : s.adding = .idle
  wire : ∀ link ∈ s.links, link.frames = []

variable {s : SubSocket}

section Progress

def Thread.work (links : Nat) : Thread → Nat
  | .idle => 0
  | .updated _ => 2 * links + 2
  | .sending _ left => 2 * left.card + 1

def Adding.work (topics : Nat) : Adding → Nat
  | .idle => 0
  | .locked => 2 * topics + 2
  | .replaying left => 2 * left.length + 1

def onWire (links : List Link) : Nat :=
  (links.map fun link => link.frames.length).sum

def SubSocket.work (s : SubSocket) : Nat :=
  onWire s.links + s.thread.work s.links.length + s.adding.work s.topics.card

theorem onWire_modify_write (links : List Link) (i : Nat) (msg : Msg) :
    onWire (links.modify i fun link => link.write msg) ≤ onWire links + 1 := by
  induction links generalizing i with
  | nil => simp [onWire]
  | cons link links ih =>
    rcases i with _ | i
    · simp [onWire, Link.write]
      omega
    · have hrest := ih i
      simp only [onWire, List.modify_succ_cons, List.map_cons, List.sum_cons] at hrest ⊢
      omega

theorem onWire_set_lt {links : List Link} {i : Nat} (new : Link) {old : Link}
    (hold : links[i]? = some old) (hlt : new.frames.length < old.frames.length) :
    onWire (links.set i new) < onWire links := by
  induction links generalizing i with
  | nil => cases hold
  | cons link links ih =>
    rcases i with _ | i
    · obtain rfl : link = old := by simpa using hold
      simp only [onWire, List.set_cons_zero, List.map_cons, List.sum_cons]
      omega
    · have hrest := ih (i := i) (by simpa using hold)
      simp only [onWire, List.set_cons_succ, List.map_cons, List.sum_cons] at hrest ⊢
      omega

theorem exists_step_less (hs : Synced s) (hleft : ¬ Settled s) :
    ∃ action s', step s action = some s' ∧
      (s'.topics = s.topics ∧ s'.links.length = s.links.length) ∧ s'.work < s.work := by
  obtain ⟨topics, links, thread, adding⟩ := s
  cases adding with
  | locked =>
    refine ⟨.snapshot, _, rfl, ⟨rfl, rfl⟩, ?_⟩
    simp [SubSocket.work, Adding.work, sortedTopics]
  | replaying left =>
    rcases left with _ | ⟨topic, left⟩
    · refine ⟨.added, _, rfl, ⟨rfl, rfl⟩, ?_⟩
      simp [SubSocket.work, Adding.work]
    · refine ⟨.replay, _, rfl, ⟨rfl, List.length_modify _ _ _⟩, ?_⟩
      have hwire := onWire_modify_write links (links.length - 1) (topicMsg true topic)
      simp only [SubSocket.work, Adding.work, List.length_modify, List.length_cons]
      omega
  | idle =>
    cases thread with
    | updated msg =>
      refine ⟨.send, _, rfl, ⟨rfl, rfl⟩, ?_⟩
      simp only [SubSocket.work]
      split
      · simp [Thread.work]
      · simp [Thread.work]
    | sending msg left =>
      rcases left.eq_empty_or_nonempty with rfl | ⟨i, hi⟩
      · refine ⟨.sent, _, rfl, ⟨rfl, rfl⟩, ?_⟩
        simp [SubSocket.work, Thread.work]
      · refine ⟨.write i, _, if_pos hi, ⟨rfl, List.length_modify _ _ _⟩, ?_⟩
        have hwire := onWire_modify_write links i msg
        have hcard := Finset.card_erase_add_one hi
        simp only [SubSocket.work, Thread.work]
        omega
    | idle =>
      have hwaiting : ∃ link ∈ links, link.frames ≠ [] := by
        by_contra hnone
        push Not at hnone
        exact hleft ⟨rfl, rfl, hnone⟩
      obtain ⟨link, hmem, hne⟩ := hwaiting
      obtain ⟨i, hlink⟩ := List.mem_iff_getElem?.mp hmem
      obtain ⟨msg, rest, hframes⟩ := List.exists_cons_of_ne_nil hne
      refine ⟨.deliver i, _, hs.deliver_eq hlink hframes, ⟨rfl, List.length_set⟩, ?_⟩
      have hshorter : rest.length < link.frames.length := by simp [hframes]
      have hwire := onWire_set_lt ⟨rest, subscribe msg link.topics⟩ hlink hshorter
      simp only [SubSocket.work, List.length_set]
      omega

end Progress

theorem subscribed_iff (topics : Finset Bytes) (x : Bytes) :
    subscribed topics x = true ↔ ∃ topic ∈ topics, topic <+: x := by
  rw [subscribed, decide_eq_true_eq]
  refine exists_congr fun topic => and_congr_right fun _ => ?_
  rw [List.isPrefixOf_iff_prefix]
  constructor
  · rintro (rfl | hfront)
    · exact List.nil_prefix
    · exact hfront
  · exact Or.inr

theorem Synced.topics_eq (hs : Synced s) (hsettled : Settled s) {link : Link}
    (hmem : link ∈ s.links) : link.topics = s.topics := by
  obtain ⟨i, hlink⟩ := List.mem_iff_getElem?.mp hmem
  have hlater := hs.links i link hlink
  simp only [SubSocket.owed, hsettled.thread, hsettled.adding, hsettled.wire link hmem,
    Adding.replays, Thread.pending, List.map_nil, ite_self, List.append_nil] at hlater
  exact hlater

theorem always_synced (actions : List Action) : Always step Synced SubSocket.start actions :=
  always_of_invariant (fun _ _ _ => synced_step) synced_start actions

/-- When all messages are delivered, each publisher has the topics of the SUB
socket, and in every run the messages can be delivered. -/
theorem topics_converge {actions : List Action} {s : SubSocket}
    (hrun : run step SubSocket.start actions = some s) :
    (Settled s → ∀ link ∈ s.links, link.topics = s.topics ∧
      ∀ x, subscribed link.topics x = true ↔ ∃ topic ∈ s.topics, topic <+: x) ∧
    ∃ more s', run step s more = some s' ∧ Settled s' ∧ s'.topics = s.topics ∧
      s'.links.length = s.links.length := by
  have hs : Synced s := run_keeps (fun _ _ _ => synced_step) synced_start hrun
  constructor
  · intro hsettled link hlink
    have htopics := hs.topics_eq hsettled hlink
    refine ⟨htopics, fun x => ?_⟩
    rw [htopics]
    exact subscribed_iff s.topics x
  · have hprogress : ∀ t, (Synced t ∧ t.topics = s.topics ∧ t.links.length = s.links.length) →
        ¬ Settled t → ∃ action t', step t action = some t' ∧
          (Synced t' ∧ t'.topics = s.topics ∧ t'.links.length = s.links.length) ∧
          t'.work < t.work := by
      rintro t ⟨ht, htopics, hlinks⟩ hleft
      obtain ⟨action, t', hstep, ⟨hsame, hcount⟩, hlt⟩ := exists_step_less ht hleft
      exact ⟨action, t', hstep, ⟨synced_step ht hstep, hsame.trans htopics, hcount.trans hlinks⟩,
        hlt⟩
    obtain ⟨more, s', hmore, ⟨-, htopics, hlinks⟩, hsettled⟩ :=
      exists_run_of_measure _ Settled SubSocket.work hprogress ⟨hs, rfl, rfl⟩
    exact ⟨more, s', hmore, hsettled, htopics, hlinks⟩

/-- A connection comes up between the change of the socket's topics and the
message about it. -/
theorem topics_converge_late_connection :
    ∃ actions s, run step SubSocket.start
        (.setOption true [5] :: .addConn :: actions) = some s ∧
      s.topics = {[5]} ∧ s.links.length = 1 ∧ ∀ link ∈ s.links, link.topics = {[5]} := by
  let begun : SubSocket :=
    { topics := {[5]}, links := [Link.fresh], thread := .updated (topicMsg true [5])
      adding := .locked }
  have hbegun : run step SubSocket.start [.setOption true [5], .addConn] = some begun := rfl
  obtain ⟨-, more, s, hmore, hsettled, htopics, hlinks⟩ := topics_converge hbegun
  have hrun : run step SubSocket.start (.setOption true [5] :: .addConn :: more) = some s := by
    rw [show Action.setOption true [5] :: .addConn :: more =
      [.setOption true [5], .addConn] ++ more from rfl, run_append, hbegun]
    exact hmore
  refine ⟨more, s, hrun, htopics, hlinks, ?_⟩
  intro link hlink
  rw [((topics_converge hrun).1 hsettled link hlink).1, htopics]

end Zmq4.SubscriptionSync
