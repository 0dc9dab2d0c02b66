import Zmq4.ActionRuns
import Zmq4.SocketReaders

/-!
Requests and replies through brokers.

A broker passes messages between a ROUTER and a DEALER socket.  The ROUTER puts
the identity of the peer in front of each request, and sends a reply to the
peers whose identity is its first frame.  REP keeps the identities of the
request it received last and puts them in front of the reply.

Requests and replies move one connection at a time, in any order.  Each carries
the place of the REQ connection it belongs to.  No step looks at that place.
-/

namespace Zmq4.ReplyRouting

open ActionRuns ByteCodec DuplexProgram ZmtpMessage RequestReply SocketReaders

/-- The far end of a connection: a REQ socket, or a broker with the identities of
the peers of its ROUTER. -/
inductive Node where
  | req
  | broker (peers : List (Bytes × Node))

def Node.peers : Node → List (Bytes × Node)
  | .req => []
  | .broker peers => peers

inductive Node.Distinct : Node → Prop where
  | req : Distinct .req
  | broker {peers : List (Bytes × Node)} : (peers.map Prod.fst).Nodup →
      (∀ peer ∈ peers, Distinct peer.2) → Distinct (.broker peers)

/-- A connection below the REP socket: the number of the connection at each
socket on the way, nearest last. -/
abbrev Place := List Nat

def nodeAt (conns : List Node) : Place → Option Node
  | [] => none
  | [i] => conns[i]?
  | k :: j :: up => (nodeAt conns (j :: up)).bind fun node => node.peers[k]?.map Prod.snd

def peerAt (conns : List Node) (place : Place) (k : Nat) : Option (Bytes × Node) :=
  (nodeAt conns place).bind fun node => node.peers[k]?

def routerMWriterWrite (pids : List Bytes) (msg : Msg) : Except Stop (List (Nat × Msg)) :=
  match msg.frames with
  | [] => .error (.panicked "index out of range")
  | id :: rest =>
    .ok (((List.range pids.length).filter fun i => pids[i]? = some id).map
      fun i => (i, newMsgFrom rest))

structure Request where
  origin : Place
  place : Place
  frames : List Bytes

/-- The tag is the number of the reply and the place of the request it answers. -/
structure Reply where
  tag : Option (Nat × Place)
  place : Place
  frames : List Bytes

/-- The messages on their way and the state of the REP socket.  `queued` has the
origins of the messages in `rep.msgCh`, and `current` the origin of the request
received last. -/
structure Network where
  conns : List Node
  requests : List Request
  rep : RepSocket Nat (List (Nat × Msg))
  queued : List Place
  current : Option Place
  payloads : List (Option (Nat × Place) × RepSendPayload Nat)
  replies : List Reply
  delivered : List Reply
  replied : Nat

def Network.start (conns : List Node) : Network where
  conns := conns
  requests := []
  rep := { msgCh := [], conn := none, preamble := [], conns := List.range conns.length, net := [] }
  queued := []
  current := none
  payloads := []
  replies := []
  delivered := []
  replied := 0

def logTransport : Transport Nat (List (Nat × Msg)) where
  sendMsg conn msg := modify fun sent => sent ++ [(conn, msg)]
  read _ := throw .blocked

namespace Network

def send (s : Network) (place : Place) (body : List Bytes) : Option Network :=
  match nodeAt s.conns place with
  | some .req =>
    let request := { origin := place, place := place
                     frames := (requestMsg (newMsgFrom body)).frames }
    some { s with requests := s.requests ++ [request] }
  | _ => none

/-- A request arrives at the end of the connection it is on: in the queue of the
REP socket, or at a broker, whose ROUTER receives it and whose DEALER sends it
on. -/
def forward (s : Network) (i : Nat) : Option Network :=
  match s.requests[i]? with
  | none => none
  | some request =>
    match request.place with
    | [] => none
    | [k] =>
      some { s with
        requests := s.requests.eraseIdx i
        rep := { s.rep with msgCh := s.rep.msgCh ++ [(k, newMsgFrom request.frames)] }
        queued := s.queued ++ [request.origin] }
    | k :: j :: up =>
      match peerAt s.conns (j :: up) k with
      | none => none
      | some (id, _) =>
        let received := (routerQReader id).deliver (newMsgFrom request.frames)
        some { s with
          requests := s.requests.eraseIdx i ++ received.map fun msg =>
            { request with place := j :: up, frames := msg.frames } }

def recv (s : Network) : Option Network :=
  match repReaderRead.run s.rep with
  | .ok _ rep =>
    some { s with rep := rep, queued := s.queued.tail, current := s.queued.head? }
  | .error (.fail _) rep => some { s with rep := rep, queued := s.queued.tail }
  | .error _ _ => none

def reply (s : Network) (msg : Msg) : Option Network :=
  match (repWriterWrite msg).run s.rep with
  | .ok payload rep =>
    some { s with
      rep := rep
      payloads := s.payloads ++ [(s.current.map fun origin => (s.replied, origin), payload)]
      replied := s.replied + s.current.toList.length }
  | .error _ _ => none

def transmit (s : Network) : Option Network :=
  match s.payloads with
  | [] => none
  | (tag, payload) :: rest =>
    match (sendPayload logTransport payload).run { s.rep with net := [] } with
    | .ok _ rep =>
      some { s with
        rep := { rep with net := [] }
        payloads := rest
        replies := s.replies ++ rep.net.map fun sent =>
          { tag := tag, place := [sent.1], frames := sent.2.frames } }
    | .error _ _ => none

/-- A reply arrives at the end of the connection it is on: at a REQ socket, or at
a broker, whose DEALER receives it and whose ROUTER sends it on. -/
def back (s : Network) (i : Nat) : Option Network :=
  match s.replies[i]? with
  | none => none
  | some reply =>
    match nodeAt s.conns reply.place with
    | none => none
    | some .req =>
      some { s with
        replies := s.replies.eraseIdx i
        delivered := s.delivered ++ [reply] }
    | some (.broker peers) =>
      match routerMWriterWrite (peers.map Prod.fst) (newMsgFrom reply.frames) with
      | .error _ => none
      | .ok sent =>
        some { s with
          replies := s.replies.eraseIdx i ++ sent.map fun out =>
            { reply with place := out.1 :: reply.place, frames := out.2.frames } }

end Network

inductive Action where
  | send (place : Place) (body : List Bytes)
  | forward (i : Nat)
  | recv
  | reply (msg : Msg)
  | transmit
  | back (i : Nat)

def step (s : Network) : Action → Option Network
  | .send place body => s.send place body
  | .forward i => s.forward i
  | .recv => s.recv
  | .reply msg => s.reply msg
  | .transmit => s.transmit
  | .back i => s.back i

variable {place : Place} {peer : Bytes × Node}

section Places

variable {conns : List Node}

theorem nodeAt_cons (hplace : place ≠ []) (k : Nat) :
    nodeAt conns (k :: place) = (peerAt conns place k).map Prod.snd := by
  rcases place with _ | ⟨j, up⟩
  · exact absurd rfl hplace
  · rw [nodeAt, peerAt, Option.map_bind]
    rfl

variable {node : Node}

theorem ne_nil_of_nodeAt (hnode : nodeAt conns place = some node) : place ≠ [] := by
  rintro rfl
  cases hnode

theorem peerAt_eq_some_iff {k : Nat} :
    peerAt conns place k = some peer ↔
      ∃ node, nodeAt conns place = some node ∧ node.peers[k]? = some peer := by
  rw [peerAt, Option.bind_eq_some_iff]

theorem exists_nodeAt_of_append {front : Place} (hnode : nodeAt conns (front ++ place) = some node)
    (hplace : place ≠ []) :
    ∃ other, nodeAt conns place = some other := by
  induction front generalizing node with
  | nil => exact ⟨node, hnode⟩
  | cons k front ih =>
    have hne : front ++ place ≠ [] := List.append_ne_nil_of_right_ne_nil _ hplace
    rw [List.cons_append, nodeAt_cons hne, Option.map_eq_some_iff] at hnode
    obtain ⟨peer, hpeer, -⟩ := hnode
    obtain ⟨above, habove, -⟩ := peerAt_eq_some_iff.mp hpeer
    exact ih habove

theorem distinct_nodeAt (hconns : ∀ node ∈ conns, node.Distinct)
    (hnode : nodeAt conns place = some node) : node.Distinct := by
  induction place generalizing node with
  | nil => cases hnode
  | cons k up ih =>
    by_cases hup : up = []
    · subst hup
      exact hconns node (List.mem_of_getElem? hnode)
    · rw [nodeAt_cons hup, Option.map_eq_some_iff] at hnode
      obtain ⟨peer, hpeer, rfl⟩ := hnode
      obtain ⟨above, habove, hk⟩ := peerAt_eq_some_iff.mp hpeer
      have hmem := List.mem_of_getElem? hk
      rcases ih habove with _ | ⟨-, hpeers⟩
      · cases hmem
      · exact hpeers peer hmem

end Places

/-- The identities that the ROUTER sockets put in front of a request which comes
up this way to the place. -/
def identities (conns : List Node) : Place → List Nat → Option (List Bytes)
  | _, [] => some []
  | place, k :: path =>
    (peerAt conns place k).bind fun peer =>
      (identities conns (k :: place) path).map fun ids => peer.1 :: ids

/-- The frames begin with the way from the place to the REQ connection at the
origin, followed by the delimiter. -/
structure Addressed (conns : List Node) (place origin : Place) (frames : List Bytes) : Prop where
  req : nodeAt conns origin = some .req
  onTree : place ≠ []
  way : ∃ path ids rest, origin = path.reverse ++ place ∧
    identities conns place path = some ids ∧ frames = ids ++ [] :: rest

variable {i : Nat}

section Addresses

variable {conns : List Node} {place origin : Place} {frames : List Bytes}

theorem Addressed.up {k : Nat} (hpeer : peerAt conns place k = some peer)
    (haddressed : Addressed conns (k :: place) origin frames) :
    Addressed conns place origin (peer.1 :: frames) := by
  obtain ⟨hreq, -, path, ids, rest, horigin, hids, rfl⟩ := haddressed
  obtain ⟨node, hnode, -⟩ := peerAt_eq_some_iff.mp hpeer
  refine ⟨hreq, ne_nil_of_nodeAt hnode, k :: path, peer.1 :: ids, rest, ?_, ?_, rfl⟩
  · rw [horigin, List.reverse_cons, List.append_assoc]
    rfl
  · rw [identities, hpeer, Option.bind_some, hids]
    rfl

theorem Addressed.append (haddressed : Addressed conns place origin frames) (more : List Bytes) :
    Addressed conns place origin (frames ++ more) := by
  obtain ⟨hreq, hplace, path, ids, rest, horigin, hids, rfl⟩ := haddressed
  refine ⟨hreq, hplace, path, ids, rest ++ more, horigin, hids, ?_⟩
  rw [List.append_assoc]
  rfl

/-- The preamble that REP keeps has the whole way, also when the request has
empty frames of its own. -/
theorem Addressed.preamble {msg : Msg} (haddressed : Addressed conns place origin msg.frames) :
    ∃ pre inner, splitReq msg = (some pre, inner) ∧ Addressed conns place origin pre := by
  obtain ⟨hreq, hplace, path, ids, rest, horigin, hids, hframes⟩ := haddressed
  obtain ⟨before, after, hlast, hafter⟩ :=
    exists_last_empty (show [] ∈ [] :: rest from List.mem_cons_self)
  have hsplice : msg.frames = (ids ++ before) ++ [] :: after := by
    rw [hframes, hlast, List.append_assoc]
  obtain ⟨hpre, -⟩ := splitReq_last hsplice hafter
  refine ⟨ids ++ before ++ [[]], (splitReq msg).2, Prod.ext hpre rfl, hreq, hplace, path, ids, ?_⟩
  rw [List.append_assoc]
  rcases before with _ | ⟨first, before⟩
  · exact ⟨[], horigin, hids, rfl⟩
  · obtain ⟨rfl, -⟩ := List.cons_eq_cons.mp hlast
    exact ⟨before ++ [[]], horigin, hids, rfl⟩

theorem Addressed.exists_nodeAt (haddressed : Addressed conns place origin frames) :
    ∃ node, nodeAt conns place = some node := by
  obtain ⟨hreq, hplace, path, ids, rest, horigin, -, -⟩ := haddressed
  rw [horigin] at hreq
  exact exists_nodeAt_of_append hreq hplace

theorem Addressed.lt_length (haddressed : Addressed conns [i] origin frames) :
    i < conns.length := by
  obtain ⟨node, hnode⟩ := haddressed.exists_nodeAt
  obtain ⟨hlt, -⟩ := List.getElem?_eq_some_iff.mp hnode
  exact hlt

theorem Addressed.arrived (haddressed : Addressed conns place origin frames)
    (hnode : nodeAt conns place = some .req) : origin = place := by
  obtain ⟨-, -, path, ids, rest, horigin, hids, -⟩ := haddressed
  rcases path with _ | ⟨k, path⟩
  · exact horigin
  · rw [identities, Option.bind_eq_some_iff] at hids
    obtain ⟨peer, hpeer, -⟩ := hids
    obtain ⟨node, hreq, hk⟩ := peerAt_eq_some_iff.mp hpeer
    obtain rfl : .req = node := by simpa [hnode] using hreq
    cases hk

theorem filter_range_eq_singleton {pids : List Bytes} (hnodup : pids.Nodup) {k : Nat} {id : Bytes}
    (hk : pids[k]? = some id) :
    ((List.range pids.length).filter fun i => pids[i]? = some id) = [k] := by
  refine List.perm_singleton.mp ((List.perm_ext_iff_of_nodup
    (List.nodup_range.filter _) (List.nodup_singleton k)).mpr fun i => ?_)
  rw [List.mem_filter, List.mem_range, decide_eq_true_eq, List.mem_singleton]
  obtain ⟨hlt, -⟩ := List.getElem?_eq_some_iff.mp hk
  constructor
  · rintro ⟨hi, hid⟩
    exact (List.getElem?_inj hi hnodup).mp (hid.trans hk.symm)
  · rintro rfl
    exact ⟨hlt, hk⟩

/-- At a broker a reply goes on to exactly one peer, which is one connection
closer to its origin. -/
theorem Addressed.routed (haddressed : Addressed conns place origin frames)
    {peers : List (Bytes × Node)} (hnode : nodeAt conns place = some (.broker peers))
    (hnodup : (peers.map Prod.fst).Nodup) :
    ∃ k rest, routerMWriterWrite (peers.map Prod.fst) (newMsgFrom frames) =
        .ok [(k, newMsgFrom rest)] ∧
      Addressed conns (k :: place) origin rest ∧ place.length < origin.length := by
  obtain ⟨hreq, hplace, path, ids, rest, horigin, hids, rfl⟩ := haddressed
  rcases path with _ | ⟨k, path⟩
  · rw [horigin, List.reverse_nil, List.nil_append, hnode] at hreq
    cases hreq
  · rw [identities, Option.bind_eq_some_iff] at hids
    obtain ⟨peer, hpeer, hids⟩ := hids
    obtain ⟨ids, hbelow, rfl⟩ := Option.map_eq_some_iff.mp hids
    obtain ⟨node, hsame, hk⟩ := peerAt_eq_some_iff.mp hpeer
    obtain rfl : .broker peers = node := by simpa [hnode] using hsame
    have hid : (peers.map Prod.fst)[k]? = some peer.1 := by
      rw [List.getElem?_map, show peers[k]? = some peer from hk]
      rfl
    refine ⟨k, ids ++ [] :: rest, ?_, ⟨hreq, List.cons_ne_nil _ _, path, ids, rest, ?_, hbelow, rfl⟩, ?_⟩
    · simp only [routerMWriterWrite, newMsgFrom, List.cons_append]
      rw [filter_range_eq_singleton hnodup hid]
      rfl
    · rw [horigin, List.reverse_cons, List.append_assoc]
      rfl
    · rw [horigin, List.length_append, List.length_reverse, List.length_cons]
      omega

end Addresses

/-- What REP keeps, or has handed on, for a reply to the origin. -/
def Remembers (conns : List Node) (origin : Option Place) (conn : Option Nat)
    (preamble : List Bytes) : Prop :=
  match origin with
  | none => conn = none
  | some origin => ∃ i, conn = some i ∧ Addressed conns [i] origin preamble

def Network.tags (s : Network) : List (Nat × Place) :=
  s.payloads.filterMap Prod.fst ++ s.replies.filterMap Reply.tag ++
    s.delivered.filterMap Reply.tag

structure Routed (s : Network) : Prop where
  distinct : ∀ node ∈ s.conns, node.Distinct
  repConns : s.rep.conns = List.range s.conns.length
  requests : ∀ request ∈ s.requests,
    Addressed s.conns request.place request.origin request.frames
  queue : List.Forall₂ (fun entry origin => entry.2.err = none ∧
    Addressed s.conns [entry.1] origin entry.2.frames) s.rep.msgCh s.queued
  state : Remembers s.conns s.current s.rep.conn s.rep.preamble
  payloads : ∀ entry ∈ s.payloads,
    Remembers s.conns (entry.1.map Prod.snd) entry.2.conn entry.2.preamble
  replies : ∀ reply ∈ s.replies, ∃ n origin, reply.tag = some (n, origin) ∧
    Addressed s.conns reply.place origin reply.frames
  delivered : ∀ reply ∈ s.delivered, ∃ n, reply.tag = some (n, reply.place)
  numbers : (s.tags.map Prod.fst).Perm (List.range s.replied)

theorem routed_start {conns : List Node} (hconns : ∀ node ∈ conns, node.Distinct) :
    Routed (Network.start conns) where
  distinct := hconns
  repConns := rfl
  requests := by simp [Network.start]
  queue := .nil
  state := rfl
  payloads := by simp [Network.start]
  replies := by simp [Network.start]
  delivered := by simp [Network.start]
  numbers := .refl _

section Steps

variable {s s' : Network}

theorem Routed.send (hs : Routed s) {body : List Bytes} (hstep : s.send place body = some s') :
    Routed s' := by
  unfold Network.send at hstep
  split at hstep
  · rename_i hreq
    cases hstep
    refine { hs with requests := ?_ }
    refine List.forall_mem_append.mpr ⟨hs.requests, List.forall_mem_singleton.mpr ?_⟩
    exact ⟨hreq, ne_nil_of_nodeAt hreq, [], [], body, rfl, rfl, rfl⟩
  · cases hstep

theorem Routed.forward (hs : Routed s) (hstep : s.forward i = some s') : Routed s' := by
  unfold Network.forward at hstep
  split at hstep
  · cases hstep
  rename_i request hget
  have haddressed := hs.requests request (List.mem_of_getElem? hget)
  have hothers : ∀ other ∈ s.requests.eraseIdx i,
      Addressed s.conns other.place other.origin other.frames :=
    fun other hother => hs.requests other (List.mem_of_mem_eraseIdx hother)
  split at hstep
  · cases hstep
  · rename_i k hplace
    cases hstep
    rw [hplace] at haddressed
    refine { hs with requests := hothers, queue := ?_ }
    exact List.rel_append hs.queue (.cons ⟨rfl, haddressed⟩ List.Forall₂.nil)
  · rename_i k j up hplace
    split at hstep
    · cases hstep
    · rename_i id node hpeer
      cases hstep
      rw [hplace] at haddressed
      refine { hs with requests := ?_ }
      exact List.forall_mem_append.mpr
        ⟨hothers, List.forall_mem_singleton.mpr (haddressed.up hpeer)⟩

theorem Routed.recv (hs : Routed s) (hstep : s.recv = some s') : Routed s' := by
  have hqueue := hs.queue
  rcases hmsg : s.rep.msgCh with _ | ⟨⟨conn, msg⟩, rest⟩
  · have hblocked : repReaderRead.run s.rep = .error .blocked s.rep := by
      rw [repReaderRead, bind_ok (EStateM.run_get s.rep)]
      simp only [hmsg]
      rfl
    rw [Network.recv, hblocked] at hstep
    cases hstep
  · rw [hmsg] at hqueue
    rcases hqueued : s.queued with _ | ⟨origin, origins⟩
    · rw [hqueued] at hqueue
      cases hqueue
    · rw [hqueued] at hqueue
      obtain ⟨⟨herr, haddressed⟩, hrest⟩ := List.forall₂_cons.mp hqueue
      obtain ⟨pre, inner, hsplit, hpre⟩ := haddressed.preamble
      rw [Network.recv, repReaderRead_run hmsg herr hsplit, hqueued] at hstep
      cases hstep
      exact { hs with queue := hrest, state := ⟨conn, rfl, hpre⟩ }

theorem Routed.reply (hs : Routed s) {msg : Msg} (hstep : s.reply msg = some s') :
    Routed s' := by
  have hwrite : (repWriterWrite msg).run s.rep =
      .ok { conn := s.rep.conn, preamble := s.rep.preamble, msg := msg } s.rep := rfl
  rw [Network.reply, hwrite] at hstep
  cases hstep
  refine { hs with payloads := ?_, numbers := ?_ }
  · refine List.forall_mem_append.mpr ⟨hs.payloads, List.forall_mem_singleton.mpr ?_⟩
    have hstate := hs.state
    cases hcurrent : s.current with
    | none | some =>
      rw [hcurrent] at hstate
      exact hstate
  · have hnumbers := hs.numbers
    unfold Network.tags at hnumbers ⊢
    cases hcurrent : s.current with
    | none => simpa using hnumbers
    | some origin =>
      simp only [Option.map_some, Option.toList_some, List.length_singleton, List.range_succ,
        List.filterMap_append, List.map_append, List.append_assoc] at hnumbers ⊢
      refine .trans ?_ (hnumbers.append_right [s.replied])
      simp only [List.append_assoc]
      refine .append_left _ ?_
      rw [← List.append_assoc (List.map Prod.fst (List.filterMap Reply.tag s.replies))]
      exact List.perm_append_comm

variable {payload : RepSendPayload Nat}

theorem sendPayload_run (rep : RepSocket Nat (List (Nat × Msg))) {n : Nat}
    (hconns : rep.conns = List.range n) (hi : i < n) (hpayload : payload.conn = some i) :
    (sendPayload logTransport payload).run rep =
      .ok () { rep with net := rep.net ++ [(i, payload.buildReplyMsg)] } := by
  have hfind : (rep.conns.find? fun conn => payload.conn = some conn) = some i := by
    rw [hconns, hpayload]
    have hsome : ((List.range n).find? fun conn => some i = some conn).isSome :=
      List.find?_isSome.mpr ⟨i, List.mem_range.mpr hi, by simp⟩
    obtain ⟨conn, hconn⟩ := Option.isSome_iff_exists.mp hsome
    have hsame := List.find?_some hconn
    rw [hconn, Option.some_inj.mp (of_decide_eq_true hsame)]
  rw [sendPayload, bind_ok (EStateM.run_get rep)]
  simp only [hfind]
  rfl

theorem sendPayload_run_none {rep : RepSocket Nat (List (Nat × Msg))}
    (hpayload : payload.conn = none) :
    (sendPayload logTransport payload).run rep = .ok () rep := by
  have hfind : (rep.conns.find? fun conn => payload.conn = some conn) = none :=
    List.find?_eq_none.mpr (by simp [hpayload])
  rw [sendPayload, bind_ok (EStateM.run_get rep)]
  simp only [hfind]
  rfl

theorem Routed.transmit_eq (hs : Routed s) {tag : Option (Nat × Place)}
    {rest : List (Option (Nat × Place) × RepSendPayload Nat)}
    (hpayloads : s.payloads = (tag, payload) :: rest) :
    ∃ sent, s.transmit = some { s with
        rep := { s.rep with net := [] }, payloads := rest, replies := s.replies ++ sent } ∧
      (tag = none ∧ sent = [] ∨
        ∃ n origin i, tag = some (n, origin) ∧
          Addressed s.conns [i] origin payload.buildReplyMsg.frames ∧
          sent = [{ tag := tag, place := [i], frames := payload.buildReplyMsg.frames }]) := by
  have hentry := hs.payloads (tag, payload) (hpayloads ▸ List.mem_cons_self)
  rcases tag with _ | ⟨n, origin⟩
  · refine ⟨[], ?_, Or.inl ⟨rfl, rfl⟩⟩
    simp only [Network.transmit, hpayloads]
    rw [sendPayload_run_none hentry]
    rfl
  · obtain ⟨i, hconn, hpre⟩ := hentry
    refine ⟨_, ?_, Or.inr ⟨n, origin, i, rfl, hpre.append payload.msg.frames, rfl⟩⟩
    have hsend := sendPayload_run { s.rep with net := [] } hs.repConns hpre.lt_length hconn
    simp only [Network.transmit, hpayloads, hsend]
    rfl

theorem Routed.transmit (hs : Routed s) (hstep : s.transmit = some s') : Routed s' := by
  rcases hpayloads : s.payloads with _ | ⟨⟨tag, payload⟩, rest⟩
  · simp [Network.transmit, hpayloads] at hstep
  obtain ⟨sent, htransmit, hsent⟩ := hs.transmit_eq hpayloads
  rw [htransmit] at hstep
  cases hstep
  refine { hs with payloads := ?_, replies := ?_, numbers := ?_ }
  · intro entry hentry
    exact hs.payloads entry (hpayloads ▸ List.mem_cons_of_mem _ hentry)
  · refine List.forall_mem_append.mpr ⟨hs.replies, ?_⟩
    rcases hsent with ⟨-, rfl⟩ | ⟨n, origin, i, rfl, haddressed, rfl⟩
    · exact fun _ => nofun
    · exact List.forall_mem_singleton.mpr ⟨n, origin, rfl, haddressed⟩
  · refine .trans (.map _ ?_) hs.numbers
    simp only [Network.tags, hpayloads]
    rcases hsent with ⟨rfl, rfl⟩ | ⟨n, origin, i, rfl, -, rfl⟩
    · simp
    · simp only [List.filterMap_append, ← List.append_assoc]
      exact (List.perm_append_comm).append_right _

theorem Routed.back_eq (hs : Routed s) {reply : Reply} (hget : s.replies[i]? = some reply) :
    ∃ n origin, reply.tag = some (n, origin) ∧
      (origin = reply.place ∧ s.back i = some { s with
          replies := s.replies.eraseIdx i, delivered := s.delivered ++ [reply] } ∨
        ∃ k rest, Addressed s.conns (k :: reply.place) origin rest ∧
          reply.place.length < origin.length ∧
          s.back i = some { s with
            replies := s.replies.eraseIdx i ++
              [{ reply with place := k :: reply.place, frames := rest }] }) := by
  obtain ⟨n, origin, htag, haddressed⟩ := hs.replies reply (List.mem_of_getElem? hget)
  obtain ⟨node, hnode⟩ := haddressed.exists_nodeAt
  refine ⟨n, origin, htag, ?_⟩
  rcases node with _ | peers
  · refine Or.inl ⟨haddressed.arrived hnode, ?_⟩
    simp only [Network.back, hget, hnode]
  · have hnodup : (peers.map Prod.fst).Nodup := by
      rcases distinct_nodeAt hs.distinct hnode with _ | ⟨hnodup, -⟩
      exact hnodup
    obtain ⟨k, rest, hwrite, hbelow, hlt⟩ := haddressed.routed hnode hnodup
    refine Or.inr ⟨k, rest, hbelow, hlt, ?_⟩
    simp only [Network.back, hget, hnode, hwrite]
    rfl

theorem Routed.back (hs : Routed s) (hstep : s.back i = some s') : Routed s' := by
  rcases hget : s.replies[i]? with _ | reply
  · simp [Network.back, hget] at hstep
  obtain ⟨n, origin, htag, hback⟩ := hs.back_eq hget
  have hothers : ∀ other ∈ s.replies.eraseIdx i, ∃ n origin, other.tag = some (n, origin) ∧
      Addressed s.conns other.place origin other.frames :=
    fun other hother => hs.replies other (List.mem_of_mem_eraseIdx hother)
  obtain ⟨hi, hfound⟩ := List.getElem?_eq_some_iff.mp hget
  have htags := (List.getElem_cons_eraseIdx_perm hi).filterMap (·.tag)
  rw [hfound, List.filterMap_cons_some htag] at htags
  rcases hback with ⟨rfl, hback⟩ | ⟨k, rest, haddressed, -, hback⟩
  · rw [hback] at hstep
    cases hstep
    refine { hs with replies := hothers, delivered := ?_, numbers := ?_ }
    · exact List.forall_mem_append.mpr ⟨hs.delivered, List.forall_mem_singleton.mpr ⟨n, htag⟩⟩
    · refine .trans (.map _ ?_) hs.numbers
      simp only [Network.tags, List.filterMap_append, List.filterMap_cons_some htag,
        List.filterMap_nil, List.append_assoc]
      refine .append_left _ ?_
      refine .trans ?_ (htags.append_right _)
      rw [← List.append_assoc]
      exact List.perm_append_comm
  · rw [hback] at hstep
    cases hstep
    refine { hs with replies := ?_, numbers := ?_ }
    · exact List.forall_mem_append.mpr
        ⟨hothers, List.forall_mem_singleton.mpr ⟨n, origin, htag, haddressed⟩⟩
    · refine .trans (.map _ ?_) hs.numbers
      simp only [Network.tags, List.filterMap_append, List.append_assoc]
      refine .append_left _ ?_
      rw [← List.append_assoc]
      refine .append_right _ ?_
      refine .trans ?_ htags
      have hmoved : [({ reply with place := k :: reply.place, frames := rest } : Reply)].filterMap
          Reply.tag = [(n, origin)] := by
        simp [htag]
      rw [hmoved]
      exact List.perm_append_comm

theorem routed_step {action : Action} (hs : Routed s) (hstep : step s action = some s') :
    Routed s' := by
  cases action with
  | send place body => exact hs.send hstep
  | forward i => exact hs.forward hstep
  | recv => exact hs.recv hstep
  | reply msg => exact hs.reply hstep
  | transmit => exact hs.transmit hstep
  | back i => exact hs.back hstep

end Steps

/-- Replies are delivered only at the REQ connection whose request they answer.
Each reply to a request is in one place: at the REP socket, on its way, or
delivered. -/
structure RoutesReplies (s : Network) : Prop where
  home : ∀ reply ∈ s.delivered, ∃ n, reply.tag = some (n, reply.place)
  once : (s.tags.map Prod.fst).Perm (List.range s.replied)

theorem Routed.routesReplies {s : Network} (hs : Routed s) : RoutesReplies s where
  home := hs.delivered
  once := hs.numbers

section Progress

def Reply.distance (reply : Reply) : Nat :=
  match reply.tag with
  | none => 1
  | some (_, origin) => origin.length - reply.place.length + 1

def payloadDistance (entry : Option (Nat × Place) × RepSendPayload Nat) : Nat :=
  match entry.1 with
  | none => 1
  | some (_, origin) => origin.length + 2

def Network.distance (s : Network) : Nat :=
  (s.payloads.map payloadDistance).sum + (s.replies.map Reply.distance).sum

theorem exists_step_closer {s : Network} (hs : Routed s)
    (hleft : ¬ (s.payloads = [] ∧ s.replies = [])) :
    ∃ action s', step s action = some s' ∧ s'.replied = s.replied ∧
      s'.distance < s.distance := by
  rcases hpayloads : s.payloads with _ | ⟨⟨tag, payload⟩, rest⟩
  · rcases hreplies : s.replies with _ | ⟨reply, rest⟩
    · exact absurd ⟨hpayloads, hreplies⟩ hleft
    · have hget : s.replies[0]? = some reply := by rw [hreplies]; rfl
      obtain ⟨n, origin, htag, ⟨-, hback⟩ | ⟨k, frames, -, hlt, hback⟩⟩ := hs.back_eq hget
      · refine ⟨.back 0, _, hback, rfl, ?_⟩
        simp [Network.distance, hpayloads, hreplies, Reply.distance, htag]
      · refine ⟨.back 0, _, hback, rfl, ?_⟩
        simp only [Network.distance, hpayloads, hreplies, List.eraseIdx_zero, List.tail_cons,
          List.map_append, List.map_cons, List.map_nil, List.sum_append, List.sum_cons,
          List.sum_nil, Reply.distance, htag, List.length_cons]
        omega
  · obtain ⟨sent, htransmit, hsent⟩ := hs.transmit_eq hpayloads
    refine ⟨.transmit, _, htransmit, rfl, ?_⟩
    rcases hsent with ⟨rfl, rfl⟩ | ⟨n, origin, i, rfl, -, rfl⟩
    · simp [Network.distance, hpayloads, payloadDistance]
    · simp only [Network.distance, hpayloads, List.map_append, List.map_cons, List.map_nil,
        List.sum_append, List.sum_cons, List.sum_nil, Reply.distance, payloadDistance,
        List.length_singleton]
      omega

end Progress

/-- In every run each reply gets only to the REQ connection whose request it
answers, and all replies can still be brought there. -/
theorem replies_routed_home {conns : List Node} (hconns : ∀ node ∈ conns, node.Distinct)
    {actions : List Action} {s : Network}
    (hrun : run step (Network.start conns) actions = some s) :
    RoutesReplies s ∧
      ∃ more s', run step s more = some s' ∧ s'.payloads = [] ∧ s'.replies = [] ∧
        s'.replied = s.replied ∧ RoutesReplies s' := by
  have hs : Routed s := run_keeps (fun _ _ _ => routed_step) (routed_start hconns) hrun
  refine ⟨hs.routesReplies, ?_⟩
  have hprogress : ∀ t, Routed t ∧ t.replied = s.replied → ¬ (t.payloads = [] ∧ t.replies = []) →
      ∃ action t', step t action = some t' ∧ (Routed t' ∧ t'.replied = s.replied) ∧
        t'.distance < t.distance := by
    rintro t ⟨ht, hreplied⟩ hleft
    obtain ⟨action, t', hstep, hsame, hlt⟩ := exists_step_closer ht hleft
    exact ⟨action, t', hstep, ⟨routed_step ht hstep, hsame.trans hreplied⟩, hlt⟩
  obtain ⟨more, s', hmore, ⟨hs', hreplied⟩, hpayloads, hreplies⟩ :=
    exists_run_of_measure _ _ Network.distance hprogress ⟨hs, rfl⟩
  exact ⟨more, s', hmore, hpayloads, hreplies, hreplied, hs'.routesReplies⟩

def twoHops : List Node :=
  [.broker [([7], .broker [([1], .req), ([2], .req)])]]

theorem distinct_twoHops : ∀ node ∈ twoHops, node.Distinct := by
  have hleaves : (Node.broker [([1], .req), ([2], .req)]).Distinct :=
    .broker (by decide) (by simp [Node.Distinct.req])
  intro node hnode
  obtain rfl := List.mem_singleton.mp hnode
  exact .broker (by decide) (by simpa using hleaves)

def crossedRequests : List Action :=
  [.send [0, 0, 0] [[8]], .send [1, 0, 0] [[9]], .forward 1, .forward 1, .forward 1, .recv,
    .reply (newMsgFrom [[5]]), .forward 0, .forward 0, .forward 0, .recv,
    .reply (newMsgFrom [[6]]), .transmit, .transmit, .back 0, .back 1, .back 0, .back 0, .back 0,
    .back 0]

theorem crossed_requests_routed_home :
    ∃ s, run step (Network.start twoHops) crossedRequests = some s ∧
      s.delivered.map Reply.place = [[1, 0, 0], [0, 0, 0]] ∧ RoutesReplies s := by
  have hplaces : (run step (.start twoHops) crossedRequests).map
      (fun s => s.delivered.map Reply.place) = some [[1, 0, 0], [0, 0, 0]] := by
    rfl
  obtain ⟨s, hrun, hdelivered⟩ := Option.map_eq_some_iff.mp hplaces
  exact ⟨s, hrun, hdelivered, (replies_routed_home distinct_twoHops hrun).1⟩

end Zmq4.ReplyRouting
