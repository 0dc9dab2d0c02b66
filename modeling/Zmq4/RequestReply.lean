import Zmq4.FramingRoundTrip
import Zmq4.ProgramEffects

namespace Zmq4.RequestReply

open ByteCodec DuplexProgram ProgramEffects ZmtpMessage Connection FrameStream FramingRoundTrip

/-- `SendMsg` and `read` on the connections of a socket, which are of type `κ`
and have `ω` as the state of all of them. -/
structure Transport (κ ω : Type) where
  sendMsg : κ → Msg → Program ω Unit
  read : κ → Program ω Msg

variable {msg : Msg} {frames : List Bytes}

section Req

variable {κ ω α : Type}

structure ReqSocket (κ ω : Type) where
  conns : List κ
  nextConn : Nat
  lastConn : Option κ
  net : ω

def onReqNet (x : Program ω α) : Program (ReqSocket κ ω) α :=
  zoom (fun s => s.net) (fun s net => { s with net := net }) x

def requestMsg (msg : Msg) : Msg :=
  { msg with frames := [] :: msg.frames }

def noConnections : Option Err → Err
  | none => .text "zmq4: no connections available: %!w(<nil>)"
  | some err => .wrap "zmq4: no connections available" err

variable (T : Transport κ ω)

def tryConn (msg : Msg) (cur : Nat) (conn : κ) : Program (ReqSocket κ ω) Unit := do
  onReqNet (T.sendMsg conn msg)
  modify fun s => { s with nextConn := cur + 1 % s.conns.length, lastConn := some conn }

/-- The loop of `reqWriter.write` from round `i` on, with the error of the last
attempt.  The remainder binds to `nextConn` alone, so a round after the first
can index past the end. -/
def tryConns (msg : Msg) : Nat → Nat → Option Err → Program (ReqSocket κ ω) Unit
  | 0, _, err => failWith (noConnections err)
  | left + 1, i, _ => do
      let s ← get
      let cur := i + s.nextConn % s.conns.length
      match s.conns[cur]? with
      | none => panicWith "index out of range"
      | some conn =>
        rescue (tryConn T msg cur conn) fun err => tryConns msg left (i + 1) (some err)

def reqWriterWrite (msg : Msg) : Program (ReqSocket κ ω) Unit := do
  let s ← get
  tryConns T (requestMsg msg) s.conns.length 0 none

/-- The first frame is taken for the delimiter, whatever it holds. -/
def stripDelimiter (msg : Msg) : Msg :=
  if msg.frames.length > 1 then { msg with frames := msg.frames.drop 1 } else msg

def reqReaderRead : Program (ReqSocket κ ω) Msg := do
  let s ← get
  match s.lastConn with
  | none => failWith (.text "zmq4: no connections available")
  | some conn =>
    let msg ← onReqNet (T.read conn)
    match msg.err with
    | some err => failWith err
    | none => pure (stripDelimiter msg)

variable {s s' : ReqSocket κ ω}

theorem tryConn_ok {cur : Nat} {conn : κ} (hrun : (tryConn T msg cur conn).run s = .ok () s') :
    (T.sendMsg conn msg).run s.net = .ok () s'.net ∧ s'.lastConn = some conn := by
  rw [tryConn, bind_eq_ok_iff] at hrun
  obtain ⟨u, t, hsend, hset⟩ := hrun
  obtain ⟨net, hnet, rfl⟩ := zoom_eq_ok_iff.mp hsend
  cases hset
  exact ⟨hnet, rfl⟩

theorem tryConn_keeps (msg : Msg) (cur : Nat) (conn : κ) :
    Keeps (fun s : ReqSocket κ ω => s.conns) (tryConn T msg cur conn) :=
  Keeps.bind (.zoom_other fun _ _ => rfl) fun _ => .modify fun _ => rfl

theorem tryConns_ok {left i : Nat} {err : Option Err}
    (hrun : (tryConns T msg left i err).run s = .ok () s') :
    ∃ conn ∈ s.conns, ∃ net, (T.sendMsg conn msg).run net = .ok () s'.net ∧
      s'.lastConn = some conn := by
  induction left generalizing i err s with
  | zero => cases hrun
  | succ left ih =>
    rw [tryConns, bind_ok (EStateM.run_get s)] at hrun
    dsimp only at hrun
    split at hrun
    · cases hrun
    · rename_i conn hconn
      rcases rescue_eq_ok_iff.mp hrun with hok | ⟨failure, t, hfailed, hrest⟩
      · obtain ⟨hsend, hlast⟩ := tryConn_ok T hok
        exact ⟨conn, List.mem_of_getElem? hconn, s.net, hsend, hlast⟩
      · obtain ⟨other, hother, net, hsend, hlast⟩ := ih hrest
        have hconns : t.conns = s.conns := (tryConn_keeps T msg _ conn).of_error hfailed
        exact ⟨other, hconns ▸ hother, net, hsend, hlast⟩

theorem reqReaderRead_run {conn : κ} {net : ω} (hlast : s.lastConn = some conn)
    (hread : (T.read conn).run s.net = .ok msg net) (herr : msg.err = none) :
    (reqReaderRead T).run s = .ok (stripDelimiter msg) { s with net := net } := by
  rw [reqReaderRead, bind_ok (EStateM.run_get s)]
  have hnet : (onReqNet (T.read conn)).run s = .ok msg { s with net := net } := zoom_ok hread
  simp only [hlast]
  rw [bind_ok hnet]
  simp only [herr, ← hlast]
  rfl

theorem reqWriterWrite_run {conn : κ} {net : ω}
    (hconn : s.conns[s.nextConn % s.conns.length]? = some conn)
    (hsend : (T.sendMsg conn (requestMsg msg)).run s.net = .ok () net) :
    ∃ s', (reqWriterWrite T msg).run s = .ok () s' ∧ s'.lastConn = some conn ∧ s'.net = net := by
  have hnet : (onReqNet (T.sendMsg conn (requestMsg msg))).run s = .ok () { s with net } :=
    zoom_ok hsend
  obtain ⟨left, hleft⟩ : ∃ left, s.conns.length = left + 1 :=
    Nat.exists_eq_succ_of_ne_zero fun hzero => by simp [List.length_eq_zero_iff.mp hzero] at hconn
  let nextConn := s.nextConn % s.conns.length + 1 % s.conns.length
  refine ⟨{ s with net, nextConn, lastConn := some conn }, ?_, rfl, rfl⟩
  rw [reqWriterWrite, bind_ok (EStateM.run_get s), hleft, tryConns, bind_ok (EStateM.run_get s)]
  simp only [Nat.zero_add, hconn]
  apply rescue_ok
  rw [tryConn, bind_ok hnet]
  rfl

theorem stripDelimiter_newMsgFrom (first : Bytes) (hne : frames ≠ []) :
    stripDelimiter (newMsgFrom (first :: frames)) = newMsgFrom frames := by
  have hlong : (newMsgFrom (first :: frames)).frames.length > 1 := by
    have hpos := List.length_pos_of_ne_nil hne
    simp only [newMsgFrom, List.length_cons]
    omega
  rw [stripDelimiter, if_pos hlong]
  rfl

end Req

section Rep

variable {κ ω α : Type}

/-- The loop of `splitReq` from index `i` on, with what it has found so far.
It does not stop at an empty frame. -/
def splitLoop (frames : List Bytes) :
    Nat → List Bytes → Option (List Bytes) × Msg → Option (List Bytes) × Msg
  | _, [], found => found
  | i, frame :: rest, found =>
    if frame.length ≠ 0 then splitLoop frames (i + 1) rest found
    else
      splitLoop frames (i + 1) rest
        (some (frames.take (i + 1)),
          if i + 1 < frames.length then newMsgFrom (frames.drop (i + 1)) else found.2)

def splitReq (envelope : Msg) : Option (List Bytes) × Msg :=
  splitLoop envelope.frames 0 envelope.frames (none, newMsgFrom [])

structure RepSocket (κ ω : Type) where
  msgCh : List (κ × Msg)
  conn : Option κ
  preamble : List Bytes
  conns : List κ
  net : ω

def repReaderRead : Program (RepSocket κ ω) Msg := do
  let s ← get
  match s.msgCh with
  | [] => throw .blocked
  | (conn, msg) :: rest =>
    modify fun s => { s with msgCh := rest }
    match msg.err with
    | some err => failWith err
    | none =>
      match splitReq msg with
      | (none, _) => failWith (.text "zmq4: invalid REP message")
      | (some pre, inner) =>
        modify fun s => { s with conn := some conn, preamble := pre }
        pure inner

structure RepSendPayload (κ : Type) where
  conn : Option κ
  preamble : List Bytes
  msg : Msg

def RepSendPayload.buildReplyMsg (payload : RepSendPayload κ) : Msg :=
  newMsgFrom (payload.preamble ++ payload.msg.frames)

def repWriterWrite (msg : Msg) : Program (RepSocket κ ω) (RepSendPayload κ) := do
  let s ← get
  pure { conn := s.conn, preamble := s.preamble, msg := msg }

/-- A reply for a connection that is gone is dropped, and so is the error of a
send. -/
def sendPayload [DecidableEq κ] (T : Transport κ ω) (payload : RepSendPayload κ) :
    Program (RepSocket κ ω) Unit := do
  let s ← get
  match s.conns.find? fun conn => payload.conn = some conn with
  | none => pure ()
  | some conn =>
    rescue (zoom (fun s => s.net) (fun s net => { s with net := net })
      (T.sendMsg conn payload.buildReplyMsg)) fun _ => pure ()

theorem splitLoop_append (frames first second : List Bytes) (i : Nat)
    (found : Option (List Bytes) × Msg) :
    splitLoop frames i (first ++ second) found =
      splitLoop frames (i + first.length) second (splitLoop frames i first found) := by
  induction first generalizing i found with
  | nil => rfl
  | cons frame rest ih =>
    have hindex : i + (frame :: rest).length = i + 1 + rest.length := by
      rw [List.length_cons]
      omega
    rw [List.cons_append, splitLoop, splitLoop, hindex]
    split
    · exact ih _ _
    · exact ih _ _

theorem splitLoop_full {rest : List Bytes} (hrest : ∀ frame ∈ rest, frame ≠ []) (i : Nat)
    (found : Option (List Bytes) × Msg) : splitLoop frames i rest found = found := by
  induction rest generalizing i with
  | nil => rfl
  | cons frame rest ih =>
    obtain ⟨hframe, hrest⟩ := List.forall_mem_cons.mp hrest
    rw [splitLoop, if_pos (by simpa using hframe), ih hrest]

theorem splitReq_last {before after : List Bytes} (hframes : msg.frames = before ++ [] :: after)
    (hafter : ∀ frame ∈ after, frame ≠ []) :
    (splitReq msg).1 = some (before ++ [[]]) ∧
      (after ≠ [] → (splitReq msg).2 = newMsgFrom after) := by
  have hsplice : msg.frames = (before ++ [[]]) ++ after := by
    rw [hframes, List.append_assoc]
    rfl
  have hcount : (before ++ [[]]).length = 0 + before.length + 1 := by
    simp
  have htake : msg.frames.take (0 + before.length + 1) = before ++ [[]] := by
    rw [hsplice, ← hcount, List.take_left]
  have hdrop : msg.frames.drop (0 + before.length + 1) = after := by
    rw [hsplice, ← hcount, List.drop_left]
  have hsplit : splitReq msg = splitLoop msg.frames (0 + before.length) ([] :: after)
      (splitLoop msg.frames 0 before (none, newMsgFrom [])) := by
    rw [splitReq, ← splitLoop_append, ← hframes]
  rw [hsplit, splitLoop, if_neg (by simp), splitLoop_full hafter, htake, hdrop]
  refine ⟨rfl, fun hne => ?_⟩
  have hlength : 0 + before.length + 1 < msg.frames.length := by
    have hpos := List.length_pos_of_ne_nil hne
    rw [hframes, List.length_append, List.length_cons]
    omega
  exact if_pos hlength

theorem repReaderRead_run {s : RepSocket κ ω} {conn : κ} {inner : Msg} {pre : List Bytes}
    {rest : List (κ × Msg)} (hmsg : s.msgCh = (conn, msg) :: rest) (herr : msg.err = none)
    (hsplit : splitReq msg = (some pre, inner)) :
    repReaderRead.run s =
      .ok inner { s with msgCh := rest, conn := some conn, preamble := pre } := by
  rw [repReaderRead, bind_ok (EStateM.run_get s)]
  simp only [hmsg, herr, hsplit]
  rfl

end Rep

/-- A request with this body, once written and delivered as it was sent, is
what the REP socket returns, and any reply that is not empty arrives as it was
written. -/
def Faithful (body : List Bytes) : Prop :=
  ∀ (κ ω κ' ω' : Type) (T : Transport κ ω) (req req' : ReqSocket κ ω) (msg : Msg),
    msg.frames = body → (reqWriterWrite T msg).run req = .ok () req' →
    ∃ conn net, req'.lastConn = some conn ∧
      (T.sendMsg conn (requestMsg msg)).run net = .ok () req'.net ∧
      ∀ (rep : RepSocket κ' ω') (conn' : κ') (rest : List (κ' × Msg)),
        rep.msgCh = (conn', newMsgFrom (requestMsg msg).frames) :: rest →
        ∃ got rep', repReaderRead.run rep = .ok got rep' ∧ got.frames = body ∧
          ∀ reply : Msg, reply.frames ≠ [] →
            ∃ payload, (repWriterWrite reply).run rep' = .ok payload rep' ∧
              payload.conn = some conn' ∧
              ∀ arrived net', (T.read conn).run arrived =
                  .ok (newMsgFrom payload.buildReplyMsg.frames) net' →
                ∃ answer, (reqReaderRead T).run { req' with net := arrived } =
                    .ok answer { req' with net := net' } ∧
                  answer.frames = reply.frames

theorem faithful_of_no_empty {body : List Bytes} (hbody : ∀ frame ∈ body, frame ≠ []) :
    Faithful body := by
  rintro κ ω κ' ω' T req req' msg rfl hwrite
  rw [reqWriterWrite, bind_ok (EStateM.run_get req)] at hwrite
  obtain ⟨conn, -, net, hsend, hlast⟩ := tryConns_ok T hwrite
  refine ⟨conn, net, hlast, hsend, ?_⟩
  intro rep conn' rest hdelivered
  let request := newMsgFrom (requestMsg msg).frames
  have hframes : request.frames = [] ++ [] :: msg.frames := rfl
  obtain ⟨hpre, hinner⟩ := splitReq_last hframes hbody
  have hgot : (splitReq request).2 = newMsgFrom msg.frames := by
    by_cases hempty : msg.frames = []
    · have hrequest : request = newMsgFrom [[]] := by
        simp [request, requestMsg, hempty]
      rw [hrequest, hempty]
      rfl
    · exact hinner hempty
  have hread := repReaderRead_run hdelivered rfl (Prod.ext hpre hgot)
  refine ⟨newMsgFrom msg.frames, _, hread, rfl, ?_⟩
  intro reply hreply
  refine ⟨_, rfl, rfl, ?_⟩
  intro arrived net' harrived
  refine ⟨_, reqReaderRead_run T (s := { req' with net := arrived }) hlast harrived rfl, ?_⟩
  change (stripDelimiter (newMsgFrom ([] :: reply.frames))).frames = reply.frames
  rw [stripDelimiter_newMsgFrom [] hreply]
  rfl

theorem exists_last_empty (hempty : [] ∈ frames) :
    ∃ before after, frames = before ++ [] :: after ∧ ∀ frame ∈ after, frame ≠ [] := by
  induction frames with
  | nil => cases hempty
  | cons frame rest ih =>
    by_cases hrest : [] ∈ rest
    · obtain ⟨before, after, rfl, hafter⟩ := ih hrest
      exact ⟨frame :: before, after, rfl, hafter⟩
    · have hframe : [] = frame := (List.mem_cons.mp hempty).resolve_right hrest
      refine ⟨[], rest, by rw [← hframe]; rfl, ?_⟩
      rintro other hother rfl
      exact hrest hother

def loneTransport : Transport Unit Msg where
  sendMsg _ _ := pure ()
  read _ := get

def loneReq : ReqSocket Unit Msg where
  conns := [()]
  nextConn := 0
  lastConn := none
  net := newMsgFrom []

theorem not_faithful_of_empty {body : List Bytes} (hempty : [] ∈ body) : ¬ Faithful body := by
  intro hbody
  obtain ⟨before, after, hsplice, hafter⟩ := exists_last_empty hempty
  let msg := newMsgFrom body
  let request := newMsgFrom (requestMsg msg).frames
  let rep : RepSocket Unit Unit :=
    { msgCh := [((), request)], conn := none, preamble := [], conns := [()], net := () }
  obtain ⟨conn, net, hlast, -, hdeliver⟩ :=
    hbody Unit Msg Unit Unit loneTransport loneReq _ msg rfl (rfl)
  obtain ⟨got, rep', hread, -, hreply⟩ := hdeliver rep () [] rfl
  have hframes : request.frames = ([] :: before) ++ [] :: after := by
    change [] :: body = _
    rw [hsplice]
    rfl
  obtain ⟨hpre, -⟩ := splitReq_last hframes hafter
  have hrun := repReaderRead_run (s := rep) rfl rfl (Prod.ext hpre rfl)
  rw [hrun] at hread
  obtain ⟨-, rfl⟩ := by simpa using hread
  obtain ⟨payload, hpayload, -, harrive⟩ := hreply (newMsgFrom [[1]]) (by simp [newMsgFrom])
  obtain ⟨rfl, -⟩ := by simpa using hpayload.symm
  obtain ⟨answer, hanswer, hsame⟩ := harrive _ _ rfl
  have hstrip := reqReaderRead_run loneTransport (s := { loneReq with
    lastConn := some (), net := newMsgFrom (([] :: before ++ [[]]) ++ [[1]]) }) rfl rfl rfl
  obtain ⟨rfl, -⟩ := by simpa using hanswer.symm.trans hstrip
  have hlong : before ++ [[], [1]] = [[1]] := by
    simpa [stripDelimiter, newMsgFrom] using hsame
  have hlength := congrArg List.length hlong
  simp at hlength

/-- A body comes through exactly when none of its frames is empty. -/
theorem faithful_iff_no_empty (body : List Bytes) :
    Faithful body ↔ ∀ frame ∈ body, frame ≠ [] := by
  constructor
  · rintro hbody frame hframe rfl
    exact not_faithful_of_empty hframe hbody
  · exact faithful_of_no_empty

theorem empty_payload_frame_lost : ¬ Faithful [[1], [], [2]] :=
  not_faithful_of_empty (by simp)

section Wire

variable {κ σ : Type} [DecidableEq κ]

def endpointTransport (S : Security σ) : Transport κ (κ → Endpoint σ) where
  sendMsg conn msg :=
    zoom (fun net => net conn) (fun net w => Function.update net conn w) (sendMsg S msg)
  read conn := zoom (fun net => net conn) (fun net w => Function.update net conn w) (read S)

/-- Without encryption a request is written to the connection whose turn it is,
and the other end of the stream reads it as it was sent. -/
theorem request_over_wire {S : Security σ} (hS : Transparent S)
    (hsize : ∀ frame ∈ msg.frames, frame.length < 2 ^ 63) {req : ReqSocket κ (κ → Endpoint σ)}
    (hne : req.conns ≠ []) (hhealthy : ∀ conn ∈ req.conns, (req.net conn).Healthy) :
    ∃ req' conn buffers, req.conns[req.nextConn % req.conns.length]? = some conn ∧
      (reqWriterWrite (endpointTransport S) msg).run req = .ok () req' ∧
      req'.lastConn = some conn ∧ req'.net conn = (req.net conn).wrote buffers ∧
      (∀ other, other ≠ conn → req'.net other = req.net other) ∧
      ∀ (receiver : Endpoint σ) (rest : Bytes),
        receiver.conn.rw.input = buffers.flatten ++ rest →
        (read S).run receiver =
          .ok (newMsgFrom (requestMsg msg).frames) (receiver.withInput rest) := by
  have hlt : req.nextConn % req.conns.length < req.conns.length :=
    Nat.mod_lt _ (List.length_pos_of_ne_nil hne)
  let conn := req.conns[req.nextConn % req.conns.length]
  obtain ⟨buffers, hsend, hbytes⟩ :=
    hS.sendMsg_run (hhealthy conn (List.getElem_mem hlt)) (requestMsg msg)
  have hconn : req.conns[req.nextConn % req.conns.length]? = some conn :=
    List.getElem?_eq_getElem hlt
  obtain ⟨req', hrun, hlast, hnet⟩ :=
    reqWriterWrite_run (endpointTransport S) hconn (zoom_ok hsend)
  refine ⟨req', conn, buffers, hconn, hrun, hlast, by rw [hnet, Function.update_self], ?_, ?_⟩
  · intro other hother
    rw [hnet, Function.update_of_ne hother]
  intro receiver rest hinput
  refine read_run S (by simp [requestMsg]) ?_ (by rw [hinput, hbytes]) (hS.contents_run _ _)
  exact List.forall_mem_cons.mpr
    ⟨Nat.zero_le _, fun frame hframe => Nat.le_pred_of_lt (hsize frame hframe)⟩

def twoConns : ReqSocket Bool (Bool → Endpoint Unit) where
  conns := [false, true]
  nextConn := 3
  lastConn := none
  net _ := ⟨(), Conn.fresh .empty⟩

theorem request_over_second_wire :
    ∃ req', (reqWriterWrite (endpointTransport nullSecurity) (newMsgFrom [[1]])).run twoConns =
        .ok () req' ∧
      req'.lastConn = some true ∧ req'.net false = twoConns.net false := by
  have hsize : ∀ frame ∈ (newMsgFrom [[1]]).frames, frame.length < 2 ^ 63 := by decide
  have hhealthy : ∀ conn ∈ twoConns.conns, (twoConns.net conn).Healthy := fun _ _ => ⟨rfl, rfl⟩
  obtain ⟨req', conn, _, hconn, hrun, hlast, _, hothers, _⟩ :=
    request_over_wire transparent_nullSecurity hsize (List.cons_ne_nil _ _) hhealthy
  obtain rfl : true = conn := Option.some_inj.mp hconn
  exact ⟨req', hrun, hlast, hothers false nofun⟩

end Wire

end Zmq4.RequestReply
