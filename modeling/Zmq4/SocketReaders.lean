import Mathlib.Data.Finset.Basic
import Mathlib.Data.List.Flatten
import Zmq4.ConnectionStreams
import Zmq4.RequestReply

namespace Zmq4.SocketReaders

open ByteCodec DuplexProgram ProgramEffects ZmtpMessage ZmtpMetadata Connection ConnectionStreams
  RequestReply

def cmdPing : Bytes := ascii "PING"
def cmdPong : Bytes := ascii "PONG"

/-- The context of a PING follows two bytes of time to live.  A context above
sixteen bytes is not sent back. -/
def pongBody (body : Bytes) : Bytes :=
  if body.length > 2 ∧ (body.drop 2).length ≤ 16 then body.drop 2 else []

/-- What a listener has done so far: the messages on its channel, and the topics
of a publisher's connection. -/
structure Listening where
  queue : List Msg
  topics : Finset Bytes

def Listening.start : Listening where
  queue := []
  topics := ∅

def Listening.push (st : Listening) (msg : Msg) : Listening :=
  { st with queue := st.queue ++ [msg] }

/-- A reader: what its listener does with a message and whether it goes on, and
what `Recv` returns for a message from the channel. -/
structure SocketReader where
  handle : Msg → Listening → Listening × Bool
  recv : Msg → Except Err Msg

def recvQueued (msg : Msg) : Except Err Msg :=
  match msg.err with
  | some err => .error err
  | none => .ok msg

def untilError (accept : Msg → Listening → Listening) (msg : Msg) (st : Listening) :
    Listening × Bool :=
  if msg.err.isSome then (st, false) else (accept msg st, true)

/-- The error goes on the channel before the listener ends. -/
def qreader : SocketReader where
  handle msg st := (st.push msg, msg.err.isNone)
  recv := recvQueued

def routerQReader (id : Bytes) : SocketReader where
  handle := untilError fun msg st => st.push { msg with frames := id :: msg.frames }
  recv := recvQueued

def isTopic (msg : Msg) : Bool :=
  match msg.frames with
  | [first :: _] => first = 0 || first = 1
  | _ => false

def subscribe (msg : Msg) (topics : Finset Bytes) : Finset Bytes :=
  match msg.frames with
  | (first :: topic) :: _ =>
    if first = 0 then topics.erase topic
    else if first = 1 then insert topic topics
    else topics
  | _ => topics

def pubQReader : SocketReader where
  handle := untilError fun msg st =>
    if isTopic msg then { st with topics := subscribe msg st.topics } else st.push msg
  recv := recvQueued

def repRecv (msg : Msg) : Except Err Msg :=
  match msg.err with
  | some err => .error err
  | none =>
    match splitReq msg with
    | (none, _) => .error (.text "zmq4: invalid REP message")
    | (some _, inner) => .ok inner

def repReader : SocketReader where
  handle := untilError fun msg st => st.push msg
  recv := repRecv

/-- REQ has no listener: each `Recv` reads one message itself. -/
def reqReader : SocketReader where
  handle := qreader.handle
  recv msg := (recvQueued msg).map stripDelimiter

inductive ReaderKind where
  | qreader
  | routerQReader
  | pubQReader
  | repReader
  | reqReader
  deriving DecidableEq

/-- The reader of a socket on a connection with the given peer metadata. -/
def ReaderKind.reader (kind : ReaderKind) (peerMeta : Metadata) : SocketReader :=
  match kind with
  | .qreader => SocketReaders.qreader
  | .routerQReader => SocketReaders.routerQReader (peerMeta.get sysSockId)
  | .pubQReader => SocketReaders.pubQReader
  | .repReader => SocketReaders.repReader
  | .reqReader => SocketReaders.reqReader

section Loops

variable {σ : Type} (S : Security σ)

def listen (reader : SocketReader) : Nat → Listening → Endpoint σ → Listening × Endpoint σ
  | 0, st, w => (st, w)
  | rounds + 1, st, w =>
    match (read S).run w with
    | .error _ w' => (st, w')
    | .ok msg w' =>
      let (st', goOn) := reader.handle msg st
      if goOn then listen reader rounds st' w' else (st', w')

def streamMessages : Nat → Endpoint σ → List Msg
  | 0, _ => []
  | rounds + 1, w =>
    match (read S).run w with
    | .error _ _ => []
    | .ok msg w' => if msg.err.isSome then [] else msg :: streamMessages rounds w'

def pingBody (msg : Msg) : Option Bytes :=
  match msg.isCmd, msg.frames with
  | true, [frame] =>
    match Cmd.unmarshalZmtp frame with
    | .ok cmd => if cmd.name = cmdPing then some cmd.body else none
    | .error _ => none
  | _, _ => none

def SocketReader.received (reader : SocketReader) (st : Listening) : List Msg :=
  (st.queue.map reader.recv).filterMap Except.toOption

def SocketReader.deliver (reader : SocketReader) (msg : Msg) : List Msg :=
  reader.received (reader.handle msg Listening.start).1

def PongsSent : List Bytes → List Bytes → Prop
  | [], buffers => buffers = []
  | body :: rest, buffers =>
    ∃ first more w w', buffers = first ++ more ∧ (sendCmd S cmdPong body).run w = .ok () w' ∧
      w'.conn.rw.output = w.conn.rw.output ++ first ∧ PongsSent rest more

/-- Every frame takes input, so there are no more messages than unread bytes. -/
def streamRounds (w : Endpoint σ) : Nat :=
  w.conn.rw.input.length + 1

/-- The application gets what the reader makes of the messages that are no
commands, and each PING is answered. -/
structure CommandsHidden (kind : ReaderKind) (w : Endpoint σ) : Prop where
  handed :
    let reader := kind.reader w.conn.peerMeta
    reader.received (listen S reader (streamRounds w) Listening.start w).1 =
      ((streamMessages S (streamRounds w) w).filter fun msg => !msg.isCmd).flatMap reader.deliver
  answered :
    ∃ buffers,
      (listen S (kind.reader w.conn.peerMeta) (streamRounds w) Listening.start w).2.conn.rw.output =
        w.conn.rw.output ++ buffers ∧
      PongsSent S (((streamMessages S (streamRounds w) w).filterMap pingBody).map pongBody) buffers

/-- The commands that a reader keeps from the application although it does not
know them for commands. -/
def Harmless : ReaderKind → Msg → Prop
  | .pubQReader, msg => isTopic msg = true
  | .repReader, msg => (∀ frame ∈ msg.frames, frame ≠ []) ∧ pingBody msg = none
  | _, _ => False

end Loops

variable {msg : Msg}

section Readers

/-- A listener goes on after each message and stops at an error, and what it
hands over grows by what it makes of the message. -/
structure Regular (reader : SocketReader) : Prop where
  accepts : ∀ msg st, msg.err = none → (reader.handle msg st).2 = true ∧
    reader.received (reader.handle msg st).1 = reader.received st ++ reader.deliver msg
  stops : ∀ msg st, msg.err ≠ none → (reader.handle msg st).2 = false ∧
    reader.received (reader.handle msg st).1 = reader.received st

theorem received_push (reader : SocketReader) (st : Listening) (msg : Msg) :
    reader.received (st.push msg) = reader.received st ++ (reader.recv msg).toOption.toList := by
  simp only [SocketReader.received, Listening.push, List.map_append, List.filterMap_append,
    List.map_cons, List.map_nil]
  cases reader.recv msg <;> rfl

theorem received_start (reader : SocketReader) : reader.received Listening.start = [] :=
  rfl

theorem toOption_recvQueued (herr : msg.err ≠ none) : (recvQueued msg).toOption = none := by
  unfold recvQueued
  split
  · rfl
  · exact absurd ‹_› herr

theorem regular_untilError {reader : SocketReader} {accept : Msg → Listening → Listening}
    (hhandle : reader.handle = untilError accept)
    (haccept : ∀ msg st, msg.err = none → reader.received (accept msg st) =
      reader.received st ++ reader.received (accept msg Listening.start)) : Regular reader := by
  constructor
  · intro msg st herr
    simp only [SocketReader.deliver, hhandle, untilError, herr, Option.isSome_none,
      Bool.false_eq_true, if_false, true_and]
    exact haccept msg st herr
  · intro msg st herr
    have hsome : msg.err.isSome = true := Option.isSome_iff_ne_none.mpr herr
    simp [hhandle, untilError, hsome]

theorem regular_pushing {reader : SocketReader}
    (hhandle : reader.handle = fun msg st => (st.push msg, msg.err.isNone))
    (hrecv : ∀ msg, msg.err ≠ none → (reader.recv msg).toOption = none) : Regular reader := by
  constructor
  · intro msg st herr
    simp [SocketReader.deliver, hhandle, herr, received_push, received_start]
  · intro msg st herr
    have hnone : msg.err.isNone = false :=
      Option.isNone_eq_false_iff.mpr (Option.isSome_iff_ne_none.mpr herr)
    simp [hhandle, hnone, received_push, hrecv msg herr]

theorem regular_reader (kind : ReaderKind) (peerMeta : Metadata) :
    Regular (kind.reader peerMeta) := by
  cases kind with
  | qreader => exact regular_pushing rfl fun msg => toOption_recvQueued
  | routerQReader | repReader =>
    refine regular_untilError rfl fun msg st _ => ?_
    rw [received_push, received_push, received_start, List.nil_append]
  | pubQReader =>
    refine regular_untilError rfl fun msg st _ => ?_
    split
    · exact (List.append_nil _).symm
    · rw [received_push, received_push, received_start, List.nil_append]
  | reqReader =>
    refine regular_pushing rfl fun msg herr => ?_
    change ((recvQueued msg).map stripDelimiter).toOption = none
    have hnone := toOption_recvQueued herr
    cases hrecv : recvQueued msg with
    | error err => rfl
    | ok m =>
      rw [hrecv] at hnone
      cases hnone

end Readers

section Runs

variable {σ : Type} (S : Security σ)

theorem read_written (w : Endpoint σ) :
    (finalState ((read S).run w)).conn.rw.output = w.conn.rw.output :=
  readLoop_written S _ _ _ w

theorem listen_written (reader : SocketReader) (rounds : Nat) (st : Listening) (w : Endpoint σ) :
    (listen S reader rounds st w).2.conn.rw.output = w.conn.rw.output := by
  induction rounds generalizing st w with
  | zero => rfl
  | succ rounds ih =>
    have hread := read_written S w
    rw [listen]
    cases hrun : (read S).run w with
    | error stop v =>
      rw [hrun] at hread
      exact hread
    | ok msg v =>
      rw [hrun] at hread
      dsimp only
      split
      · exact (ih _ v).trans hread
      · exact hread

theorem listen_received {reader : SocketReader} (hreader : Regular reader) (rounds : Nat)
    (st : Listening) (w : Endpoint σ) :
    reader.received (listen S reader rounds st w).1 =
      reader.received st ++ (streamMessages S rounds w).flatMap reader.deliver := by
  induction rounds generalizing st w with
  | zero => exact (List.append_nil _).symm
  | succ rounds ih =>
    rw [listen, streamMessages]
    cases hrun : (read S).run w with
    | error stop v => exact (List.append_nil _).symm
    | ok msg v =>
      dsimp only
      cases herr : msg.err with
      | none =>
        obtain ⟨hgo, hgrows⟩ := hreader.accepts msg st herr
        rw [if_pos hgo, ih, hgrows]
        simp
      | some err =>
        obtain ⟨hstop, hsame⟩ := hreader.stops msg st (by simp [herr])
        rw [hstop, if_neg (by simp), hsame]
        simp

variable {w : Endpoint σ}

theorem streamMessages_err {rounds : Nat} (hmsg : msg ∈ streamMessages S rounds w) :
    msg.err = none := by
  induction rounds generalizing w with
  | zero => cases hmsg
  | succ rounds ih =>
    rw [streamMessages] at hmsg
    split at hmsg
    · cases hmsg
    · split at hmsg
      · cases hmsg
      · rename_i herr
        rcases List.mem_cons.mp hmsg with rfl | hrest
        · simpa using herr
        · exact ih hrest

theorem sendCmd_writes {name body : Bytes} (hname : isCurveHandshakeCommand name = false)
    {w' : Endpoint σ} (hsend : (sendCmd S name body).run w = .ok () w') :
    w'.conn.rw.output ≠ w.conn.rw.output := by
  rw [sendCmd, bind_ok (EStateM.run_get w)] at hsend
  split at hsend
  · cases hsend
  rw [if_neg (by simp [hname]), marshalAndSend] at hsend
  split at hsend
  · cases hsend
  rename_i buf _
  rw [send, bind_eq_ok_iff] at hsend
  obtain ⟨_, w₁, hready, hsend⟩ := hsend
  obtain ⟨_, w₂, hheader, hbody⟩ := bind_eq_ok_iff.mp hsend
  obtain rfl := write_run_eq hheader
  let header := frameHeader (frameFlag S true buf 0) (frameSize S true buf)
  have hfirst := (checkReadiness_streams S true).grows w
  have hlast := (writeBody_streams S true buf (frameFlag S true buf 0)).grows (w₁.wrote [header])
  rw [hready] at hfirst
  rw [hbody] at hlast
  intro hsame
  have hle : w.conn.rw.output.length ≤ w₁.conn.rw.output.length := hfirst.length_le
  have hlt : (w₁.conn.rw.output ++ [header]).length ≤ w'.conn.rw.output.length :=
    hlast.length_le
  rw [hsame, List.length_append, List.length_singleton] at hlt
  omega

theorem pongsSent_nil {bodies : List Bytes} : PongsSent S bodies [] ↔ bodies = [] := by
  constructor
  · intro hsent
    rcases bodies with _ | ⟨body, rest⟩
    · rfl
    · obtain ⟨first, more, w, w', hnil, hsend, houtput, -⟩ := hsent
      obtain ⟨rfl, -⟩ := List.append_eq_nil_iff.mp hnil.symm
      rw [List.append_nil] at houtput
      exact absurd houtput (sendCmd_writes S (by decide) hsend)
  · rintro rfl
    rfl

theorem filter_flatMap_eq_iff {α β : Type} {l : List α} {p : α → Bool} {f : α → List β} :
    l.flatMap f = (l.filter p).flatMap f ↔ ∀ a ∈ l, p a = false → f a = [] := by
  induction l with
  | nil => simp
  | cons a l ih =>
    cases hp : p a with
    | true => simp [hp, ih]
    | false =>
      have hlength : ((l.filter p).flatMap f).length ≤ (l.flatMap f).length :=
        (List.filter_sublist.flatMap f).length_le
      simp only [List.flatMap_cons, List.filter_cons, hp, Bool.false_eq_true, if_false,
        List.forall_mem_cons, true_imp_iff]
      rw [← ih]
      constructor
      · intro hsame
        have hcount := congrArg List.length hsame
        rw [List.length_append] at hcount
        have hnil : f a = [] := List.eq_nil_of_length_eq_zero (by omega)
        rw [hnil, List.nil_append] at hsame
        exact ⟨hnil, hsame⟩
      · rintro ⟨hnil, hsame⟩
        rw [hnil, List.nil_append, hsame]

end Runs

section Conditions

theorem splitReq_none_iff : (splitReq msg).1 = none ↔ ∀ frame ∈ msg.frames, frame ≠ [] := by
  constructor
  · rintro hsplit frame hframe rfl
    obtain ⟨before, after, hframes, hafter⟩ := exists_last_empty hframe
    rw [(splitReq_last hframes hafter).1] at hsplit
    cases hsplit
  · intro hfull
    rw [splitReq, splitLoop_full hfull]

theorem repRecv_eq_none_iff (herr : msg.err = none) :
    (repRecv msg).toOption = none ↔ ∀ frame ∈ msg.frames, frame ≠ [] := by
  rw [← splitReq_none_iff]
  unfold repRecv
  simp only [herr]
  rcases hsplit : splitReq msg with ⟨_ | pre, inner⟩
  · simp [Except.toOption]
  · simp [Except.toOption]

/-- The name of a PING has four bytes, so a PING is never taken for a
subscription. -/
theorem pingBody_of_isTopic (htopic : isTopic msg = true) : pingBody msg = none := by
  unfold isTopic at htopic
  split at htopic
  · rename_i first topic hframes
    have hsmall : first.toNat ≤ 1 := by
      simp only [Bool.or_eq_true, decide_eq_true_eq] at htopic
      rcases htopic with rfl | rfl
      · decide
      · decide
    unfold pingBody
    split
    · rename_i frame _ hone
      obtain rfl : first :: topic = frame := by
        rw [hframes] at hone
        simpa using hone
      by_cases hlong : first.toNat > topic.length
      · simp [Cmd.unmarshalZmtp, hlong]
      · have hname : topic.take first.toNat ≠ cmdPing := by
          intro hping
          have hlength := congrArg List.length hping
          rw [List.length_take, show cmdPing.length = 4 from rfl] at hlength
          omega
        simp [Cmd.unmarshalZmtp, hlong, hname]
    · rfl
  · cases htopic

theorem toOption_recvQueued_ok (herr : msg.err = none) : (recvQueued msg).toOption = some msg := by
  simp [recvQueued, herr, Except.toOption]

theorem harmless_iff (kind : ReaderKind) (peerMeta : Metadata) (herr : msg.err = none) :
    Harmless kind msg ↔ (kind.reader peerMeta).deliver msg = [] ∧ pingBody msg = none := by
  have hnone : msg.err.isSome = false := by simp [herr]
  cases kind with
  | qreader =>
    simp [Harmless, ReaderKind.reader, SocketReader.deliver, qreader, received_push,
      received_start, toOption_recvQueued_ok herr]
  | routerQReader =>
    let routed : Msg := { msg with frames := peerMeta.get sysSockId :: msg.frames }
    have hok : (recvQueued routed).toOption = some routed := toOption_recvQueued_ok herr
    simp [Harmless, ReaderKind.reader, SocketReader.deliver, routerQReader, untilError, hnone,
      received_push, received_start, routed, hok]
  | pubQReader =>
    cases htopic : isTopic msg with
    | true =>
      simp [Harmless, ReaderKind.reader, SocketReader.deliver, pubQReader, untilError, hnone,
        htopic, SocketReader.received, Listening.start, pingBody_of_isTopic htopic]
    | false =>
      simp [Harmless, ReaderKind.reader, SocketReader.deliver, pubQReader, untilError, hnone,
        htopic, received_push, received_start, toOption_recvQueued_ok herr]
  | repReader =>
    simp [Harmless, ReaderKind.reader, SocketReader.deliver, repReader, untilError, hnone,
      received_push, received_start, ← repRecv_eq_none_iff herr]
  | reqReader =>
    have hok : ((recvQueued msg).map stripDelimiter).toOption = some (stripDelimiter msg) := by
      simp [recvQueued, herr, Except.toOption, Except.map]
    simp [Harmless, ReaderKind.reader, SocketReader.deliver, reqReader, qreader, received_push,
      received_start, hok]

end Conditions

section Hidden

variable {σ : Type} (S : Security σ) {kind : ReaderKind} {w : Endpoint σ}

theorem received_eq (kind : ReaderKind) (w : Endpoint σ) :
    (kind.reader w.conn.peerMeta).received
        (listen S (kind.reader w.conn.peerMeta) (streamRounds w) Listening.start w).1 =
      (streamMessages S (streamRounds w) w).flatMap (kind.reader w.conn.peerMeta).deliver := by
  have hreceived := listen_received S (regular_reader kind w.conn.peerMeta) (streamRounds w)
    Listening.start w
  rwa [received_start, List.nil_append] at hreceived

theorem harmless_of_commandsHidden (hhidden : CommandsHidden S kind w)
    (hmsg : msg ∈ streamMessages S (streamRounds w) w) (hcmd : msg.isCmd = true) :
    Harmless kind msg := by
  obtain ⟨hhanded, buffers, hbuffers, hpongs⟩ := hhidden
  rw [listen_written] at hbuffers
  obtain rfl : buffers = [] := by simpa using hbuffers
  rw [pongsSent_nil, List.map_eq_nil_iff, List.filterMap_eq_nil_iff] at hpongs
  have hnothing := filter_flatMap_eq_iff.mp ((received_eq S kind w).symm.trans hhanded) msg hmsg
    (by simp [hcmd])
  exact (harmless_iff kind w.conn.peerMeta (streamMessages_err S hmsg)).mpr
    ⟨hnothing, hpongs msg hmsg⟩

/-- Commands stay hidden exactly when every command on the stream is one that
the reader happens to keep to itself. -/
theorem commandsHidden_iff (kind : ReaderKind) (w : Endpoint σ) :
    CommandsHidden S kind w ↔
      ∀ msg ∈ streamMessages S (streamRounds w) w, msg.isCmd = true → Harmless kind msg := by
  constructor
  · intro hhidden msg hmsg hcmd
    exact harmless_of_commandsHidden S hhidden hmsg hcmd
  · intro hharmless
    have hnone : ∀ msg ∈ streamMessages S (streamRounds w) w, msg.isCmd = true →
        (kind.reader w.conn.peerMeta).deliver msg = [] ∧ pingBody msg = none := by
      intro msg hmsg hcmd
      exact (harmless_iff kind w.conn.peerMeta (streamMessages_err S hmsg)).mp
        (hharmless msg hmsg hcmd)
    refine ⟨?_, [], by rw [listen_written, List.append_nil], ?_⟩
    · refine (received_eq S kind w).trans (filter_flatMap_eq_iff.mpr ?_)
      intro msg hmsg hcmd
      exact (hnone msg hmsg (by simpa using hcmd)).1
    · rw [pongsSent_nil, List.map_eq_nil_iff, List.filterMap_eq_nil_iff]
      intro msg hmsg
      by_cases hcmd : msg.isCmd = true
      · exact (hnone msg hmsg hcmd).2
      · simp [pingBody, hcmd]

end Hidden

def pingedEndpoint : Endpoint Unit where
  sec := ()
  conn :=
    { Conn.fresh Metadata.empty with
      rw := { input := [4, 7, 4, 80, 73, 78, 71, 0, 0], closedByPeer := false, output := []
              writeErr := none } }

theorem ping_reaches_application :
    ¬ ∃ kind : ReaderKind, CommandsHidden nullSecurity kind pingedEndpoint := by
  rintro ⟨kind, hhidden⟩
  have hmessages : streamMessages nullSecurity (streamRounds pingedEndpoint) pingedEndpoint =
      [{ frames := [[4, 80, 73, 78, 71, 0, 0]], msgType := .cmdMsg, multipart := false
         err := none }] := by
    rfl
  have hharmless := harmless_of_commandsHidden nullSecurity hhidden
    (by rw [hmessages]; exact List.mem_singleton.mpr rfl) rfl
  cases kind with
  | qreader | routerQReader | reqReader => exact hharmless
  | pubQReader => exact Bool.false_ne_true hharmless
  | repReader => exact absurd hharmless.2 (by decide)

end Zmq4.SocketReaders
