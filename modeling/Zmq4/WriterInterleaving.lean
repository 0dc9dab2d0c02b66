import Zmq4.OpenHandshake
import Zmq4.TaskInterleaving

namespace Zmq4.WriterInterleaving

open ActionRuns TaskInterleaving ByteCodec DuplexProgram ZmtpMessage ZmtpMetadata Connection
  FrameStream CommandStream FramingRoundTrip OpenHandshake

variable {σ : Type} (S : Security σ)

/-- What a writer has left to do.  Each step of `steps` ends with its write.
The vectored path makes its buffers before the first write. -/
inductive WriteTask (σ : Type) where
  | steps (todo : List (ConnM σ Unit))
  | vectored (frames : List Bytes)
  | buffers (left : List Bytes)

def frameWrites (command : Bool) (body : Bytes) (flag : UInt8) : List (ConnM σ Unit) :=
  (do
    checkReadiness S command
    checked (onRw (write
      (frameHeader (frameFlag S command body flag) (frameSize S command body))))) ::
    if body.length = 0 then [] else [writeBody S command body (frameFlag S command body flag)]

def messageWrites (nframes : Nat) : Nat → List Bytes → List (ConnM σ Unit)
  | _, [] => []
  | index, frame :: rest =>
    let flag := if rest = [] then 0 else hasMoreBitFlag
    (frameWrites S false frame flag).map
        (wrapping s!"zmq4: error sending frame {index + 1}/{nframes}") ++
      messageWrites nframes (index + 1) rest

def marshalWrites (name body : Bytes) : List (ConnM σ Unit) :=
  match Cmd.marshalZmtp { name := name, body := body } with
  | .error err => [failWith err]
  | .ok buf => frameWrites S true buf 0

def commandWrites (name body : Bytes) : List (ConnM σ Unit) :=
  if S.securityType = .curveSecurity ∧ isCurveHandshakeCommand name then
    match S.encryptHandshakeCommand with
    | some encrypt =>
      [checked (onRw (write
        (frameHeader (longFlag 0 body.length ^^^ isCommandBitFlag) body.length))),
        writeSealed (encrypt name body)]
    | none => marshalWrites S name body
  else marshalWrites S name body

def ifOpen {α : Type} (x : ConnM σ α) : ConnM σ α := do
  if (← get).conn.closed then failWith errClosedConn else x

def firstIfOpen : List (ConnM σ Unit) → List (ConnM σ Unit)
  | [] => []
  | first :: rest => ifOpen first :: rest

inductive ConnCall where
  | sendMsg (msg : Msg)
  | sendCmd (name body : Bytes)

def ConnCall.exec : ConnCall → ConnM σ Unit
  | .sendMsg msg => Connection.sendMsg S msg
  | .sendCmd name body => Connection.sendCmd S name body

def ConnCall.task : ConnCall → WriteTask σ
  | .sendMsg msg =>
    if msg.multipart then .vectored msg.frames
    else .steps (firstIfOpen (messageWrites S msg.frames.length 0 msg.frames))
  | .sendCmd name body => .steps (firstIfOpen (commandWrites S name body))

def inOrder : List (ConnM σ Unit) → ConnM σ Unit
  | [] => pure ()
  | first :: rest => do
      first
      inOrder rest

def writeNext : List Bytes → ConnM σ (WriteTask σ)
  | [] => pure (.buffers [])
  | buffer :: rest => do
      checked (onRw (write buffer))
      pure (.buffers rest)

def writeAll : List Bytes → ConnM σ Unit
  | [] => pure ()
  | buffer :: rest => do
      checked (onRw (write buffer))
      writeAll rest

namespace WriteTask

def next : WriteTask σ → ConnM σ (WriteTask σ)
  | .steps [] => pure (.steps [])
  | .steps (first :: rest) => do
      first
      pure (.steps rest)
  | .vectored frames => do
      let buffers ← ifOpen (multiBuffers S frames)
      writeNext buffers
  | .buffers left => writeNext left

def finished : WriteTask σ → Bool
  | .steps [] => true
  | .buffers [] => true
  | _ => false

def whole : WriteTask σ → ConnM σ Unit
  | .steps todo => inOrder todo
  | .vectored frames => do
      let buffers ← ifOpen (multiBuffers S frames)
      writeAll buffers
  | .buffers left => writeAll left

theorem whole_of_finished {task : WriteTask σ} (hdone : task.finished = true) :
    task.whole S = pure () := by
  rcases task with (_ | ⟨first, rest⟩) | frames | (_ | ⟨buffer, rest⟩)
  · rfl
  · cases hdone
  · cases hdone
  · rfl
  · cases hdone

theorem writeNext_whole (buffers : List Bytes) :
    writeNext buffers >>= whole S = writeAll buffers := by
  rcases buffers with _ | ⟨buffer, rest⟩
  · rw [writeNext, pure_bind]
    rfl
  · rw [writeNext, bind_assoc]
    simp only [pure_bind]
    rfl

theorem whole_eq_next {task : WriteTask σ} (hleft : task.finished = false) :
    task.whole S = task.next S >>= whole S := by
  rcases task with (_ | ⟨first, rest⟩) | frames | left
  · cases hleft
  · rw [next, bind_assoc]
    simp only [pure_bind]
    rfl
  · rw [next, bind_assoc]
    simp only [writeNext_whole]
    rfl
  · exact (writeNext_whole S left).symm

end WriteTask

def writers : Stepped ConnCall (WriteTask σ) (Endpoint σ) where
  task := ConnCall.task S
  next := WriteTask.next S
  finished := WriteTask.finished
  whole := WriteTask.whole S
  whole_finished _ := WriteTask.whole_of_finished S
  whole_next _ := WriteTask.whole_eq_next S

variable {call : ConnCall}

section Refinement

theorem inOrder_append (first second : List (ConnM σ Unit)) :
    inOrder (first ++ second) = inOrder first >>= fun _ => inOrder second := by
  induction first with
  | nil => rfl
  | cons x rest ih =>
    rw [List.cons_append, inOrder, inOrder, ih, bind_assoc]

theorem inOrder_map_wrapping (message : String) (todo : List (ConnM σ Unit)) (hne : todo ≠ []) :
    inOrder (todo.map (wrapping message)) = wrapping message (inOrder todo) := by
  induction todo with
  | nil => exact absurd rfl hne
  | cons x rest ih =>
    rw [List.map_cons, inOrder, inOrder, wrapping_bind]
    congr 1
    funext u
    rcases rest with _ | ⟨y, rest⟩
    · rfl
    · exact ih (List.cons_ne_nil y rest)

theorem inOrder_frameWrites (command : Bool) (body : Bytes) (flag : UInt8) :
    inOrder (frameWrites S command body flag) = send S command body flag := by
  rw [frameWrites, inOrder, send, bind_assoc]
  congr 1
  funext u
  congr 1
  funext v
  by_cases hbody : body.length = 0
  · have hmessage : isMessageFrame S command body = false := by simp [isMessageFrame, hbody]
    rw [if_pos hbody, writeBody, hmessage, if_neg Bool.false_ne_true, if_pos hbody]
    rfl
  · rw [if_neg hbody]
    exact bind_pure _

theorem inOrder_messageWrites (nframes index : Nat) (frames : List Bytes) :
    inOrder (messageWrites S nframes index frames) = sendFrames S nframes index frames := by
  induction frames generalizing index with
  | nil => rfl
  | cons frame rest ih =>
    have hne : ∀ flag, frameWrites S false frame flag ≠ [] := fun _ => List.cons_ne_nil _ _
    rw [messageWrites, inOrder_append, inOrder_map_wrapping _ _ (hne _), inOrder_frameWrites, ih,
      sendFrames]

theorem inOrder_marshalWrites (name body : Bytes) :
    inOrder (marshalWrites S name body) = marshalAndSend S name body 0 := by
  unfold marshalWrites marshalAndSend
  cases Cmd.marshalZmtp { name := name, body := body } with
  | error err => rfl
  | ok buf => exact inOrder_frameWrites S true buf 0

variable {α β : Type}

theorem ifOpen_bind (x : ConnM σ α) (f : α → ConnM σ β) : ifOpen x >>= f = ifOpen (x >>= f) := by
  rw [ifOpen, ifOpen, bind_assoc]
  congr 1
  funext w
  split
  · rfl
  · rfl

theorem inOrder_firstIfOpen {todo : List (ConnM σ Unit)} (hne : todo ≠ []) :
    inOrder (firstIfOpen todo) = ifOpen (inOrder todo) := by
  rcases todo with _ | ⟨first, rest⟩
  · exact absurd rfl hne
  · rw [firstIfOpen, inOrder, inOrder, ifOpen_bind]

theorem commandWrites_ne_nil (name body : Bytes) : commandWrites S name body ≠ [] := by
  have hmarshal : marshalWrites S name body ≠ [] := by
    unfold marshalWrites
    split
    · exact List.cons_ne_nil _ _
    · exact List.cons_ne_nil _ _
  unfold commandWrites
  split
  · split
    · exact List.cons_ne_nil _ _
    · exact hmarshal
  · exact hmarshal

theorem inOrder_commandWrites (name body : Bytes) :
    ifOpen (inOrder (commandWrites S name body)) = sendCmd S name body := by
  rw [ifOpen, sendCmd]
  congr 1
  funext w
  split
  · rfl
  · unfold commandWrites
    split
    · cases S.encryptHandshakeCommand with
      | some encrypt =>
        dsimp only
        rw [inOrder, inOrder, inOrder, sendWithCurveHandshakeEncryption]
        congr 1
        funext u
        exact bind_pure (writeSealed (encrypt name body))
      | none => exact inOrder_marshalWrites S name body
    · exact inOrder_marshalWrites S name body

theorem checked_bind (x : ConnM σ α) (f : α → ConnM σ β) :
    checked (x >>= f) = checked x >>= fun a => checked (f a) :=
  rescue_bind fun _ _ => rfl

theorem onRw_bind (x : Program Duplex α) (f : α → Program Duplex β) :
    (onRw (x >>= f) : ConnM σ β) = onRw x >>= fun a => onRw (f a) := by
  apply zoom_bind
  · exact fun _ _ => rfl
  · exact fun _ _ _ => rfl

theorem checked_writeBuffers (buffers : List Bytes) :
    (checked (onRw (writeBuffers buffers)) : ConnM σ Unit) = writeAll buffers := by
  induction buffers with
  | nil => rfl
  | cons buffer rest ih =>
    rw [writeBuffers, onRw_bind, checked_bind, writeAll]
    congr 1
    funext u
    exact ih

theorem whole_task (hleft : (call.task S).finished = false) :
    (call.task S).whole S = call.exec S := by
  cases call with
  | sendCmd name body =>
    exact (inOrder_firstIfOpen (commandWrites_ne_nil S name body)).trans
      (inOrder_commandWrites S name body)
  | sendMsg msg =>
    rw [ConnCall.task] at hleft
    rw [ConnCall.exec, Connection.sendMsg, ConnCall.task]
    revert hleft
    cases msg.multipart with
    | true =>
      intro _
      rw [if_pos rfl, WriteTask.whole, ifOpen_bind, ifOpen, if_pos rfl, sendMulti]
      simp only [checked_writeBuffers]
    | false =>
      intro hleft
      rw [if_neg Bool.false_ne_true] at hleft ⊢
      rw [WriteTask.whole]
      have hwrites : messageWrites S msg.frames.length 0 msg.frames ≠ [] := by
        intro hnil
        rw [hnil] at hleft
        cases hleft
      rw [inOrder_firstIfOpen hwrites, inOrder_messageWrites, ifOpen]
      rfl

end Refinement

/-- The bytes of one message or command: whole frames, of which all but the last
announce another. -/
inductive WholeMessage : Bytes → Prop where
  | last {flag : UInt8} {field body : Bytes} : headerLength (flag :: field) = some body.length →
      hasMore flag = false → WholeMessage (flag :: field ++ body)
  | more {flag : UInt8} {field body rest : Bytes} :
      headerLength (flag :: field) = some body.length → hasMore flag = true →
      WholeMessage rest → WholeMessage (flag :: field ++ (body ++ rest))

def writtenBytes (w : Endpoint σ) : Bytes :=
  w.conn.rw.output.flatten

/-- The written bytes are those of whole messages, whichever they are. -/
def Untorn (w : Endpoint σ) : Prop :=
  ∃ messages : List Bytes, (∀ m ∈ messages, WholeMessage m) ∧ writtenBytes w = messages.flatten

variable {w : Endpoint σ}

theorem wholeMessage_encodeFrames {frames : List Bytes} (hne : frames ≠ [])
    (hsize : ∀ frame ∈ frames, frame.length ≤ maxInt64) : WholeMessage (encodeFrames frames) := by
  induction frames with
  | nil => exact absurd rfl hne
  | cons body rest ih =>
    obtain ⟨hbody, hrest⟩ := List.forall_mem_cons.mp hsize
    rcases exists_sizeField (isLong_messageFlag rest body.length) hbody with
      ⟨field, hheader, hlength⟩
    have hmore := hasMore_messageFlag rest body.length
    rw [encodeFrames, hheader]
    by_cases hlast : rest = []
    · subst hlast
      rw [encodeFrames, List.append_nil]
      exact .last hlength (by simpa using hmore)
    · exact .more hlength (by simpa [hlast] using hmore) (ih hlast hrest)

section Torn

def wholeFrames : Nat → Bytes → Bool
  | _, [] => true
  | 0, _ => false
  | fuel + 1, flag :: rest =>
    let width := if isLong flag then 8 else 1
    let size := bigEndianValue (rest.take width)
    decide (width + size ≤ rest.length) && wholeFrames fuel (rest.drop (width + size))

theorem field_of_headerLength {flag : UInt8} {field : Bytes} {size : Nat}
    (hheader : headerLength (flag :: field) = some size) :
    field.length = (if isLong flag then 8 else 1) ∧ bigEndianValue field = size := by
  simp only [headerLength] at hheader
  split at hheader
  · rename_i hlong
    split at hheader
    · rename_i hfield
      rw [if_pos hlong]
      exact ⟨hfield, Option.some_inj.mp hheader⟩
    · cases hheader
  · rename_i hshort
    split at hheader
    · rename_i first
      rw [if_neg hshort]
      refine ⟨rfl, ?_⟩
      rw [← Option.some_inj.mp hheader]
      simp [bigEndianValue, littleEndianValue]
    · cases hheader

def Parses (bytes : Bytes) : Prop :=
  ∀ fuel, bytes.length ≤ fuel → wholeFrames fuel bytes = true

theorem parses_frame {flag : UInt8} {field body rest : Bytes}
    (hheader : headerLength (flag :: field) = some body.length) (hrest : Parses rest) :
    Parses (flag :: field ++ (body ++ rest)) := by
  intro fuel hfuel
  obtain ⟨hwidth, hsize⟩ := field_of_headerLength hheader
  rcases fuel with _ | fuel
  · simp at hfuel
  · have htake : (field ++ (body ++ rest)).take field.length = field := List.take_left
    have hdrop : (field ++ (body ++ rest)).drop (field.length + body.length) = rest := by
      rw [← List.drop_drop, List.drop_left, List.drop_left]
    simp only [List.cons_append, List.length_cons, List.length_append] at hfuel
    rw [List.cons_append, wholeFrames]
    simp only [← hwidth, htake, hsize, hdrop, List.length_append, Bool.and_eq_true,
      decide_eq_true_eq]
    exact ⟨by omega, hrest fuel (by omega)⟩

theorem parses_message {message rest : Bytes} (hmessage : WholeMessage message)
    (hrest : Parses rest) : Parses (message ++ rest) := by
  induction hmessage with
  | last hheader _ =>
    rw [List.append_assoc]
    exact parses_frame hheader hrest
  | more hheader _ _ ih =>
    rw [List.append_assoc, List.append_assoc]
    exact parses_frame hheader ih

theorem parses_messages {messages : List Bytes} (hmessages : ∀ m ∈ messages, WholeMessage m) :
    Parses messages.flatten := by
  induction messages with
  | nil =>
    intro fuel _
    simp [wholeFrames]
  | cons m messages ih =>
    obtain ⟨hm, hrest⟩ := List.forall_mem_cons.mp hmessages
    exact parses_message hm (ih hrest)

theorem not_untorn (htorn : wholeFrames (writtenBytes w).length (writtenBytes w) = false) :
    ¬ Untorn w := by
  rintro ⟨messages, hmessages, hwritten⟩
  have hparses := parses_messages hmessages (writtenBytes w).length (by rw [hwritten])
  rw [← hwritten, htorn] at hparses
  cases hparses

end Torn

variable {start : Endpoint σ} {actions : List (Action ConnCall)}
  {p : Pool ConnCall (WriteTask σ) (Endpoint σ)}

def atOnce (w : Endpoint σ) (call : ConnCall) : Option (Endpoint σ) :=
  settled ((call.exec S).run w)

section Turns

variable
  (hapart : Throughout (step (writers S)) (Apart (writers S)) { shared := start } actions)
  (hrun : run (step (writers S)) { shared := start } actions = some p)
  (hquiet : p.Quiet (writers S))

include hapart hrun hquiet

theorem run_atOnce_of_apart : run (atOnce S) start p.order = some p.shared := by
  rw [← run_atomic_of_apart hapart hrun hquiet]
  refine run_congr (fun call hcall w => ?_) start
  rw [atOnce, ← whole_task S (unfinished_of_mem_order hrun call hcall)]
  rfl

end Turns

section Transparent

variable {S}

def ConnCall.encoding : ConnCall → Bytes
  | .sendMsg msg => encodeFrames msg.frames
  | .sendCmd name body => commandWire { name, body }

/-- The sizes are those of slices, and a message has a frame. -/
def ConnCall.Sized : ConnCall → Prop
  | .sendMsg msg => msg.frames ≠ [] ∧ ∀ frame ∈ msg.frames, frame.length ≤ maxInt64
  | .sendCmd name body => name.length ≤ 255 ∧ 1 + name.length + body.length ≤ maxInt64

theorem wholeMessage_encoding (hsized : call.Sized) : WholeMessage call.encoding := by
  cases call with
  | sendMsg msg => exact wholeMessage_encodeFrames hsized.1 hsized.2
  | sendCmd name body =>
    obtain ⟨_, _, _, hwire, _, _, hmore, hlength, _⟩ := @commandWire_eq ⟨name, body⟩ hsized.2
    rw [ConnCall.encoding, hwire]
    exact .last hlength hmore

theorem exec_run (hS : Transparent S) (hsized : call.Sized) (hw : w.Healthy) :
    ∃ buffers, (call.exec S).run w = .ok () (w.wrote buffers) ∧
      buffers.flatten = call.encoding := by
  cases call with
  | sendMsg msg => exact hS.sendMsg_run hw msg
  | sendCmd name body => exact sendCmd_transparent hS hw hsized.1 body

theorem writtenBytes_run (hS : Transparent S) (hw : w.Healthy) {calls : List ConnCall}
    (hsized : ∀ call ∈ calls, call.Sized) {w' : Endpoint σ}
    (hrun : run (atOnce S) w calls = some w') :
    writtenBytes w' = writtenBytes w ++ (calls.map ConnCall.encoding).flatten := by
  induction calls generalizing w with
  | nil =>
    obtain rfl : w = w' := by simpa using hrun
    simp
  | cons call calls ih =>
    obtain ⟨hcall, hcalls⟩ := List.forall_mem_cons.mp hsized
    obtain ⟨buffers, hexec, hbytes⟩ := exec_run hS hcall hw
    obtain ⟨v, hfirst, hrest⟩ := run_cons_eq_some_iff.mp hrun
    rw [atOnce, hexec] at hfirst
    obtain rfl := Option.some_inj.mp hfirst
    rw [ih (hw.wrote buffers) hcalls hrest, List.map_cons, List.flatten_cons, ← hbytes]
    simp [writtenBytes, Endpoint.wrote]

/-- Without encryption, calls that keep apart write their messages and commands one behind
the other, each in one piece. -/
theorem exclusive_writers_contiguous (hS : Transparent S) (hstart : start.Healthy)
    (hsized : ∀ call, .spawn call ∈ actions → call.Sized)
    (hapart : Throughout (step (writers S)) (Apart (writers S)) { shared := start } actions)
    (hrun : run (step (writers S)) { shared := start } actions = some p)
    (hquiet : p.Quiet (writers S)) :
    p.order.Perm p.begun ∧ (∀ call ∈ p.order, WholeMessage call.encoding) ∧
      writtenBytes p.shared = writtenBytes start ++ (p.order.map ConnCall.encoding).flatten := by
  have horder : ∀ call ∈ p.order, call.Sized := fun call hcall =>
    hsized call (spawned_of_mem_order hrun hcall)
  exact ⟨order_perm_begun hrun, fun call hcall => wholeMessage_encoding (horder call hcall),
    writtenBytes_run hS hstart horder (run_atOnce_of_apart S hapart hrun hquiet)⟩

end Transparent

def freshEndpoint : Endpoint Unit where
  sec := ()
  conn := Conn.fresh Metadata.empty

def shortMessage : ConnCall := .sendMsg (newMsgFrom [[1, 2, 3]])
def ping : ConnCall := .sendCmd (ascii "PING") [0, 0]

def messageThenPing : List (Action ConnCall) :=
  [.spawn shortMessage, .spawn ping, .advance 0, .advance 0, .advance 1, .advance 1]

def bothWritten (buffers : List Bytes) : Pool ConnCall (WriteTask Unit) (Endpoint Unit) where
  shared := freshEndpoint.wrote buffers
  running := [⟨shortMessage, .going (.steps [])⟩, ⟨ping, .going (.steps [])⟩]
  order := [shortMessage, ping]

theorem quiet_bothWritten (buffers : List Bytes) :
    (bothWritten buffers).Quiet (writers nullSecurity) :=
  List.forall_mem_cons.mpr ⟨rfl, List.forall_mem_singleton.mpr rfl⟩

theorem messageThenPing_apart :
    Throughout (step (writers nullSecurity)) (Apart (writers nullSecurity))
      { shared := freshEndpoint } messageThenPing := by
  refine ⟨trivial, ?_⟩
  rintro p ⟨⟩
  refine ⟨trivial, ?_⟩
  rintro p ⟨⟩
  refine ⟨?_, ?_⟩
  · rintro (_ | _ | j) r hj ⟨⟩
    · rfl
    · rfl
  rintro p ⟨⟩
  refine ⟨?_, ?_⟩
  · rintro (_ | _ | j) r hj ⟨⟩
    · exact absurd rfl hj
    · rfl
  rintro p ⟨⟩
  refine ⟨?_, ?_⟩
  · rintro (_ | _ | j) r hj ⟨⟩
    · rfl
    · rfl
  rintro p ⟨⟩
  refine ⟨?_, fun _ _ => trivial⟩
  rintro (_ | _ | j) r hj ⟨⟩
  · rfl
  · exact absurd rfl hj

theorem messageThenPing_contiguous :
    ∃ p, run (step (writers nullSecurity)) { shared := freshEndpoint } messageThenPing = some p ∧
      writtenBytes p.shared = shortMessage.encoding ++ ping.encoding := by
  refine ⟨bothWritten [[0, 3], [1, 2, 3], [4, 7], [4, 80, 73, 78, 71, 0, 0]], rfl, ?_⟩
  have hsized : ∀ call, .spawn call ∈ messageThenPing → call.Sized := by
    simp [messageThenPing, shortMessage, ping, ConnCall.Sized, newMsgFrom, maxInt64, ascii]
  exact (exclusive_writers_contiguous transparent_nullSecurity ⟨rfl, rfl⟩ hsized
    messageThenPing_apart rfl (quiet_bothWritten _)).2.2

/-- A PING is sent after the header of a message and before its body. -/
theorem ping_tears_message :
    ∃ p, run (step (writers nullSecurity)) { shared := freshEndpoint }
        [.spawn shortMessage, .spawn ping, .advance 0, .advance 1, .advance 1, .advance 0] =
          some p ∧
      p.Quiet (writers nullSecurity) ∧ ¬ Untorn p.shared := by
  refine ⟨bothWritten [[0, 3], [4, 7], [4, 80, 73, 78, 71, 0, 0], [1, 2, 3]], rfl,
    quiet_bothWritten _, not_untorn (by decide)⟩

end Zmq4.WriterInterleaving
