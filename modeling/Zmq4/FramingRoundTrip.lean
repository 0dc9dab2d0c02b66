import Zmq4.FrameStream

namespace Zmq4.FramingRoundTrip

open ByteCodec DuplexProgram ZmtpMessage Connection FrameStream

variable {σ : Type}

/-- A mechanism that writes and reads frames as they are. -/
structure Transparent (S : Security σ) : Prop where
  notCurve : S.securityType ≠ .curveSecurity
  encrypt_run : ∀ data sec, (S.encrypt data).run sec = .ok data sec
  decrypt_run : ∀ data sec, (S.decrypt data).run sec = .ok data sec

theorem transparent_nullSecurity : Transparent nullSecurity :=
  ⟨by decide, fun _ _ => rfl, fun _ _ => rfl⟩

theorem transparent_plainSecurity : Transparent plainSecurity :=
  ⟨by decide, fun _ _ => rfl, fun _ _ => rfl⟩

variable {w : Endpoint σ}

namespace Transparent

variable {S : Security σ} (hS : Transparent S)

include hS

theorem isMessageFrame_eq (command : Bool) (body : Bytes) :
    isMessageFrame S command body = false := by
  simp [isMessageFrame, hS.notCurve]

theorem frameSize_eq (command : Bool) (body : Bytes) :
    frameSize S command body = body.length := by
  simp [frameSize, hS.isMessageFrame_eq]

theorem checkReadiness_eq (command : Bool) : checkReadiness S command = pure () := by
  simp [checkReadiness, hS.notCurve]

theorem writeBody_run (hw : w.Healthy) (command : Bool) (body : Bytes) (flag : UInt8) :
    (writeBody S command body flag).run w =
      .ok () (w.wrote (if body = [] then [] else [body])) := by
  simp only [writeBody, hS.isMessageFrame_eq, Bool.false_eq_true, if_false,
    List.length_eq_zero_iff]
  by_cases hbody : body = []
  · simp [hbody]
  · simp only [hbody, if_false]
    exact writeSealed_run hw (hS.encrypt_run body w.sec)

theorem send_run (hw : w.Healthy) (command : Bool) (body : Bytes) (flag : UInt8) :
    (send S command body flag).run w =
      .ok () (w.wrote (frameHeader (frameFlag S command body flag) body.length ::
        if body = [] then [] else [body])) := by
  rw [send, hS.checkReadiness_eq, pure_bind, hS.frameSize_eq, bind_ok (write_run hw _),
    hS.writeBody_run (hw.wrote _)]
  simp

theorem sendFrames_run (nframes index : Nat) (frames : List Bytes) (hw : w.Healthy) :
    ∃ buffers, (sendFrames S nframes index frames).run w = .ok () (w.wrote buffers) ∧
      buffers.flatten = encodeFrames frames := by
  induction frames generalizing index w with
  | nil => exact ⟨[], by simp [sendFrames], rfl⟩
  | cons frame rest ih =>
    let buffer := frameHeader (frameFlag S false frame (moreFlag rest)) frame.length ::
      if frame = [] then [] else [frame]
    have hframe : (send S false frame (moreFlag rest)).run w = .ok () (w.wrote buffer) :=
      hS.send_run hw false frame (moreFlag rest)
    obtain ⟨buffers, hrest, hflatten⟩ := ih (index + 1) (hw.wrote buffer)
    refine ⟨buffer ++ buffers, ?_, ?_⟩
    · change (wrapping _ (send S false frame (moreFlag rest)) >>= fun _ =>
        sendFrames S nframes (index + 1) rest).run w = _
      rw [bind_ok (wrapping_ok hframe), hrest, Endpoint.wrote_wrote]
    · have hbuffer : buffer.flatten =
          frameHeader (longFlag (moreFlag rest) frame.length) frame.length ++ frame := by
        by_cases hempty : frame = []
        · simp [buffer, hempty, frameFlag, hS.frameSize_eq]
        · simp [buffer, hempty, frameFlag, hS.frameSize_eq]
      rw [List.flatten_append, hbuffer, hflatten, encodeFrames, List.append_assoc]

theorem vectoredBody_run (w : Endpoint σ) (frame : Bytes) :
    (vectoredBody S frame).run w = .ok frame w := by
  unfold vectoredBody
  split
  · rfl
  · exact onSec_ok (hS.encrypt_run frame w.sec)

theorem multiBuffers_run (frames : List Bytes) (w : Endpoint σ) :
    ∃ buffers, (multiBuffers S frames).run w = .ok buffers w ∧
      buffers.flatten = encodeFrames frames := by
  induction frames with
  | nil => exact ⟨[], rfl, rfl⟩
  | cons frame rest ih =>
    obtain ⟨buffers, hrest, hflatten⟩ := ih
    refine ⟨frameHeader (longFlag (moreFlag rest) frame.length) frame.length ::
      frame :: buffers, ?_, ?_⟩
    · rw [multiBuffers, bind_ok (hS.vectoredBody_run w frame), bind_ok hrest]
      rfl
    · simp [hflatten, encodeFrames]

theorem sendMsg_run (hw : w.Healthy) (msg : Msg) :
    ∃ buffers, (sendMsg S msg).run w = .ok () (w.wrote buffers) ∧
      buffers.flatten = encodeFrames msg.frames := by
  have hopen : ¬ w.conn.closed = true := by simp [hw.notClosed]
  cases hpath : msg.multipart with
  | false =>
    obtain ⟨buffers, hrun, hflatten⟩ :=
      hS.sendFrames_run msg.frames.length 0 msg.frames hw
    refine ⟨buffers, ?_, hflatten⟩
    rw [sendMsg, bind_ok (EStateM.run_get w), if_neg hopen, hpath]
    simpa using hrun
  | true =>
    obtain ⟨buffers, hrun, hflatten⟩ := hS.multiBuffers_run msg.frames w
    refine ⟨buffers, ?_, hflatten⟩
    rw [sendMsg, bind_ok (EStateM.run_get w), if_neg hopen, hpath, if_pos rfl, sendMulti,
      bind_ok hrun, writeBuffers_run hw]

/-- A message for which `SendMsg` returns nil is on the wire with all its frames. -/
theorem sendMsg_eq_ok {w' : Endpoint σ} {msg : Msg} (hne : msg.frames ≠ [])
    (hsend : (sendMsg S msg).run w = .ok () w') :
    ∃ buffers, w' = w.wrote buffers ∧ buffers.flatten = encodeFrames msg.frames := by
  have hhealthy : w.Healthy := by
    rcases hframes : msg.frames with _ | ⟨frame, rest⟩
    · exact absurd hframes hne
    rw [sendMsg, bind_ok (EStateM.run_get w)] at hsend
    split at hsend
    · cases hsend
    rename_i hopen
    refine ⟨by simpa using hopen, ?_⟩
    split at hsend
    · rw [sendMulti, hframes] at hsend
      rcases bind_eq_ok_iff.mp hsend with ⟨buffers, w₁, hbuffers, hwrite⟩
      rcases hS.multiBuffers_run rest w with ⟨others, hothers, _⟩
      rw [multiBuffers, bind_ok (hS.vectoredBody_run w frame), bind_ok hothers] at hbuffers
      cases hbuffers
      rcases zoom_eq_ok_iff.mp (checked_eq_ok hwrite) with ⟨_, hwrite, _⟩
      rcases bind_eq_ok_iff.mp hwrite with ⟨_, _, hfirst, _⟩
      exact writable_of_write hfirst
    · rw [hframes, sendFrames] at hsend
      rcases bind_eq_ok_iff.mp hsend with ⟨_, w₁, hfirst, _⟩
      have hheader := wrapping_eq_ok hfirst
      rw [send, hS.checkReadiness_eq, pure_bind] at hheader
      rcases bind_eq_ok_iff.mp hheader with ⟨_, w₂, hwrite, _⟩
      rcases zoom_eq_ok_iff.mp (checked_eq_ok hwrite) with ⟨_, hwrite, _⟩
      exact writable_of_write hwrite
  rcases hS.sendMsg_run hhealthy msg with ⟨buffers, hrun, hbytes⟩
  rw [hrun] at hsend
  cases hsend
  exact ⟨buffers, rfl, hbytes⟩

theorem contents_run (bodies : List Bytes) (sec : σ) :
    (contents S bodies).run sec = .ok bodies sec := by
  induction bodies with
  | nil => rfl
  | cons body rest ih =>
    have hframe : (openFrame S body).run sec = .ok body sec := by
      unfold openFrame
      split
      · rfl
      · exact hS.decrypt_run body sec
    rw [contents, bind_ok hframe, bind_ok ih]
    rfl

end Transparent

def sendAll (S : Security σ) : List Msg → ConnM σ Unit
  | [] => pure ()
  | msg :: rest => do
      sendMsg S msg
      sendAll S rest

def readAll (S : Security σ) : Nat → ConnM σ (List Msg)
  | 0 => pure []
  | count + 1 => do
      let msg ← read S
      let rest ← readAll S count
      pure (msg :: rest)

namespace Transparent

variable {S : Security σ} (hS : Transparent S)

include hS

theorem sendAll_run (msgs : List Msg) {w : Endpoint σ} (hw : w.Healthy) :
    ∃ buffers, (sendAll S msgs).run w = .ok () (w.wrote buffers) ∧
      buffers.flatten = msgs.flatMap fun msg => encodeFrames msg.frames := by
  induction msgs generalizing w with
  | nil => exact ⟨[], by simp [sendAll], rfl⟩
  | cons msg rest ih =>
    obtain ⟨first, hfirst, hfirstBytes⟩ := hS.sendMsg_run hw msg
    obtain ⟨second, hsecond, hsecondBytes⟩ := ih (hw.wrote first)
    refine ⟨first ++ second, ?_, ?_⟩
    · rw [sendAll, bind_ok hfirst, hsecond, Endpoint.wrote_wrote]
    · simp [hfirstBytes, hsecondBytes]

theorem readAll_run (msgs : List Msg) (hne : ∀ msg ∈ msgs, msg.frames ≠ [])
    (hsize : ∀ msg ∈ msgs, ∀ frame ∈ msg.frames, frame.length < 2 ^ 63) {rest : Bytes}
    (hinput : w.conn.rw.input = (msgs.flatMap fun msg => encodeFrames msg.frames) ++ rest) :
    (readAll S msgs.length).run w =
      .ok (msgs.map fun msg => newMsgFrom msg.frames) (w.withInput rest) := by
  induction msgs generalizing w with
  | nil =>
    obtain rfl : w.conn.rw.input = rest := by simpa using hinput
    rfl
  | cons msg msgs ih =>
    have hread := read_run S (hne msg (by simp))
      (fun frame hframe => Nat.le_pred_of_lt (hsize msg (by simp) frame hframe))
      (by simpa using hinput) (hS.contents_run msg.frames w.sec)
    rw [List.length_cons, readAll, bind_ok hread, bind_ok (ih
      (fun m hm => hne m (by simp [hm])) (fun m hm => hsize m (by simp [hm])) rfl)]
    rfl

end Transparent

/-- Both paths of `SendMsg` emit the same bytes for the same message, and
whatever list of messages is written, each on either path, reading as many
messages from the resulting stream followed by any suffix returns exactly
their frames and leaves exactly the suffix. -/
def RoundTrips (S : Security σ) : Prop :=
  (∀ (msg : Msg) (w : Endpoint σ), w.Healthy →
    ∃ single vectored,
      (sendMsg S { msg with multipart := false }).run w = .ok () (w.wrote single) ∧
      (sendMsg S { msg with multipart := true }).run w = .ok () (w.wrote vectored) ∧
      single.flatten = vectored.flatten) ∧
  ∀ (msgs : List Msg) (sender : Endpoint σ), sender.Healthy →
    (∀ msg ∈ msgs, msg.frames ≠ []) →
    (∀ msg ∈ msgs, ∀ frame ∈ msg.frames, frame.length < 2 ^ 63) →
    ∃ buffers,
      (sendAll S msgs).run sender = .ok () (sender.wrote buffers) ∧
      ∀ (receiver : Endpoint σ) (rest : Bytes),
        receiver.conn.rw.input = buffers.flatten ++ rest →
        (readAll S msgs.length).run receiver =
          .ok (msgs.map fun msg => newMsgFrom msg.frames) (receiver.withInput rest)

theorem Transparent.roundTrips {S : Security σ} (hS : Transparent S) : RoundTrips S := by
  constructor
  · intro msg w hw
    obtain ⟨single, hsingle, hsingleBytes⟩ := hS.sendMsg_run hw { msg with multipart := false }
    obtain ⟨vectored, hvectored, hvectoredBytes⟩ :=
      hS.sendMsg_run hw { msg with multipart := true }
    exact ⟨single, vectored, hsingle, hvectored, hsingleBytes.trans hvectoredBytes.symm⟩
  · intro msgs sender hsender hne hsize
    obtain ⟨buffers, hsend, hbytes⟩ := hS.sendAll_run msgs hsender
    refine ⟨buffers, hsend, ?_⟩
    intro receiver rest hinput
    apply hS.readAll_run msgs hne hsize
    rw [hinput, hbytes]

theorem null_and_plain_round_trip : RoundTrips nullSecurity ∧ RoundTrips plainSecurity :=
  ⟨transparent_nullSecurity.roundTrips, transparent_plainSecurity.roundTrips⟩

end Zmq4.FramingRoundTrip
