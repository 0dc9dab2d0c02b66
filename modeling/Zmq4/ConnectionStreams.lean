import Zmq4.CommandStream
import Zmq4.ProgramStreams

namespace Zmq4.ConnectionStreams

open ByteCodec DuplexProgram ProgramEffects ProgramStreams ZmtpMessage Connection FrameStream
  CommandStream

variable {σ α : Type}

def endpointFeed (σ : Type) : Feed (Endpoint σ) where
  feed more w := { w with conn := { w.conn with rw := duplexFeed.feed more w.conn.rw } }
  written w := w.conn.rw.output
  written_feed more w := duplexFeed.written_feed more w.conn.rw

theorem onRw_streams {x : Program Duplex α} (hx : Streams duplexFeed x) :
    Streams (endpointFeed σ) (onRw x) :=
  Streams.zoom hx (fun _ _ => rfl) (fun _ _ _ => rfl) (fun _ => rfl) (fun _ _ => rfl)

theorem onSec_streams (x : Program σ α) : Streams (endpointFeed σ) (onSec x) :=
  Streams.zoom_other x (fun _ _ => rfl) (fun _ _ _ => rfl) (fun _ _ => rfl)

theorem checkIo_streams (err : Err) : Streams (endpointFeed σ) (checkIo err) := by
  apply Streams.modify
  · intro more w
    split
    · rfl
    · split <;> rfl
  · intro w
    split
    · rfl
    · split <;> rfl

theorem checked_streams {x : ConnM σ α} (hx : Streams (endpointFeed σ) x) :
    Streams (endpointFeed σ) (checked x) :=
  Streams.rescue hx fun err => .bind (checkIo_streams err) fun _ => .failWith err

section Writing

variable (S : Security σ)

theorem checkedWrite_streams (buffer : Bytes) :
    Streams (endpointFeed σ) (checked (onRw (write buffer))) :=
  checked_streams (onRw_streams (write_streams buffer))

theorem writeSealed_streams (encrypted : Program σ Bytes) :
    Streams (endpointFeed σ) (writeSealed encrypted) :=
  checked_streams (.bind (onSec_streams encrypted) fun sealed =>
    onRw_streams (write_streams sealed))

theorem checkReadiness_streams (command : Bool) :
    Streams (endpointFeed σ) (checkReadiness S command) := by
  unfold checkReadiness
  split
  · split
    · refine .rescue (.get_bind (fun _ _ => rfl) fun _ => onSec_streams _) ?_
      intro err
      exact .bind (checkIo_streams err) fun _ => .failWith _
    · exact .pure ()
  · exact .pure ()

theorem writeBody_streams (command : Bool) (body : Bytes) (flag : UInt8) :
    Streams (endpointFeed σ) (writeBody S command body flag) := by
  unfold writeBody
  split
  · split
    · exact writeSealed_streams _
    · exact writeSealed_streams _
  · split
    · exact .pure ()
    · exact writeSealed_streams _

theorem send_streams (command : Bool) (body : Bytes) (flag : UInt8) :
    Streams (endpointFeed σ) (send S command body flag) := by
  apply Streams.bind (checkReadiness_streams S command)
  intro _
  exact .bind (checkedWrite_streams _) fun _ => writeBody_streams S command body _

theorem sendCmd_streams (name body : Bytes) : Streams (endpointFeed σ) (sendCmd S name body) := by
  have hmarshal : Streams (endpointFeed σ) (marshalAndSend S name body 0) := by
    unfold marshalAndSend
    split
    · exact Streams.failWith _
    · exact send_streams S true _ 0
  apply Streams.get_bind (fun _ _ => rfl)
  intro w
  split
  · exact Streams.failWith _
  split
  · split
    · apply Streams.bind (checkedWrite_streams _)
      intro _
      exact writeSealed_streams _
    · exact hmarshal
  · exact hmarshal

end Writing

section Reading

variable (S : Security σ)

theorem readRawFrame_streams : Streams (endpointFeed σ) (readRawFrame (σ := σ)) := by
  have hread : ∀ size, Streams (endpointFeed σ) (checked (onRw (readFull size))) :=
    fun size => checked_streams (onRw_streams (readFull_streams size))
  have hsize : ∀ flag first, Streams (endpointFeed σ) (readSize flag first) := by
    intro flag first
    unfold readSize
    split
    · exact Streams.bind (hread 7) fun _ => Streams.pure _
    · exact Streams.pure _
  apply Streams.bind (hread 2)
  intro header
  apply Streams.bind (hsize _ _)
  intro size
  split
  · exact Streams.failWith _
  · exact Streams.bind (hread size) fun _ => Streams.pure _

theorem frameContent_streams (isCmd : Bool) (body : Bytes) :
    Streams (endpointFeed σ) (frameContent S isCmd body) := by
  apply Streams.get_bind (fun _ _ => rfl)
  intro w
  split
  · exact Streams.pure _
  · exact onSec_streams _

theorem readFrame_streams (isCmd : Bool) : Streams (endpointFeed σ) (readFrame S isCmd) := by
  apply Streams.bind readRawFrame_streams
  intro header
  exact .bind (frameContent_streams S _ _) fun _ => .pure _

theorem readLoop_written (rounds : Nat) (isCmd : Bool) (done : List Bytes) (w : Endpoint σ) :
    (endpointFeed σ).written (finalState ((readLoop S rounds isCmd done).run w)) =
      (endpointFeed σ).written w := by
  refine readLoop_keeps (f := fun w => w.conn.rw.output) (fun _ => rfl) ?_ ?_ rounds isCmd done w
  · intro w rw hsame
    exact hsame
  · intro body
    exact .zoom_other fun _ _ => rfl

theorem readLoop_streams (rounds : Nat) (isCmd : Bool) (done : List Bytes) :
    Streams (endpointFeed σ) (readLoop S rounds isCmd done) := by
  refine ⟨fun w => ?_, ?_, fun w more => ?_⟩
  · simp only [readLoop_written, List.prefix_rfl]
  · intro w more
    induction rounds generalizing isCmd done w with
    | zero => exact Or.inr rfl
    | succ rounds ih =>
      cases hframe : (readFrame S isCmd).run w with
      | ok header v =>
        rw [readLoop_ok hframe, readLoop_ok ((readFrame_streams S isCmd).of_ok hframe more)]
        split
        · exact ih _ _ v
        · exact Or.inr rfl
      | error stop v =>
        cases stop with
        | fail err =>
          rw [readLoop_fail hframe,
            readLoop_fail ((readFrame_streams S isCmd).of_error hframe (by simp) more)]
          exact Or.inr rfl
        | blocked =>
          rw [readLoop_stop (by simp) hframe]
          exact Or.inl ⟨v, rfl⟩
        | panicked message =>
          rw [readLoop_stop (by simp) hframe, readLoop_stop (by simp)
            ((readFrame_streams S isCmd).of_error hframe (by simp) more)]
          exact Or.inr rfl
  · simp only [readLoop_written, Feed.written_feed, List.prefix_rfl]

theorem readFrame_shrinks {isCmd : Bool} {w w' : Endpoint σ} {header : UInt8 × Bytes}
    (hframe : (readFrame S isCmd).run w = .ok header w') :
    w'.conn.rw.input.length < w.conn.rw.input.length := by
  rw [readFrame, bind_eq_ok_iff] at hframe
  obtain ⟨⟨flag, body⟩, v, hraw, hframe⟩ := hframe
  obtain ⟨content, v', hcontent, hpure⟩ := bind_eq_ok_iff.mp hframe
  obtain ⟨field, rest, hinput, -, -, rfl⟩ := readRawFrame_eq_ok_iff.mp hraw
  obtain ⟨-, rfl⟩ := by simpa using hpure
  have hkeeps : Keeps (fun w : Endpoint σ => w.conn.rw.input)
      (frameContent S (isCmd || isCommand flag) body) := by
    refine .bind Keeps.get fun w => ?_
    split
    · exact .pure _
    · exact .zoom_other fun _ _ => rfl
  have hsame : v'.conn.rw.input = rest := hkeeps.of_ok hcontent
  rw [hsame, hinput]
  simp only [List.length_cons, List.length_append]
  omega

theorem readLoop_shrinks {rounds : Nat} {isCmd : Bool} {done : List Bytes} {w w' : Endpoint σ}
    {msg : Msg} (hread : (readLoop S rounds isCmd done).run w = .ok msg w')
    (herr : msg.err = none) : w'.conn.rw.input.length < w.conn.rw.input.length := by
  induction rounds generalizing isCmd done w with
  | zero => cases hread
  | succ rounds ih =>
    obtain ⟨flag, frame, v, hframe⟩ := readFrame_of_readLoop hread herr
    have hshrinks := readFrame_shrinks S hframe
    rw [readLoop_ok hframe] at hread
    split at hread
    · exact (ih hread).trans hshrinks
    · obtain ⟨-, rfl⟩ := by simpa using hread
      exact hshrinks

theorem readLoop_rounds {rounds rounds' : Nat} {w : Endpoint σ}
    (hrounds : w.conn.rw.input.length < rounds) (hle : rounds ≤ rounds') (isCmd : Bool)
    (done : List Bytes) :
    (readLoop S rounds' isCmd done).run w = (readLoop S rounds isCmd done).run w := by
  induction rounds generalizing rounds' w isCmd done with
  | zero => omega
  | succ rounds ih =>
    obtain ⟨rounds', rfl⟩ : ∃ n, rounds' = n + 1 := ⟨rounds' - 1, by omega⟩
    cases hframe : (readFrame S isCmd).run w with
    | ok header v =>
      have hshrinks := readFrame_shrinks S hframe
      rw [readLoop_ok hframe, readLoop_ok hframe]
      split
      · exact ih (by omega) (by omega) _ _
      · rfl
    | error stop v =>
      cases stop with
      | fail err => rw [readLoop_fail hframe, readLoop_fail hframe]
      | blocked => rw [readLoop_stop (by simp) hframe, readLoop_stop (by simp) hframe]
      | panicked message =>
        rw [readLoop_stop (by simp) hframe, readLoop_stop (by simp) hframe]

theorem read_streams : Streams (endpointFeed σ) (read S) := by
  have hlonger : ∀ (w : Endpoint σ) more, w.conn.rw.input.length ≤
      ((endpointFeed σ).feed more w).conn.rw.input.length := by
    intro w more
    change _ ≤ (duplexFeed.feed more w.conn.rw).input.length
    simp only [duplexFeed]
    split
    · exact le_rfl
    · simp
  have hread : ∀ (w : Endpoint σ) more, (read S).run w =
      (readLoop S (((endpointFeed σ).feed more w).conn.rw.input.length + 1) false []).run w := by
    intro w more
    exact (readLoop_rounds S (Nat.lt_succ_self _) (Nat.succ_le_succ (hlonger w more)) _ _).symm
  refine ⟨fun w => (readLoop_streams S _ _ _).grows w, ?_, ?_⟩
  · intro w more
    rw [hread w more]
    exact (readLoop_streams S _ _ _).settles w more
  · intro w more
    rw [hread w more]
    exact (readLoop_streams S _ _ _).continues w more

theorem recvCmd_streams : Streams (endpointFeed σ) (recvCmd S) := by
  apply Streams.get_bind (fun _ _ => rfl)
  intro w
  split
  · exact Streams.failWith _
  apply Streams.bind (read_streams S)
  intro msg
  split
  · exact Streams.failWith _
  split
  · exact Streams.failWith _
  split
  · exact Streams.failWith _
  · split
    · exact Streams.failWith _
    · exact Streams.pure _
  · exact Streams.failWith _

end Reading

end Zmq4.ConnectionStreams
