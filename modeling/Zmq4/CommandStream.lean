import Zmq4.FrameStream
import Zmq4.ProgramEffects

namespace Zmq4.CommandStream

open ByteCodec DuplexProgram ProgramEffects ZmtpMessage Connection FrameStream

def CommandFrame (wire : Bytes) (cmd : Cmd) : Prop :=
  ∃ flag field body, wire = flag :: (field ++ body) ∧
    isCommand flag = true ∧ hasMore flag = false ∧
    headerLength (flag :: field) = some body.length ∧ body.length ≤ maxInt64 ∧
    Cmd.unmarshalZmtp body = .ok cmd

variable {σ γ : Type} (S : Security σ)

def PlainCommands (sec : σ) : Prop :=
  ∀ (body : Bytes) (w : Endpoint σ), w.sec = sec → (frameContent S true body).run w = .ok body w

section Receive

variable {S}

theorem readFrame_command {w w' : Endpoint σ} (hplain : PlainCommands S w.sec) {flag : UInt8}
    {body : Bytes} (hraw : readRawFrame.run w = .ok (flag, body) w')
    (hcommand : isCommand flag = true) :
    (readFrame S false).run w = .ok (flag, body) w' := by
  obtain ⟨-, rest, -, -, -, rfl⟩ := readRawFrame_eq_ok_iff.mp hraw
  rw [readFrame, bind_ok hraw]
  simp only [hcommand, Bool.or_true]
  rw [bind_ok (hplain body (w.withInput rest) rfl)]
  rfl

theorem recvCmd_eq_ok_iff {w w' : Endpoint σ} (hplain : PlainCommands S w.sec) {cmd : Cmd} :
    (recvCmd S).run w = .ok cmd w' ↔
      w.conn.closed = false ∧ ∃ wire rest, CommandFrame wire cmd ∧
        w.conn.rw.input = wire ++ rest ∧ w' = w.withInput rest := by
  rw [recvCmd, bind_ok (EStateM.run_get w)]
  constructor
  · intro hrecv
    split at hrecv
    · cases hrecv
    rename_i hopen
    refine ⟨by simpa using hopen, ?_⟩
    rw [bind_eq_ok_iff] at hrecv
    obtain ⟨msg, w₁, hread, hrecv⟩ := hrecv
    split at hrecv
    · cases hrecv
    rename_i herr
    split at hrecv
    · cases hrecv
    rename_i hcmd
    split at hrecv
    · cases hrecv
    · rename_i frame hframes
      split at hrecv
      · cases hrecv
      rename_i cmd' hunmarshal
      obtain ⟨rfl, rfl⟩ : cmd' = cmd ∧ w₁ = w' := by simpa using hrecv
      obtain ⟨flag, hframe, hmore, htype⟩ := readFrame_of_read S hread herr hframes
      have hcommand : isCommand flag = true := by simpa [htype] using hcmd
      rw [readFrame, bind_eq_ok_iff] at hframe
      obtain ⟨⟨flag', body⟩, w₂, hraw, hframe⟩ := hframe
      obtain ⟨content, w₃, hcontent, hpure⟩ := bind_eq_ok_iff.mp hframe
      obtain ⟨⟨rfl, rfl⟩, rfl⟩ : (flag' = flag ∧ content = frame) ∧ w₃ = w₁ := by
        simpa using hpure
      obtain ⟨field, rest, hinput, hlength, hsize, rfl⟩ := readRawFrame_eq_ok_iff.mp hraw
      simp only [hcommand, Bool.or_true] at hcontent
      rw [hplain body (w.withInput rest) rfl] at hcontent
      obtain ⟨rfl, rfl⟩ := by simpa using hcontent
      refine ⟨flag' :: (field ++ body), rest, ?_, ?_, rfl⟩
      · exact ⟨flag', field, body, rfl, hcommand, hmore, hlength, hsize, hunmarshal⟩
      · rw [hinput]
        simp
    · cases hrecv
  · rintro ⟨hopen, wire, rest, ⟨flag, field, body, rfl, hcommand, hmore, hlength, hsize, hcmd⟩,
      hinput, rfl⟩
    have hraw : readRawFrame.run w = .ok (flag, body) (w.withInput rest) :=
      readRawFrame_eq_ok_iff.mpr ⟨field, rest, by simpa using hinput, hlength, hsize, rfl⟩
    have hread : (Connection.read S).run w = _ :=
      (readLoop_ok (readFrame_command hplain hraw hcommand)).trans (if_neg (by simp [hmore]))
    rw [if_neg (by simp [hopen]), bind_ok hread]
    simp [hcommand, Msg.isCmd, hcmd]

def commandWire (cmd : Cmd) : Bytes :=
  let body := UInt8.ofNat cmd.name.length :: (cmd.name ++ cmd.body)
  frameHeader (longFlag 0 body.length ^^^ isCommandBitFlag) body.length ++ body

set_option maxRecDepth 4000 in
theorem command_flags (size : Nat) :
    isCommand (longFlag 0 size ^^^ isCommandBitFlag) = true ∧
      hasMore (longFlag 0 size ^^^ isCommandBitFlag) = false ∧
      isLong (longFlag 0 size ^^^ isCommandBitFlag) = decide (size > 255) := by
  unfold longFlag
  by_cases hlong : size > 255
  · simp only [hlong, if_true]
    decide
  · simp only [hlong, if_false]
    decide

theorem commandWire_eq {cmd : Cmd} (hsize : 1 + cmd.name.length + cmd.body.length ≤ maxInt64) :
    ∃ flag field body, commandWire cmd = flag :: field ++ body ∧
      body = UInt8.ofNat cmd.name.length :: (cmd.name ++ cmd.body) ∧ isCommand flag = true ∧
      hasMore flag = false ∧ headerLength (flag :: field) = some body.length ∧
      body.length ≤ maxInt64 := by
  let body := UInt8.ofNat cmd.name.length :: (cmd.name ++ cmd.body)
  have hbody : body.length ≤ maxInt64 := by
    simp only [body, List.length_cons, List.length_append]
    omega
  rcases command_flags body.length with ⟨hcommand, hmore, hlong⟩
  rcases exists_sizeField hlong hbody with ⟨field, hheader, hlength⟩
  refine ⟨_, field, body, ?_, rfl, hcommand, hmore, hlength, hbody⟩
  change frameHeader (longFlag 0 body.length ^^^ isCommandBitFlag) body.length ++ body = _
  rw [hheader]

theorem commandFrame_commandWire {cmd : Cmd} (hname : cmd.name.length ≤ 255)
    (hsize : 1 + cmd.name.length + cmd.body.length ≤ maxInt64) :
    CommandFrame (commandWire cmd) cmd := by
  rcases commandWire_eq hsize with ⟨flag, field, body, hwire, hbody, hcommand, hmore, hlength, hfits⟩
  refine ⟨flag, field, body, hwire, hcommand, hmore, hlength, hfits, ?_⟩
  rw [hbody]
  exact (Cmd.unmarshal_marshal hname).2

theorem recvCmd_run {w : Endpoint σ} (hplain : PlainCommands S w.sec)
    (hopen : w.conn.closed = false) {cmd : Cmd} (hname : cmd.name.length ≤ 255)
    (hsize : 1 + cmd.name.length + cmd.body.length ≤ maxInt64) {rest : Bytes}
    (hinput : w.conn.rw.input = commandWire cmd ++ rest) :
    (recvCmd S).run w = .ok cmd (w.withInput rest) :=
  (recvCmd_eq_ok_iff hplain).mpr
    ⟨hopen, commandWire cmd, rest, commandFrame_commandWire hname hsize, hinput, rfl⟩

end Receive

section Effects

variable {S} {f : Endpoint σ → γ}

section Closing

variable (hclosed : ∀ w, f w.setClosed = f w)

include hclosed

theorem checked_keeps {α : Type} {x : ConnM σ α} (hx : Keeps f x) : Keeps f (checked x) := by
  refine .rescue hx fun err => .bind (.modify ?_) fun _ => .failWith err
  intro w
  split
  · exact hclosed w
  · split
    · exact hclosed w
    · rfl

/-! Reading changes the closed flag, the unread bytes and what decryption
changes. -/

variable (hrw : ∀ (w : Endpoint σ) rw, rw.output = w.conn.rw.output →
  f { w with conn := { w.conn with rw := rw } } = f w)

include hrw

theorem checkedRead_keeps (size : Nat) : Keeps f (checked (onRw (readFull size))) := by
  refine checked_keeps hclosed (.zoom (readFull_keeps size) ?_)
  intro w rw hsame
  exact hrw w rw hsame

theorem readRawFrame_keeps : Keeps f (readRawFrame (σ := σ)) := by
  have hreadSize : ∀ flag first, Keeps f (readSize flag first) := by
    intro flag first
    unfold readSize
    split
    · exact .bind (checkedRead_keeps hclosed hrw 7) fun _ => .pure _
    · exact .pure _
  refine .bind (checkedRead_keeps hclosed hrw 2) fun header => ?_
  refine .bind (hreadSize _ _) fun size => ?_
  split
  · exact .failWith _
  · exact .bind (checkedRead_keeps hclosed hrw size) fun _ => .pure _

variable (hdecrypt : ∀ body, Keeps f (onSec (openFrame S body)))

include hdecrypt

theorem readFrame_keeps (isCmd : Bool) : Keeps f (readFrame S isCmd) := by
  refine .bind (readRawFrame_keeps hclosed hrw) fun header => ?_
  refine .bind (.bind Keeps.get fun w => ?_) fun _ => .pure _
  split
  · exact .pure _
  · exact hdecrypt _

theorem readLoop_keeps (rounds : Nat) (isCmd : Bool) (done : List Bytes) :
    Keeps f (readLoop S rounds isCmd done) := by
  induction rounds generalizing isCmd done with
  | zero => exact .throw _
  | succ rounds ih =>
    intro w
    have hfirst := readFrame_keeps hclosed hrw hdecrypt isCmd w
    cases hframe : (readFrame S isCmd).run w with
    | ok header v =>
      rw [hframe] at hfirst
      rw [readLoop_ok hframe]
      split
      · exact (ih _ _ _).trans hfirst
      · exact hfirst
    | error stop v =>
      rw [hframe] at hfirst
      cases stop with
      | fail err => rwa [readLoop_fail hframe]
      | blocked | panicked => rwa [readLoop_stop (by simp) hframe]

theorem recvCmd_keeps : Keeps f (recvCmd S) := by
  refine .bind Keeps.get fun w => ?_
  split
  · exact .failWith _
  refine .bind (fun w => readLoop_keeps hclosed hrw hdecrypt _ _ _ w) fun msg => ?_
  split
  · exact .failWith _
  split
  · exact .failWith _
  split
  · exact .failWith _
  · split
    · exact .failWith _
    · exact .pure _
  · exact .failWith _

end Closing

end Effects

end Zmq4.CommandStream
