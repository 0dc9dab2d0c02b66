import Zmq4.CurveFrames
import Zmq4.FramingRoundTrip

namespace Zmq4.FrameHeaders

open ByteCodec DuplexProgram ZmtpMessage Connection BoxScheme CurveMechanism FrameStream CurveFrames
  FramingRoundTrip

/-- The writes of one call: headers, each followed by the body it announces.
An empty frame at the end may have no body write. -/
def inSync : List Bytes → Bool
  | [] => true
  | [header] => headerLength header = some 0
  | header :: body :: rest => headerLength header = some body.length && inSync rest

/-- A call of one of the writers: `send` for a frame of a message, `send` for a
command, `sendMulti` and `sendWithCurveHandshakeEncryption`. -/
inductive WriterCall where
  | message (frame : Bytes) (flag : UInt8)
  | command (name body : Bytes) (flag : UInt8)
  | vectored (frames : List Bytes)
  | handshake (name body : Bytes)

variable {σ : Type}

def WriterCall.exec (S : Security σ) : WriterCall → ConnM σ Unit
  | .message frame flag => send S false frame flag
  | .command name body flag => marshalAndSend S name body flag
  | .vectored frames => sendMulti S (newMsgFrom frames)
  | .handshake name body =>
    match S.encryptHandshakeCommand with
    | some encrypt => sendWithCurveHandshakeEncryption encrypt name body
    | none => panicWith "no handshake encryption"

/-- The arguments are slices, command names have at most 255 bytes, and the
handshake writer is only called under CURVE and for its own commands. -/
def WriterCall.Admissible (mechanism : SecurityType) : WriterCall → Prop
  | .message frame _ => frame.length ≤ maxInt64
  | .command name body _ => name.length ≤ 255 ∧ 1 + name.length + body.length ≤ maxInt64
  | .vectored frames => ∀ frame ∈ frames, frame.length ≤ maxInt64
  | .handshake name body => mechanism = .curveSecurity ∧
      isCurveHandshakeCommand name = true ∧ body.length ≤ maxInt64

def Synchronised (S : Security σ) (call : WriterCall) (w : Endpoint σ) : Prop :=
  ∃ buffers w', (call.exec S).run w = .ok () w' ∧
    w'.conn.rw.output = w.conn.rw.output ++ buffers ∧ inSync buffers = true

/-- The calls that keep the stream synchronised: the flag must leave the length
bit to the writer, and CURVE must neither encrypt a command nor take the
vectored path. -/
def WriterCall.KeepsSync (mechanism : SecurityType) : WriterCall → Prop
  | .message frame flag => isLong flag = false ∧
      (mechanism = .curveSecurity → frame ≠ [] → frame.length + 25 ≤ maxInt64)
  | .command _ _ flag => mechanism ≠ .curveSecurity ∧ isLong flag = false
  | .vectored frames => mechanism ≠ .curveSecurity ∨ frames = []
  | .handshake _ _ => True

theorem synchronised_iff {S : Security σ} {call : WriterCall} {w : Endpoint σ}
    {buffers : List Bytes} {sec : σ}
    (hrun : (call.exec S).run w = .ok () ((w.wrote buffers).withSec sec)) :
    Synchronised S call w ↔ inSync buffers = true := by
  constructor
  · rintro ⟨written, w', hwritten, houtput, hsync⟩
    rw [hrun] at hwritten
    obtain ⟨-, rfl⟩ : () = () ∧ (w.wrote buffers).withSec sec = w' := by simpa using hwritten
    have hsame : buffers = written := by
      simpa [Endpoint.wrote, Endpoint.withSec] using houtput
    rwa [hsame]
  · intro hsync
    exact ⟨buffers, _, hrun, rfl, hsync⟩

theorem inSync_frame {flag : UInt8} {size : Nat} (hsize : size < 2 ^ 64) (body : Bytes)
    (rest : List Bytes) :
    inSync (frameHeader flag size :: body :: rest) = true ↔
      isLong flag = decide (size > 255) ∧ size = body.length ∧ inSync rest = true := by
  simp only [inSync, headerLength_frameHeader flag hsize, Bool.and_eq_true, decide_eq_true_eq]
  by_cases hflag : isLong flag = decide (size > 255)
  · simp [hflag]
  · simp [hflag]

theorem inSync_optional_body {flag : UInt8} {body : Bytes} (hsize : body.length < 2 ^ 64) :
    inSync (frameHeader flag body.length :: if body = [] then [] else [body]) = true ↔
      isLong flag = decide (body.length > 255) := by
  by_cases hbody : body = []
  · subst hbody
    simp only [if_true, inSync, headerLength_frameHeader flag hsize, decide_eq_true_eq]
    simp
  · rw [if_neg hbody, inSync_frame hsize]
    simp [inSync]

theorem toggled_eq_iff (long flag : Bool) : (long ^^ flag) = long ↔ flag = false := by
  cases long <;> cases flag <;> decide

section Transparent

variable {S : Security σ} (hS : Transparent S) {w : Endpoint σ}

include hS

theorem transparent_send_synchronised (hw : w.Healthy) {command : Bool} {body : Bytes} {flag : UInt8}
    {call : WriterCall} (hcall : call.exec S = send S command body flag)
    (hsize : body.length ≤ maxInt64) :
    Synchronised S call w ↔ isLong flag = false := by
  have hrun : (call.exec S).run w = .ok () ((w.wrote
      (frameHeader (frameFlag S command body flag) body.length ::
        if body = [] then [] else [body])).withSec w.sec) := by
    rw [hcall]
    exact hS.send_run hw command body flag
  have hflag : isLong (frameFlag S command body flag) =
      (decide (frameSize S command body > 255) ^^ isLong flag) := by
    cases command with
    | true => simp [frameFlag, isLong_xor_command, isLong_longFlag]
    | false => simp [frameFlag, isLong_longFlag]
  rw [synchronised_iff hrun, inSync_optional_body (lt_of_le_maxInt64 hsize), hflag,
    hS.frameSize_eq, toggled_eq_iff]

theorem transparent_multiBuffers_inSync (w : Endpoint σ) {frames : List Bytes}
    (hsize : ∀ frame ∈ frames, frame.length ≤ maxInt64) :
    ∃ buffers, (multiBuffers S frames).run w = .ok buffers w ∧ inSync buffers = true := by
  induction frames with
  | nil => exact ⟨[], rfl, rfl⟩
  | cons frame rest ih =>
    obtain ⟨buffers, hrest, hsync⟩ := ih fun f hf => hsize f (by simp [hf])
    refine ⟨frameHeader (longFlag (moreFlag rest) frame.length) frame.length ::
      frame :: buffers, ?_, ?_⟩
    · rw [multiBuffers, bind_ok (hS.vectoredBody_run w frame), bind_ok hrest]
      rfl
    · rw [inSync_frame (lt_of_le_maxInt64 (hsize frame (by simp)))]
      exact ⟨isLong_messageFlag rest frame.length, rfl, hsync⟩

theorem transparent_synchronised_iff (hw : w.Healthy) (call : WriterCall)
    (hcall : call.Admissible S.securityType) :
    Synchronised S call w ↔ call.KeepsSync S.securityType := by
  cases call with
  | message frame flag =>
    rw [transparent_send_synchronised hS hw rfl hcall]
    simp [WriterCall.KeepsSync, hS.notCurve]
  | command name body flag =>
    obtain ⟨hname, hbody⟩ := hcall
    have hmarshal := (Cmd.unmarshal_marshal
      (show ({ name := name, body := body } : Cmd).name.length ≤ 255 from hname)).1
    rw [transparent_send_synchronised hS hw (by rw [WriterCall.exec, marshalAndSend, hmarshal])
      (by simp only [List.length_cons, List.length_append]; omega)]
    simp [WriterCall.KeepsSync, hS.notCurve]
  | vectored frames =>
    obtain ⟨buffers, hbuffers, hsync⟩ := transparent_multiBuffers_inSync hS w hcall
    have hrun : (sendMulti S (newMsgFrom frames)).run w = .ok () (w.wrote buffers) := by
      rw [sendMulti, newMsgFrom, bind_ok hbuffers, writeBuffers_run hw]
    refine iff_of_true ⟨buffers, _, hrun, rfl, hsync⟩ (Or.inl hS.notCurve)
  | handshake name body => exact absurd hcall.1 hS.notCurve

end Transparent

section Curve

variable (B : NaclBox) {w : Endpoint CurveSecurity} {recipient secret : Key}

theorem curve_message_synchronised (hw : w.Healthy) (hs : SendReady w.sec recipient secret)
    (frame : Bytes) (flag : UInt8) :
    Synchronised (curveSecurity B) (.message frame flag) w ↔
      isLong flag = false ∧ (frame ≠ [] → frame.length + 25 ≤ maxInt64) := by
  by_cases hne : frame = []
  · subst hne
    have hrun : (WriterCall.exec (curveSecurity B) (.message [] flag)).run w =
        .ok () ((w.wrote [frameHeader flag 0]).withSec w.sec) := send_empty_run B hw hs flag
    have hsync : inSync (frameHeader flag ([] : Bytes).length :: []) = true ↔
        isLong flag = decide (([] : Bytes).length > 255) :=
      inSync_optional_body (by simp)
    rw [synchronised_iff hrun]
    simpa using hsync
  · by_cases hfits : frame.length + 25 ≤ maxInt64
    · obtain ⟨hasMore, hrun⟩ := send_message_run B hw hs hne hfits flag
      change (WriterCall.exec (curveSecurity B) (.message frame flag)).run w = _ at hrun
      rw [synchronised_iff hrun, inSync_frame (lt_of_le_maxInt64 hfits), isLong_longFlag,
        toggled_eq_iff, messageBytes_length B (sendCounter_length w.sec)]
      simp [inSync, hfits]
    · refine iff_of_false ?_ (by simp [hne, hfits])
      rintro ⟨buffers, w', hrun, -⟩
      exact send_too_long B hw hs hne hfits flag w' hrun

theorem curve_command_not_synchronised (hw : w.Healthy)
    (hs : SendReady w.sec recipient secret) {name body : Bytes} (hname : name.length ≤ 255)
    (flag : UInt8) :
    ¬ Synchronised (curveSecurity B) (.command name body flag) w := by
  have hmarshal := (Cmd.unmarshal_marshal
    (show ({ name := name, body := body } : Cmd).name.length ≤ 255 from hname)).1
  let buf := UInt8.ofNat name.length :: (name ++ body)
  have hexec : WriterCall.exec (curveSecurity B) (.command name body flag) =
      send (curveSecurity B) true buf flag := by
    rw [WriterCall.exec, marshalAndSend, hmarshal]
  have hne : buf ≠ [] := by simp [buf]
  by_cases hfits : buf.length + 25 ≤ maxInt64
  · have hrun := send_command_run B hw hs hne hfits flag
    rw [← hexec] at hrun
    rw [synchronised_iff hrun, inSync_frame (lt_of_le_maxInt64 (by omega)),
      messageBytes_length B (sendCounter_length w.sec)]
    omega
  · rintro ⟨buffers, w', hrun, -⟩
    rw [hexec] at hrun
    exact send_too_long B hw hs hne hfits flag w' hrun

theorem multiBuffers_conn {frames buffers : List Bytes} {w w' : Endpoint CurveSecurity}
    (hrun : (multiBuffers (curveSecurity B) frames).run w = .ok buffers w') :
    w'.conn = w.conn := by
  induction frames generalizing buffers w with
  | nil =>
    obtain ⟨-, rfl⟩ : [] = buffers ∧ w = w' := by simpa [multiBuffers] using hrun
    rfl
  | cons frame rest ih =>
    rw [multiBuffers, bind_eq_ok_iff] at hrun
    obtain ⟨body, w₁, hbody, hrun⟩ := hrun
    obtain ⟨sec, -, rfl⟩ := zoom_eq_ok_iff.mp hbody
    rw [bind_eq_ok_iff] at hrun
    obtain ⟨others, w₂, hothers, hpure⟩ := hrun
    obtain ⟨-, rfl⟩ := by simpa using hpure
    have hconn := ih hothers
    exact hconn

theorem curve_vectored_not_synchronised (hw : w.Healthy)
    (hs : SendReady w.sec recipient secret) {frame : Bytes} {rest : List Bytes}
    (hsize : frame.length ≤ maxInt64) :
    ¬ Synchronised (curveSecurity B) (.vectored (frame :: rest)) w := by
  rintro ⟨written, w', hrun, houtput, hsync⟩
  change (sendMulti (curveSecurity B) (newMsgFrom (frame :: rest))).run w = _ at hrun
  rw [sendMulti, newMsgFrom, bind_eq_ok_iff] at hrun
  obtain ⟨buffers, w₁, hbuffers, hwrite⟩ := hrun
  have hconn := multiBuffers_conn B hbuffers
  rw [writeBuffers_run ⟨hconn ▸ hw.notClosed, hconn ▸ hw.writable⟩] at hwrite
  obtain ⟨-, rfl⟩ : () = () ∧ w₁.wrote buffers = w' := by simpa using hwrite
  have hsame : buffers = written := by
    simpa [Endpoint.wrote, hconn] using houtput
  subst hsame
  rw [multiBuffers, bind_eq_ok_iff] at hbuffers
  obtain ⟨body, w₂, hbody, hbuffers⟩ := hbuffers
  obtain ⟨sec, hencrypt, -⟩ := zoom_eq_ok_iff.mp hbody
  have hlength := encrypt_eq_ok_length B hs.keys hencrypt
  rw [bind_eq_ok_iff] at hbuffers
  obtain ⟨others, w₃, -, hpure⟩ := hbuffers
  obtain ⟨rfl, -⟩ := by simpa using hpure
  rw [inSync_frame (lt_of_le_maxInt64 hsize)] at hsync
  omega

theorem curve_synchronised_iff (hw : w.Healthy) (hs : SendReady w.sec recipient secret)
    (call : WriterCall) (hcall : call.Admissible .curveSecurity) :
    Synchronised (curveSecurity B) call w ↔ call.KeepsSync .curveSecurity := by
  cases call with
  | message frame flag =>
    rw [curve_message_synchronised B hw hs]
    simp [WriterCall.KeepsSync]
  | command name body flag =>
    refine iff_of_false (curve_command_not_synchronised B hw hs hcall.1 flag) ?_
    simp [WriterCall.KeepsSync]
  | vectored frames =>
    cases frames with
    | nil =>
      refine iff_of_true ⟨[], w, ?_, by simp, rfl⟩ (Or.inr rfl)
      rw [WriterCall.exec, sendMulti, newMsgFrom, multiBuffers, pure_bind,
        writeBuffers_run hw, Endpoint.wrote_nil]
    | cons frame rest =>
      refine iff_of_false (curve_vectored_not_synchronised B hw hs (hcall frame (by simp))) ?_
      simp [WriterCall.KeepsSync]
  | handshake name body =>
    obtain ⟨-, hname, hbody⟩ := hcall
    have hrun := sendHandshake_run hw (encryptHandshakeCommand_run hname body)
    refine iff_of_true ⟨_, _, hrun, rfl, ?_⟩ trivial
    rw [inSync_frame (lt_of_le_maxInt64 hbody), isLong_xor_command, isLong_longFlag]
    exact ⟨Bool.xor_false _, rfl, rfl⟩

end Curve

/-- Whatever the mechanism and the writer, the stream keeps its
synchronisation exactly for the calls above. -/
theorem synchronised_iff_keepsSync (B : NaclBox) (call : WriterCall) :
    (∀ w : Endpoint Unit, w.Healthy → call.Admissible .nullSecurity →
      (Synchronised nullSecurity call w ↔ call.KeepsSync .nullSecurity)) ∧
    (∀ w : Endpoint PlainSecurity, w.Healthy → call.Admissible .plainSecurity →
      (Synchronised plainSecurity call w ↔ call.KeepsSync .plainSecurity)) ∧
    (∀ (w : Endpoint CurveSecurity) (recipient secret : Key), w.Healthy →
      SendReady w.sec recipient secret → call.Admissible .curveSecurity →
      (Synchronised (curveSecurity B) call w ↔ call.KeepsSync .curveSecurity)) := by
  refine ⟨?_, ?_, ?_⟩
  · intro w hw hcall
    exact transparent_synchronised_iff transparent_nullSecurity hw call hcall
  · intro w hw hcall
    exact transparent_synchronised_iff transparent_plainSecurity hw call hcall
  · intro w recipient secret hw hs hcall
    exact curve_synchronised_iff B hw hs call hcall

theorem message_frame_synchronised :
    Synchronised (curveSecurity xorBox) (.message [7] hasMoreBitFlag) (establishedEnd false) := by
  refine ((synchronised_iff_keepsSync xorBox _).2.2 (establishedEnd false) _ _ ⟨rfl, rfl⟩
    (established_sides xorBox (plainKey 1) (plainKey 2)).sendReady.1 ?_).mpr ?_
  · simp [WriterCall.Admissible, maxInt64]
  · exact ⟨by decide, fun _ _ => by decide⟩

/-- A PING on a ready connection: seven plaintext bytes are announced and 32
bytes follow. -/
theorem ping_not_synchronised :
    (establishedEnd false).Healthy ∧
    SendReady (establishedEnd false).sec (xorBox.publicOf (plainKey 2)) (plainKey 1) ∧
    WriterCall.Admissible .curveSecurity (.command (ascii "PING") [0, 0] 0) ∧
    ¬ Synchronised (curveSecurity xorBox) (.command (ascii "PING") [0, 0] 0)
      (establishedEnd false) := by
  have hw : (establishedEnd false).Healthy := ⟨rfl, rfl⟩
  have hs := (established_sides xorBox (plainKey 1) (plainKey 2)).sendReady.1
  refine ⟨hw, hs, ?_, curve_command_not_synchronised xorBox hw hs (by decide) 0⟩
  simp [WriterCall.Admissible, maxInt64, ascii]

end Zmq4.FrameHeaders
