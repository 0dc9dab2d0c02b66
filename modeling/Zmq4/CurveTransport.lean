import Zmq4.CurveFrames
import Zmq4.FramingRoundTrip

namespace Zmq4.CurveTransport

open ByteCodec DuplexProgram ZmtpMessage Connection BoxScheme CurveMechanism FrameStream CurveFrames
  FramingRoundTrip

variable (B : NaclBox) (own peer : Key)

/-- What a frame becomes on the wire when its sender holds `own` and sends to
the holder of `peer`: a MESSAGE, or nothing at all for an empty frame. -/
inductive SentAs : Bytes → Bytes → Prop where
  | empty : SentAs [] []
  | message {frame counter : Bytes} {hasMore : Bool} (hne : frame ≠ [])
      (hfits : frame.length + 25 ≤ maxInt64) (hcounter : counter.length = 8) :
      SentAs frame (messageBytes B counter (B.publicOf peer) own frame hasMore)

def Fits (frame : Bytes) : Prop :=
  frame ≠ [] → frame.length + 25 ≤ maxInt64

variable {B own peer}

theorem SentAs.length_le {frame body : Bytes} (hsent : SentAs B own peer frame body) :
    body.length ≤ maxInt64 := by
  cases hsent with
  | empty => simp
  | message hne hfits hcounter =>
    rw [messageBytes_length B hcounter]
    exact hfits

variable {frames bodies : List Bytes}

variable {msgs : List (List Bytes)}

section Sender

variable {w : Endpoint CurveSecurity}

theorem send_sent (hw : w.Healthy) (hs : SendReady w.sec (B.publicOf peer) own) {frame : Bytes}
    (hfits : Fits frame) (flag : UInt8) :
    ∃ buffers body sec,
      (send (curveSecurity B) false frame flag).run w = .ok () ((w.wrote buffers).withSec sec) ∧
      SendReady sec (B.publicOf peer) own ∧ SentAs B own peer frame body ∧
      buffers.flatten = frameHeader (longFlag flag body.length) body.length ++ body := by
  by_cases hne : frame = []
  · subst hne
    refine ⟨[frameHeader flag 0], [], w.sec, send_empty_run B hw hs flag, hs, .empty, ?_⟩
    simp [longFlag]
  · obtain ⟨hasMore, hrun⟩ := send_message_run B hw hs hne (hfits hne) flag
    have hcounter := sendCounter_length w.sec
    refine ⟨_, messageBytes B w.sec.sendCounter (B.publicOf peer) own frame hasMore, _, hrun,
      hs.afterMessage frame, .message hne (hfits hne) hcounter, ?_⟩
    simp [messageBytes_length B hcounter]

theorem sendFrames_sent (nframes index : Nat) (hw : w.Healthy)
    (hs : SendReady w.sec (B.publicOf peer) own) (hfits : ∀ frame ∈ frames, Fits frame) :
    ∃ buffers bodies sec,
      (sendFrames (curveSecurity B) nframes index frames).run w =
        .ok () ((w.wrote buffers).withSec sec) ∧
      SendReady sec (B.publicOf peer) own ∧
      List.Forall₂ (SentAs B own peer) frames bodies ∧
      buffers.flatten = encodeFrames bodies := by
  induction frames generalizing index w with
  | nil => exact ⟨[], [], w.sec, by simp [sendFrames]; rfl, hs, .nil, rfl⟩
  | cons frame rest ih =>
    obtain ⟨first, body, sec, hsend, hsec, hbody, hfirst⟩ :=
      send_sent hw hs (hfits frame (by simp)) (moreFlag rest)
    obtain ⟨others, bodies, sec', hrest, hsec', hbodies, hothers⟩ :=
      ih (w := (w.wrote first).withSec sec) (index + 1) ((hw.wrote first).withSec sec) hsec
        fun f hf => hfits f (by simp [hf])
    refine ⟨first ++ others, body :: bodies, sec', ?_, hsec', .cons hbody hbodies, ?_⟩
    · change (wrapping _ (send (curveSecurity B) false frame (moreFlag rest)) >>= fun _ =>
        sendFrames (curveSecurity B) nframes (index + 1) rest).run w = _
      rw [bind_ok (wrapping_ok hsend), hrest, ← Endpoint.wrote_wrote]
      rfl
    · have hflag : moreFlag bodies = moreFlag rest := by cases hbodies <;> rfl
      rw [List.flatten_append, hfirst, hothers, encodeFrames, hflag, List.append_assoc]

variable {w' : Endpoint CurveSecurity}

theorem fits_of_sendFrames {nframes index : Nat} (hw : w.Healthy)
    (hs : SendReady w.sec (B.publicOf peer) own)
    (hrun : (sendFrames (curveSecurity B) nframes index frames).run w = .ok () w') :
    ∀ frame ∈ frames, Fits frame := by
  induction frames generalizing index w with
  | nil => simp
  | cons frame rest ih =>
    change (wrapping _ (send (curveSecurity B) false frame (moreFlag rest)) >>= fun _ =>
      sendFrames (curveSecurity B) nframes (index + 1) rest).run w = _ at hrun
    rw [bind_eq_ok_iff] at hrun
    obtain ⟨_, w₁, hsend, hrest⟩ := hrun
    have hframe : Fits frame := by
      intro hne
      by_contra hlong
      exact send_too_long B hw hs hne hlong _ _ (wrapping_eq_ok hsend)
    obtain ⟨first, body, sec, hsent, hsec, -, -⟩ := send_sent hw hs hframe (moreFlag rest)
    rw [wrapping_ok hsent] at hsend
    obtain ⟨-, rfl⟩ : () = () ∧ (w.wrote first).withSec sec = w₁ := by simpa using hsend
    have hothers := ih ((hw.wrote first).withSec sec) hsec hrest
    exact List.forall_mem_cons.mpr ⟨hframe, hothers⟩

theorem sendMsg_eq (hw : w.Healthy) (S : Security CurveSecurity) (frames : List Bytes) :
    (sendMsg S (newMsgFrom frames)).run w = (sendFrames S frames.length 0 frames).run w := by
  rw [sendMsg, bind_ok (EStateM.run_get w), if_neg (by simp [hw.notClosed])]
  rfl

theorem sendAll_sent (hw : w.Healthy) (hs : SendReady w.sec (B.publicOf peer) own)
    (hfits : ∀ frames ∈ msgs, ∀ frame ∈ frames, Fits frame) :
    ∃ buffers bodies sec,
      (sendAll (curveSecurity B) (msgs.map newMsgFrom)).run w =
        .ok () ((w.wrote buffers).withSec sec) ∧
      List.Forall₂ (List.Forall₂ (SentAs B own peer)) msgs bodies ∧
      buffers.flatten = bodies.flatMap encodeFrames := by
  induction msgs generalizing w with
  | nil => exact ⟨[], [], w.sec, by simp [sendAll]; rfl, .nil, rfl⟩
  | cons frames msgs ih =>
    obtain ⟨first, body, sec, hsend, hsec, hbody, hfirst⟩ :=
      sendFrames_sent frames.length 0 hw hs (hfits frames (by simp))
    obtain ⟨others, bodies, sec', hrest, hbodies, hothers⟩ :=
      ih (w := (w.wrote first).withSec sec) ((hw.wrote first).withSec sec) hsec
        fun f hf => hfits f (by simp [hf])
    refine ⟨first ++ others, body :: bodies, sec', ?_, .cons hbody hbodies, ?_⟩
    · rw [List.map_cons, sendAll, bind_ok ((sendMsg_eq hw _ frames).trans hsend), hrest,
        ← Endpoint.wrote_wrote]
      rfl
    · simp [hfirst, hothers]

theorem fits_of_sendAll (hw : w.Healthy) (hs : SendReady w.sec (B.publicOf peer) own)
    (hrun : (sendAll (curveSecurity B) (msgs.map newMsgFrom)).run w = .ok () w') :
    ∀ frames ∈ msgs, ∀ frame ∈ frames, Fits frame := by
  induction msgs generalizing w with
  | nil => simp
  | cons frames msgs ih =>
    rw [List.map_cons, sendAll, bind_eq_ok_iff] at hrun
    obtain ⟨_, w₁, hsend, hrest⟩ := hrun
    rw [sendMsg_eq hw] at hsend
    have hframes := fits_of_sendFrames hw hs hsend
    obtain ⟨first, body, sec, hsent, hsec, -, -⟩ :=
      sendFrames_sent frames.length 0 hw hs hframes
    rw [hsent] at hsend
    obtain ⟨-, rfl⟩ : () = () ∧ (w.wrote first).withSec sec = w₁ := by simpa using hsend
    have hothers := ih ((hw.wrote first).withSec sec) hsec hrest
    exact List.forall_mem_cons.mpr ⟨hframes, hothers⟩

end Sender

section Receiver

variable {r : CurveSecurity}

theorem openFrame_message (hr : r.messageKeys = some (B.publicOf own, peer)) {counter : Bytes}
    (hcounter : counter.length = 8) (frame : Bytes) (hasMore : Bool) :
    ∃ call, (openFrame (curveSecurity B)
      (messageBytes B counter (B.publicOf peer) own frame hasMore)).run r =
        .ok frame (r.called call) := by
  obtain ⟨call, hdecrypt⟩ := decryptWithFlags_run B hr hcounter
    (B.openBox_sealBox frame (messageNonce counter) own peer) hasMore
  refine ⟨call, ?_⟩
  change (decryptWithFlags B _ >>= fun content => pure content.1).run r = _
  rw [bind_ok hdecrypt]
  rfl

theorem openFrame_empty (hr : r.messageKeys = some (B.publicOf own, peer)) :
    (openFrame (curveSecurity B) []).run r = .error (.fail errInvalidCommand) r := by
  obtain ⟨client, server, hready, -⟩ := messageKeys_eq_some hr
  have hnil : (decryptWithFlags B []).run r = .error (.fail errInvalidCommand) r := by
    rw [decryptWithFlags, bind_ok (EStateM.run_get r)]
    simp only [hready]
    rfl
  change (decryptWithFlags B [] >>= fun content => pure content.1).run r = _
  rw [bind_error hnil]

theorem contents_sent (hr : r.messageKeys = some (B.publicOf own, peer))
    (hsent : List.Forall₂ (SentAs B own peer) frames bodies) (hne : ∀ frame ∈ frames, frame ≠ []) :
    ∃ r', (contents (curveSecurity B) bodies).run r = .ok frames r' ∧
      r'.messageKeys = r.messageKeys := by
  induction hsent generalizing r with
  | nil => exact ⟨r, rfl, rfl⟩
  | @cons frame body frames bodies hbody _ ih =>
    cases hbody with
    | empty => exact absurd rfl (hne [] (by simp))
    | message _ _ hcounter =>
      obtain ⟨call, hopen⟩ := openFrame_message hr hcounter frame _
      obtain ⟨r', hcontents, hkeys⟩ :=
        ih (r := r.called call) hr fun f hf => hne f (by simp [hf])
      refine ⟨r', ?_, hkeys⟩
      rw [contents, bind_ok hopen, bind_ok hcontents]
      rfl

theorem ne_nil_of_contents (hr : r.messageKeys = some (B.publicOf own, peer)) {opened : List Bytes}
    {r' : CurveSecurity} (hsent : List.Forall₂ (SentAs B own peer) frames bodies)
    (hcontents : (contents (curveSecurity B) bodies).run r = .ok opened r') :
    ∀ frame ∈ frames, frame ≠ [] := by
  induction hsent generalizing r opened r' with
  | nil => simp
  | @cons frame body frames bodies hbody _ ih =>
    cases hbody with
    | empty =>
      rw [contents, bind_error (openFrame_empty hr)] at hcontents
      simp at hcontents
    | message hne _ hcounter =>
      obtain ⟨call, hopen⟩ := openFrame_message hr hcounter frame _
      rw [contents, bind_ok hopen, bind_eq_ok_iff] at hcontents
      obtain ⟨others, r₁, hothers, -⟩ := hcontents
      have hrest := ih (r := r.called call) hr hothers
      exact List.forall_mem_cons.mpr ⟨hne, hrest⟩

theorem length_le_of_sent (hsent : List.Forall₂ (SentAs B own peer) frames bodies) :
    ∀ body ∈ bodies, body.length ≤ maxInt64 := by
  induction hsent with
  | nil => simp
  | cons hbody _ ih =>
    exact List.forall_mem_cons.mpr ⟨hbody.length_le, ih⟩

/-- Reading the stream of a list of messages returns the list exactly when each
message has frames and none of them is empty. -/
theorem readAll_sent {bodies : List (List Bytes)} {w : Endpoint CurveSecurity}
    (hr : w.sec.messageKeys = some (B.publicOf own, peer))
    (hsent : List.Forall₂ (List.Forall₂ (SentAs B own peer)) msgs bodies)
    (hinput : w.conn.rw.input = bodies.flatMap encodeFrames) :
    (∃ w', (readAll (curveSecurity B) msgs.length).run w = .ok (msgs.map newMsgFrom) w') ↔
      ∀ frames ∈ msgs, frames ≠ [] ∧ ∀ frame ∈ frames, frame ≠ [] := by
  induction hsent generalizing w with
  | nil => exact iff_of_true ⟨w, rfl⟩ (by simp)
  | @cons frames body msgs bodies hbody _ ih =>
    have hsize := length_le_of_sent hbody
    have hstream : w.conn.rw.input = encodeFrames body ++ bodies.flatMap encodeFrames := hinput
    constructor
    · rintro ⟨w', hread⟩
      rw [List.length_cons, readAll, bind_eq_ok_iff] at hread
      obtain ⟨msg, w₁, hmsg, hread⟩ := hread
      rw [bind_eq_ok_iff] at hread
      obtain ⟨others, w₂, hothers, hpure⟩ := hread
      obtain ⟨⟨rfl, rfl⟩, rfl⟩ :
          (msg = newMsgFrom frames ∧ others = msgs.map newMsgFrom) ∧ w₂ = w' := by
        simpa using hpure
      have hne : frames ≠ [] := read_frames_ne_nil (curveSecurity B) hmsg rfl
      have hbodyNe : body ≠ [] := by
        rintro rfl
        cases hbody
        exact hne rfl
      obtain ⟨opened, sec, hcontents, -, rfl⟩ :=
        read_eq_ok (curveSecurity B) hbodyNe hsize hstream hmsg rfl
      have hframes := ne_nil_of_contents hr hbody hcontents
      obtain ⟨sec', hcontents', hkeys⟩ := contents_sent hr hbody hframes
      obtain ⟨-, rfl⟩ : opened = frames ∧ sec = sec' := by
        simpa [hcontents] using hcontents'
      have hrest := (ih (w := (w.withInput _).withSec sec) (hkeys.trans hr) rfl).mp
        ⟨_, hothers⟩
      exact List.forall_mem_cons.mpr ⟨⟨hne, hframes⟩, hrest⟩
    · intro hne
      obtain ⟨hframesNe, hframes⟩ := hne frames (by simp)
      have hbodyNe : body ≠ [] := by
        rintro rfl
        cases hbody
        exact hframesNe rfl
      obtain ⟨sec, hcontents, hkeys⟩ := contents_sent hr hbody hframes
      have hmsg := read_run (curveSecurity B) hbodyNe hsize hstream hcontents
      obtain ⟨w', hothers⟩ :=
        (ih (w := (w.withInput (bodies.flatMap encodeFrames)).withSec sec) (hkeys.trans hr)
          rfl).mpr fun f hf => hne f (by simp [hf])
      refine ⟨w', ?_⟩
      rw [List.length_cons, readAll, bind_ok hmsg, bind_ok hothers]
      rfl

end Receiver

variable (B)

def Transports (sender receiver : Endpoint CurveSecurity) (msgs : List (List Bytes)) : Prop :=
  ∃ buffers sender' receiver',
    (sendAll (curveSecurity B) (msgs.map newMsgFrom)).run sender = .ok () sender' ∧
    sender'.conn.rw.output = sender.conn.rw.output ++ buffers ∧
    (readAll (curveSecurity B) msgs.length).run (receiver.withInput buffers.flatten) =
      .ok (msgs.map newMsgFrom) receiver'

def Transportable (msgs : List (List Bytes)) : Prop :=
  ∀ frames ∈ msgs, frames ≠ [] ∧ ∀ frame ∈ frames, frame ≠ [] ∧ frame.length + 25 ≤ maxInt64

theorem transports_of_keys {sender receiver : Endpoint CurveSecurity} (hw : sender.Healthy)
    (hs : SendReady sender.sec (B.publicOf peer) own)
    (hr : receiver.sec.messageKeys = some (B.publicOf own, peer)) (msgs : List (List Bytes)) :
    Transports B sender receiver msgs ↔ Transportable msgs := by
  have hsplit : Transportable msgs ↔
      (∀ frames ∈ msgs, ∀ frame ∈ frames, Fits frame) ∧
        ∀ frames ∈ msgs, frames ≠ [] ∧ ∀ frame ∈ frames, frame ≠ [] := by
    constructor
    · intro h
      exact ⟨fun frames hf frame hframe _ => ((h frames hf).2 frame hframe).2,
        fun frames hf => ⟨(h frames hf).1, fun frame hframe => ((h frames hf).2 frame hframe).1⟩⟩
    · rintro ⟨hfits, hne⟩ frames hf
      refine ⟨(hne frames hf).1, ?_⟩
      intro frame hframe
      have hframeNe := (hne frames hf).2 frame hframe
      exact ⟨hframeNe, hfits frames hf frame hframe hframeNe⟩
  rw [hsplit]
  constructor
  · rintro ⟨buffers, sender', receiver', hsend, houtput, hread⟩
    have hfits := fits_of_sendAll hw hs hsend
    obtain ⟨written, bodies, sec, hsent, hbodies, hstream⟩ := sendAll_sent hw hs hfits
    rw [hsent] at hsend
    obtain ⟨-, rfl⟩ : () = () ∧ (sender.wrote written).withSec sec = sender' := by
      simpa using hsend
    have hsame : written = buffers := by
      simpa [Endpoint.wrote, Endpoint.withSec] using houtput
    subst hsame
    exact ⟨hfits, (readAll_sent (w := receiver.withInput written.flatten) hr hbodies hstream).mp
      ⟨receiver', hread⟩⟩
  · rintro ⟨hfits, hne⟩
    obtain ⟨written, bodies, sec, hsent, hbodies, hstream⟩ := sendAll_sent hw hs hfits
    obtain ⟨receiver', hread⟩ :=
      (readAll_sent (w := receiver.withInput written.flatten) hr hbodies hstream).mpr hne
    exact ⟨written, _, receiver', hsent, rfl, hread⟩

/-- After a handshake, whichever side sends, exactly the transportable lists of
messages arrive. -/
theorem transports_iff_transportable {c s : Endpoint CurveSecurity} {client server : Key}
    (hcs : Established B c.sec s.sec client server) (hc : c.Healthy) (hs : s.Healthy)
    (msgs : List (List Bytes)) :
    (Transports B c s msgs ↔ Transportable msgs) ∧
      (Transports B s c msgs ↔ Transportable msgs) := by
  obtain ⟨hclient, hserver⟩ := hcs.sendReady
  exact ⟨transports_of_keys B hc hclient hserver.keys msgs,
    transports_of_keys B hs hserver hclient.keys msgs⟩

theorem two_frames_transported :
    Transports xorBox (establishedEnd false) (establishedEnd true) [[[1], [2, 3]], [[4]]] := by
  have hiff := (transports_iff_transportable xorBox
    (c := establishedEnd false) (s := establishedEnd true)
    (established_sides xorBox (plainKey 1) (plainKey 2)) ⟨rfl, rfl⟩ ⟨rfl, rfl⟩
    [[[1], [2, 3]], [[4]]]).1
  refine hiff.mpr ?_
  simp [Transportable, maxInt64]

theorem empty_frame_not_transported :
    Established xorBox (establishedEnd false).sec (establishedEnd true).sec
      (plainKey 1) (plainKey 2) ∧
    ¬ Transports xorBox (establishedEnd false) (establishedEnd true) [[[]]] := by
  have hcs := established_sides xorBox (plainKey 1) (plainKey 2)
  have hkeys := hcs.sendReady
  refine ⟨hcs, ?_⟩
  have hw : (establishedEnd false).Healthy := ⟨rfl, rfl⟩
  rw [transports_of_keys xorBox hw hkeys.1 hkeys.2.keys]
  simp [Transportable]

end Zmq4.CurveTransport
