import Zmq4.Connection

namespace Zmq4.FrameStream

open ByteCodec DuplexProgram ZmtpMessage Connection

def moreFlag (rest : List Bytes) : UInt8 :=
  if rest = [] then 0 else hasMoreBitFlag

def encodeFrames : List Bytes → Bytes
  | [] => []
  | body :: rest =>
    frameHeader (longFlag (moreFlag rest) body.length) body.length ++
      (body ++ encodeFrames rest)

theorem isLong_moreFlag (rest : List Bytes) : isLong (moreFlag rest) = false := by
  unfold moreFlag
  split <;> decide

theorem isLong_messageFlag (rest : List Bytes) (size : Nat) :
    isLong (longFlag (moreFlag rest) size) = decide (size > 255) := by
  rw [isLong_longFlag, isLong_moreFlag, Bool.xor_false]

theorem hasMore_messageFlag (rest : List Bytes) (size : Nat) :
    hasMore (longFlag (moreFlag rest) size) = decide (rest ≠ []) := by
  unfold longFlag moreFlag
  by_cases hrest : rest = []
  · by_cases hlong : size > 255
    · simp only [hrest, hlong, if_true]
      decide
    · simp only [hrest, hlong, if_true, if_false]
      decide
  · by_cases hlong : size > 255
    · simp only [hrest, hlong, if_true, if_false, ne_eq, not_false_eq_true, decide_true]
      decide
    · simp only [hrest, hlong, if_false, ne_eq, not_false_eq_true, decide_true]
      decide

theorem isCommand_messageFlag (rest : List Bytes) (size : Nat) :
    isCommand (longFlag (moreFlag rest) size) = false := by
  unfold longFlag moreFlag
  split <;> split <;> decide

theorem frameHeader_eq_cons (flag : UInt8) (size : Nat) :
    ∃ field, frameHeader flag size = flag :: field := by
  unfold frameHeader
  split
  · exact ⟨_, rfl⟩
  · exact ⟨_, rfl⟩

variable {flag : UInt8}

theorem exists_sizeField {size : Nat} (hflag : isLong flag = decide (size > 255))
    (hsize : size ≤ maxInt64) :
    ∃ field, frameHeader flag size = flag :: field ∧ headerLength (flag :: field) = some size := by
  rcases frameHeader_eq_cons flag size with ⟨field, hheader⟩
  have hlength := headerLength_frameHeader flag (lt_of_le_maxInt64 hsize)
  rw [if_pos hflag, hheader] at hlength
  exact ⟨field, hheader, hlength⟩

theorem length_le_encodeFrames (bodies : List Bytes) :
    bodies.length ≤ (encodeFrames bodies).length := by
  induction bodies with
  | nil => simp
  | cons body rest ih =>
    obtain ⟨field, hheader⟩ :=
      frameHeader_eq_cons (longFlag (moreFlag rest) body.length) body.length
    simp only [encodeFrames, hheader, List.length_append, List.length_cons]
    omega

variable {σ : Type} {w w' : Endpoint σ}

theorem readSize_eq_ok_iff {first : UInt8} {size : Nat} :
    (readSize flag first).run w = .ok size w' ↔
      ∃ field rest, w.conn.rw.input = field ++ rest ∧
        headerLength (flag :: first :: field) = some size ∧ w' = w.withInput rest := by
  cases hlong : isLong flag with
  | true =>
    rw [readSize, if_pos hlong, bind_eq_ok_iff]
    constructor
    · rintro ⟨field, w₁, hread, hpure⟩
      obtain ⟨hseven, rest, hinput, rfl⟩ := readFull_run_iff.mp hread
      obtain ⟨rfl, rfl⟩ := by simpa using hpure
      exact ⟨field, rest, hinput, by simp [headerLength, hlong, hseven], rfl⟩
    · rintro ⟨field, rest, hinput, hlength, rfl⟩
      obtain ⟨hseven, hsize⟩ : field.length = 7 ∧ bigEndianValue (first :: field) = size := by
        simpa [headerLength, hlong] using hlength
      exact ⟨field, _, readFull_run hinput hseven, by rw [hsize]; rfl⟩
  | false =>
    rw [readSize, if_neg (by simp [hlong])]
    constructor
    · intro hpure
      obtain ⟨rfl, rfl⟩ := by simpa using hpure
      exact ⟨[], w.conn.rw.input, rfl, by simp [headerLength, hlong], rfl⟩
    · rintro ⟨field, rest, hinput, hlength, rfl⟩
      rcases field with _ | ⟨byte, field⟩
      · have hsize : first.toNat = size := by simpa [headerLength, hlong] using hlength
        rw [← hsize, show rest = w.conn.rw.input by simpa using hinput.symm]
        rfl
      · simp [headerLength, hlong] at hlength

variable {body : Bytes}

theorem readRawFrame_eq_ok_iff :
    readRawFrame.run w = .ok (flag, body) w' ↔
      ∃ field rest, w.conn.rw.input = flag :: (field ++ (body ++ rest)) ∧
        headerLength (flag :: field) = some body.length ∧ body.length ≤ maxInt64 ∧
        w' = w.withInput rest := by
  constructor
  · intro hread
    rw [readRawFrame, bind_eq_ok_iff] at hread
    obtain ⟨header, w₁, hheader, hread⟩ := hread
    obtain ⟨htwo, rest, hinput, rfl⟩ := readFull_run_iff.mp hheader
    obtain ⟨flag', first, rfl⟩ := List.length_eq_two.mp htwo
    simp only [List.getD_cons_zero, List.getD_cons_succ] at hread
    rw [bind_eq_ok_iff] at hread
    obtain ⟨size, w₂, hsize, hread⟩ := hread
    obtain ⟨field, rest', hrest, hlength, rfl⟩ := readSize_eq_ok_iff.mp hsize
    split at hread
    · simp at hread
    · rename_i hfits
      rw [bind_eq_ok_iff] at hread
      obtain ⟨body', w₃, hbody, hpure⟩ := hread
      obtain ⟨rfl, rest'', hrest', rfl⟩ := readFull_run_iff.mp hbody
      obtain ⟨⟨rfl, rfl⟩, rfl⟩ := by simpa using hpure
      change rest = field ++ rest' at hrest
      change rest' = body' ++ rest'' at hrest'
      refine ⟨first :: field, rest'', ?_, hlength, Nat.not_lt.mp hfits, rfl⟩
      rw [hinput, hrest, hrest']
      rfl
  · rintro ⟨field, rest, hinput, hlength, hfits, rfl⟩
    rcases field with _ | ⟨first, field⟩
    · simp [headerLength] at hlength
    have hheader : (checked (onRw (readFull 2))).run w =
        .ok [flag, first] (w.withInput (field ++ (body ++ rest))) :=
      readFull_run hinput rfl
    have hsize : (readSize flag first).run (w.withInput (field ++ (body ++ rest))) =
        .ok body.length (w.withInput (body ++ rest)) :=
      readSize_eq_ok_iff.mpr ⟨field, body ++ rest, rfl, hlength, rfl⟩
    have hbody : (checked (onRw (readFull body.length))).run (w.withInput (body ++ rest)) =
        .ok body (w.withInput rest) :=
      readFull_run rfl rfl
    rw [readRawFrame, bind_ok hheader]
    simp only [List.getD_cons_zero, List.getD_cons_succ]
    rw [bind_ok hsize, if_neg (Nat.not_lt.mpr hfits), bind_ok hbody]
    rfl

variable {rest : Bytes}

theorem readRawFrame_run (hinput : w.conn.rw.input = frameHeader flag body.length ++ (body ++ rest))
    (hflag : isLong flag = decide (body.length > 255)) (hsize : body.length ≤ maxInt64) :
    readRawFrame.run w = .ok (flag, body) (w.withInput rest) := by
  rcases exists_sizeField hflag hsize with ⟨field, hheader, hlength⟩
  rw [hheader] at hinput
  exact readRawFrame_eq_ok_iff.mpr ⟨field, rest, hinput, hlength, hsize, rfl⟩

variable (S : Security σ)

def contents : List Bytes → Program σ (List Bytes)
  | [] => pure []
  | body :: rest => do
      let frame ← openFrame S body
      let frames ← contents rest
      pure (frame :: frames)

variable {bodies : List Bytes}

theorem readFrame_run (hinput : w.conn.rw.input = encodeFrames (body :: bodies) ++ rest)
    (hsize : body.length ≤ maxInt64) :
    (readFrame S false).run w =
      (do
        let frame ← onSec (openFrame S body)
        pure (longFlag (moreFlag bodies) body.length, frame)).run
          (w.withInput (encodeFrames bodies ++ rest)) := by
  have hraw : readRawFrame.run w = .ok (longFlag (moreFlag bodies) body.length, body)
      (w.withInput (encodeFrames bodies ++ rest)) :=
    readRawFrame_run (by simpa [encodeFrames] using hinput)
      (isLong_messageFlag bodies body.length) hsize
  rw [readFrame, bind_ok hraw]
  simp only [isCommand_messageFlag, Bool.or_false]
  rfl

variable {rounds : Nat} {done frames : List Bytes}

theorem readLoop_run {sec : σ} (hne : bodies ≠ []) (hsize : ∀ body ∈ bodies, body.length ≤ maxInt64)
    (hrounds : bodies.length ≤ rounds) (hinput : w.conn.rw.input = encodeFrames bodies ++ rest)
    (hcontents : (contents S bodies).run w.sec = .ok frames sec) :
    (readLoop S rounds false done).run w =
      .ok (newMsgFrom (done ++ frames)) ((w.withInput rest).withSec sec) := by
  induction bodies generalizing frames rounds done w with
  | nil => exact absurd rfl hne
  | cons body bodies ih =>
    rcases rounds with _ | rounds
    · simp at hrounds
    rw [contents, bind_eq_ok_iff] at hcontents
    obtain ⟨frame, sec', hframe, hcontents⟩ := hcontents
    rw [bind_eq_ok_iff] at hcontents
    obtain ⟨others, sec'', hothers, hpure⟩ := hcontents
    obtain ⟨rfl, rfl⟩ : frame :: others = frames ∧ sec'' = sec := by
      simpa using hpure
    have hread : (readFrame S false).run w =
        .ok (longFlag (moreFlag bodies) body.length, frame)
          ((w.withInput (encodeFrames bodies ++ rest)).withSec sec') := by
      rw [readFrame_run S hinput (hsize body (by simp)),
        bind_ok (onSec_ok (w := w.withInput (encodeFrames bodies ++ rest)) hframe)]
      rfl
    rw [readLoop_ok hread]
    simp only [hasMore_messageFlag, isCommand_messageFlag, Bool.or_false]
    by_cases hbodies : bodies = []
    · subst hbodies
      obtain ⟨rfl, rfl⟩ : others = [] ∧ sec'' = sec' := by
        simpa [contents, eq_comm] using hothers
      simp [newMsgFrom, encodeFrames]
    · simp only [hbodies, ne_eq, not_false_eq_true, decide_true, if_true]
      rw [ih hbodies (fun b hb => hsize b (by simp [hb])) (by simpa using hrounds) rfl hothers]
      simp
      rfl

theorem length_le_input (hinput : w.conn.rw.input = encodeFrames bodies ++ rest) :
    bodies.length ≤ w.conn.rw.input.length + 1 := by
  have := length_le_encodeFrames bodies
  rw [hinput, List.length_append]
  omega

theorem read_run {sec : σ} (hne : bodies ≠ []) (hsize : ∀ body ∈ bodies, body.length ≤ maxInt64)
    (hinput : w.conn.rw.input = encodeFrames bodies ++ rest)
    (hcontents : (contents S bodies).run w.sec = .ok frames sec) :
    (read S).run w = .ok (newMsgFrom frames) ((w.withInput rest).withSec sec) :=
  readLoop_run S hne hsize (length_le_input hinput) hinput hcontents

variable {msg : Msg}

theorem contents_of_readLoop (hsize : ∀ body ∈ bodies, body.length ≤ maxInt64)
    (hrounds : bodies.length ≤ rounds) (hinput : w.conn.rw.input = encodeFrames bodies ++ rest)
    (hread : (readLoop S rounds false done).run w = .ok msg w') (herr : msg.err = none) :
    ∃ frames sec, (contents S bodies).run w.sec = .ok frames sec := by
  induction bodies generalizing rounds done w with
  | nil => exact ⟨[], w.sec, rfl⟩
  | cons body bodies ih =>
    rcases rounds with _ | rounds
    · simp at hrounds
    obtain ⟨flag, frame, v, hframe⟩ := readFrame_of_readLoop hread herr
    have hstep := readFrame_run S hinput (hsize body (by simp))
    cases hopen : (openFrame S body).run w.sec with
    | error stop sec =>
      rw [bind_error (onSec_error (w := w.withInput (encodeFrames bodies ++ rest)) hopen),
        hframe] at hstep
      cases hstep
    | ok frame sec =>
      rw [bind_ok (onSec_ok (w := w.withInput (encodeFrames bodies ++ rest)) hopen)] at hstep
      rw [readLoop_ok hstep] at hread
      simp only [hasMore_messageFlag, isCommand_messageFlag, Bool.or_false] at hread
      rw [contents, bind_ok hopen]
      by_cases hbodies : bodies = []
      · subst hbodies
        exact ⟨_, _, rfl⟩
      · simp only [hbodies, ne_eq, not_false_eq_true, decide_true, if_true] at hread
        obtain ⟨frames, sec', hcontents⟩ :=
          ih (w := (w.withInput (encodeFrames bodies ++ rest)).withSec sec)
            (fun b hb => hsize b (by simp [hb])) (by simpa using hrounds) rfl hread
        have hsec : (contents S bodies).run sec = .ok frames sec' := hcontents
        exact ⟨frame :: frames, sec', by rw [bind_ok hsec]; rfl⟩

theorem read_eq_ok (hne : bodies ≠ []) (hsize : ∀ body ∈ bodies, body.length ≤ maxInt64)
    (hinput : w.conn.rw.input = encodeFrames bodies ++ rest) (hread : (read S).run w = .ok msg w')
    (herr : msg.err = none) :
    ∃ frames sec, (contents S bodies).run w.sec = .ok frames sec ∧
      msg = newMsgFrom frames ∧ w' = (w.withInput rest).withSec sec := by
  obtain ⟨frames, sec, hcontents⟩ :=
    contents_of_readLoop S hsize (length_le_input hinput) hinput hread herr
  rw [read_run S hne hsize hinput hcontents] at hread
  obtain ⟨rfl, rfl⟩ := by simpa using hread
  exact ⟨frames, sec, hcontents, rfl, rfl⟩

theorem readLoop_frames_length {isCmd : Bool}
    (hread : (readLoop S rounds isCmd done).run w = .ok msg w') (herr : msg.err = none) :
    done.length < msg.frames.length := by
  induction rounds generalizing isCmd done w with
  | zero => cases hread
  | succ rounds ih =>
    obtain ⟨flag, frame, v, hframe⟩ := readFrame_of_readLoop hread herr
    rw [readLoop_ok hframe] at hread
    split at hread
    · have hmore := ih hread
      rw [List.length_append] at hmore
      omega
    · obtain ⟨rfl, -⟩ := by simpa using hread
      simp

theorem read_frames_ne_nil (hread : (read S).run w = .ok msg w') (herr : msg.err = none) :
    msg.frames ≠ [] :=
  List.ne_nil_of_length_pos (readLoop_frames_length S hread herr)

theorem readFrame_of_read {frame : Bytes} (hread : (read S).run w = .ok msg w')
    (herr : msg.err = none) (hframes : msg.frames = [frame]) :
    ∃ flag, (readFrame S false).run w = .ok (flag, frame) w' ∧ hasMore flag = false ∧
      msg.isCmd = isCommand flag := by
  obtain ⟨flag, frame', v, hframe⟩ := readFrame_of_readLoop hread herr
  have hloop := (readLoop_ok hframe).symm.trans hread
  split at hloop
  · have hlength := readLoop_frames_length S hloop herr
    simp [hframes] at hlength
  · rename_i hmore
    obtain ⟨rfl, rfl⟩ := by simpa using hloop
    obtain rfl : frame' = frame := by simpa using hframes
    refine ⟨flag, hframe, by simpa using hmore, ?_⟩
    cases isCommand flag <;> simp [Msg.isCmd]

end Zmq4.FrameStream
