import Zmq4.ConnectionStreams
import Zmq4.CurveMechanism

namespace Zmq4.ReadAllocation

open ByteCodec DuplexProgram ProgramEffects ZmtpMessage ZmtpMetadata Connection BoxScheme

variable {σ α : Type}

structure Metered (σ : Type) where
  endpoint : Endpoint σ
  allocated : Nat

def onEndpoint (x : ConnM σ α) : Program (Metered σ) α :=
  zoom (fun m => m.endpoint) (fun m w => { m with endpoint := w }) x

/-- `make([]byte, size)`, where slices above the limit make the runtime panic. -/
def makeBytes (limit size : Nat) : Program (Metered σ) Unit := fun m =>
  if size > limit then .error (.panicked "makeslice: len out of range") m
  else .ok () { m with allocated := m.allocated + size }

def readHeader : ConnM σ (UInt8 × Nat) := do
  let header ← checked (onRw (readFull 2))
  let size ← readSize (header.getD 0 0) (header.getD 1 0)
  pure (header.getD 0 0, size)

variable (S : Security σ)

def readInto (isCmd : Bool) (flag : UInt8) (size : Nat) : ConnM σ (UInt8 × Bytes) := do
  let body ← checked (onRw (readFull size))
  let frame ← frameContent S (isCmd || isCommand flag) body
  pure (flag, frame)

def meteredFrame (limit : Nat) (isCmd : Bool) : Program (Metered σ) (UInt8 × Bytes) := do
  let (flag, size) ← onEndpoint readHeader
  if size > maxInt64 then failWith errOverflow
  else do
    makeBytes limit size
    onEndpoint (readInto S isCmd flag size)

def meteredLoop (limit : Nat) : Nat → Bool → List Bytes → Program (Metered σ) Msg
  | 0, _, _ => throw .blocked
  | rounds + 1, isCmd, frames => fun m =>
    match (meteredFrame S limit isCmd).run m with
    | .error (.fail err) m' =>
      .ok { frames := frames, msgType := .usrMsg, multipart := false, err := some err } m'
    | .error stop m' => .error stop m'
    | .ok (flag, frame) m' =>
      if hasMore flag then
        (meteredLoop limit rounds (isCmd || isCommand flag) (frames ++ [frame])).run m'
      else
        .ok { frames := frames ++ [frame]
              msgType := if isCmd || isCommand flag then .cmdMsg else .usrMsg
              multipart := false
              err := none } m'

def meteredRead (limit : Nat) : Program (Metered σ) Msg := fun m =>
  (meteredLoop S limit (m.endpoint.conn.rw.input.length + 1) false []).run m

/-- The lengths for which the loop of `read` makes a slice, as the headers
announce them. -/
def announcedLoop : Nat → Bool → Endpoint σ → List Nat
  | 0, _, _ => []
  | rounds + 1, isCmd, w =>
    match readHeader.run w with
    | .error _ _ => []
    | .ok (_, size) _ =>
      if size > maxInt64 then []
      else
        size ::
          match (readFrame S isCmd).run w with
          | .error _ _ => []
          | .ok (flag, _) w' =>
            if hasMore flag then announcedLoop rounds (isCmd || isCommand flag) w' else []

def announced (w : Endpoint σ) : List Nat :=
  announcedLoop S (w.conn.rw.input.length + 1) false w

/-- A call of `read` on what has arrived returns, or waits for more, and has
allocated no more than the bound for the bytes that have arrived. -/
def Harmless (limit constant factor : Nat) (w : Endpoint σ) : Prop :=
  let outcome := (meteredRead S limit).run { endpoint := w, allocated := 0 }
  ¬ Panics outcome ∧
    (finalState outcome).allocated ≤ constant + factor * w.conn.rw.input.length

/-- Decryption may fail, but it does not panic. -/
def DecryptSafe : Prop :=
  ∀ body, NeverPanics (S.decrypt body)

variable {flag : UInt8}

section Frames

def withMeter (n : Nat) : EStateM.Result Stop (Endpoint σ) α →
    EStateM.Result Stop (Metered σ) α
  | .ok a w => .ok a { endpoint := w, allocated := n }
  | .error stop w => .error stop { endpoint := w, allocated := n }

theorem onEndpoint_run (x : ConnM σ α) (w : Endpoint σ) (n : Nat) :
    (onEndpoint x).run { endpoint := w, allocated := n } = withMeter n (x.run w) := by
  cases hx : x.run w with
  | ok a w' => exact zoom_ok hx
  | error stop w' => exact zoom_error hx

theorem readFrame_eq (isCmd : Bool) :
    readFrame S isCmd = (readHeader >>= fun header =>
      if header.2 > maxInt64 then failWith errOverflow
      else readInto S isCmd header.1 header.2) := by
  rw [readFrame, readRawFrame, readHeader]
  simp only [bind_assoc, pure_bind]
  congr 1
  funext header
  congr 1
  funext size
  by_cases hsize : size > maxInt64
  · simp only [hsize, if_true]
    rfl
  · simp only [hsize, if_false, bind_assoc, pure_bind]
    rfl

variable {w w' : Endpoint σ} {n limit : Nat} {isCmd : Bool}

variable {size : Nat}

theorem meteredFrame_overflow (hheader : readHeader.run w = .ok (flag, size) w')
    (hsize : size > maxInt64) :
    (meteredFrame S limit isCmd).run { endpoint := w, allocated := n } =
      withMeter n ((readFrame S isCmd).run w) := by
  have hmetered := onEndpoint_run readHeader w n
  rw [hheader] at hmetered
  rw [meteredFrame, bind_ok hmetered, readFrame_eq, bind_ok hheader]
  simp only [hsize, if_true]
  rfl

theorem meteredFrame_panics (hheader : readHeader.run w = .ok (flag, size) w')
    (hsize : ¬ size > maxInt64) (hlimit : size > limit) :
    Panics ((meteredFrame S limit isCmd).run { endpoint := w, allocated := n }) := by
  have hmetered := onEndpoint_run readHeader w n
  rw [hheader] at hmetered
  rw [meteredFrame, bind_ok hmetered]
  simp only [hsize, if_false]
  have hmake : (makeBytes limit size).run ({ endpoint := w', allocated := n } : Metered σ) =
      .error (.panicked "makeslice: len out of range") { endpoint := w', allocated := n } :=
    if_pos hlimit
  rw [bind_error hmake]
  exact ⟨_, _, rfl⟩

theorem meteredFrame_fits (hheader : readHeader.run w = .ok (flag, size) w')
    (hsize : ¬ size > maxInt64) (hlimit : ¬ size > limit) :
    (meteredFrame S limit isCmd).run { endpoint := w, allocated := n } =
      withMeter (n + size) ((readFrame S isCmd).run w) := by
  have hmetered := onEndpoint_run readHeader w n
  rw [hheader] at hmetered
  rw [meteredFrame, bind_ok hmetered, readFrame_eq, bind_ok hheader]
  simp only [hsize, if_false]
  have hmake : (makeBytes limit size).run ({ endpoint := w', allocated := n } : Metered σ) =
      .ok () { endpoint := w', allocated := n + size } :=
    if_neg hlimit
  rw [bind_ok hmake]
  exact onEndpoint_run (readInto S isCmd flag size) w' (n + size)

end Frames

section Loop

variable {m m' : Metered σ} {w : Endpoint σ} {limit rounds n : Nat} {isCmd : Bool}
  {frames : List Bytes}

theorem meteredLoop_ok {frame : Bytes}
    (hframe : (meteredFrame S limit isCmd).run m = .ok (flag, frame) m') :
    (meteredLoop S limit (rounds + 1) isCmd frames).run m =
      if hasMore flag then
        (meteredLoop S limit rounds (isCmd || isCommand flag) (frames ++ [frame])).run m'
      else
        .ok { frames := frames ++ [frame]
              msgType := if isCmd || isCommand flag then .cmdMsg else .usrMsg
              multipart := false
              err := none } m' := by
  simp only [meteredLoop, EStateM.run] at hframe ⊢
  rw [hframe]

theorem meteredLoop_stop {stop : Stop} (hstop : ∀ err, stop ≠ .fail err)
    (hframe : (meteredFrame S limit isCmd).run m = .error stop m') :
    (meteredLoop S limit (rounds + 1) isCmd frames).run m = .error stop m' := by
  simp only [meteredLoop, EStateM.run] at hframe ⊢
  rw [hframe]
  cases stop with
  | fail err => exact absurd rfl (hstop err)
  | blocked | panicked => rfl

theorem meteredLoop_of_frame {n' total : Nat}
    (hmetered : (meteredFrame S limit isCmd).run m = withMeter n' ((readFrame S isCmd).run w))
    (hlast : (∀ flag frame w', (readFrame S isCmd).run w = .ok (flag, frame) w' →
      hasMore flag = false) → total = n')
    (hmore : ∀ flag frame w', (readFrame S isCmd).run w = .ok (flag, frame) w' →
      hasMore flag = true →
      (meteredLoop S limit rounds (isCmd || isCommand flag) (frames ++ [frame])).run
          { endpoint := w', allocated := n' } =
        withMeter total ((readLoop S rounds (isCmd || isCommand flag) (frames ++ [frame])).run w')) :
    (meteredLoop S limit (rounds + 1) isCmd frames).run m =
      withMeter total ((readLoop S (rounds + 1) isCmd frames).run w) := by
  cases hframe : (readFrame S isCmd).run w with
  | error stop w' =>
    have htotal : total = n' := hlast fun flag frame w'' hok => by
      rw [hframe] at hok
      cases hok
    rw [hframe] at hmetered
    cases stop with
    | fail err =>
      simp only [meteredLoop, EStateM.run] at hmetered ⊢
      rw [hmetered]
      rw [htotal]
      exact (congrArg (withMeter n') (readLoop_fail hframe)).symm
    | blocked | panicked =>
      rw [meteredLoop_stop S (by simp) hmetered, readLoop_stop (by simp) hframe, htotal]
      rfl
  | ok result w' =>
    obtain ⟨flag, frame⟩ := result
    rw [hframe] at hmetered
    rw [meteredLoop_ok S hmetered, readLoop_ok hframe]
    cases hflag : hasMore flag with
    | true => exact hmore flag frame w' hframe hflag
    | false =>
      have htotal : total = n' := hlast fun flag' frame' w'' hok => by
        rw [hframe] at hok
        cases hok
        exact hflag
      rw [htotal]
      rfl

theorem meteredLoop_run (hfits : ∀ size ∈ announcedLoop S rounds isCmd w, size ≤ limit) :
    (meteredLoop S limit rounds isCmd frames).run { endpoint := w, allocated := n } =
      withMeter (n + (announcedLoop S rounds isCmd w).sum)
        ((readLoop S rounds isCmd frames).run w) := by
  induction rounds generalizing isCmd w n frames with
  | zero => rfl
  | succ rounds ih =>
    rw [announcedLoop] at hfits ⊢
    cases hheader : readHeader.run w with
    | error stop w₁ =>
      have hstuck : (readFrame S isCmd).run w = .error stop w₁ := by
        rw [readFrame_eq, bind_error hheader]
      have hmetered := onEndpoint_run readHeader w n
      rw [hheader] at hmetered
      refine meteredLoop_of_frame S (by rw [meteredFrame, bind_error hmetered, hstuck]; rfl)
        (fun _ => rfl) ?_
      intro flag frame w' hok
      rw [hstuck] at hok
      cases hok
    | ok header w₁ =>
      obtain ⟨flag, size⟩ := header
      simp only [hheader] at hfits ⊢
      by_cases hsize : size > maxInt64
      · have hoverflow : (readFrame S isCmd).run w = .error (.fail errOverflow) w₁ := by
          rw [readFrame_eq, bind_ok hheader, if_pos hsize]
          rfl
        rw [if_pos hsize]
        refine meteredLoop_of_frame S (meteredFrame_overflow S hheader hsize) (fun _ => rfl) ?_
        intro flag frame w' hok
        rw [hoverflow] at hok
        cases hok
      · rw [if_neg hsize] at hfits ⊢
        obtain ⟨hlimit, hrest⟩ := List.forall_mem_cons.mp hfits
        refine meteredLoop_of_frame S (meteredFrame_fits S hheader hsize (by omega)) ?_ ?_
        · intro hlast
          cases hframe : (readFrame S isCmd).run w with
          | error stop w' => simp
          | ok result w' => simp [hlast result.1 result.2 w' hframe]
        · intro flag' frame w' hframe hflag
          simp only [hframe, hflag, if_true] at hrest ⊢
          rw [ih hrest, List.sum_cons, Nat.add_assoc]

theorem meteredLoop_panics (hbig : ∃ size ∈ announcedLoop S rounds isCmd w, size > limit) :
    Panics ((meteredLoop S limit rounds isCmd frames).run { endpoint := w, allocated := n }) := by
  induction rounds generalizing isCmd w n frames with
  | zero =>
    obtain ⟨size, hmem, -⟩ := hbig
    cases hmem
  | succ rounds ih =>
    rw [announcedLoop] at hbig
    cases hheader : readHeader.run w with
    | error stop w₁ =>
      simp only [hheader] at hbig
      obtain ⟨size, hmem, -⟩ := hbig
      cases hmem
    | ok header w₁ =>
      obtain ⟨flag, size⟩ := header
      simp only [hheader] at hbig
      by_cases hsize : size > maxInt64
      · rw [if_pos hsize] at hbig
        obtain ⟨_, hmem, -⟩ := hbig
        cases hmem
      · rw [if_neg hsize] at hbig
        by_cases hlimit : size > limit
        · have hframe : Panics ((meteredFrame S limit isCmd).run ⟨w, n⟩) :=
            meteredFrame_panics S hheader hsize hlimit
          obtain ⟨message, m', hpanic⟩ := hframe
          exact ⟨message, m', meteredLoop_stop S (by simp) hpanic⟩
        · have hmetered : (meteredFrame S limit isCmd).run ⟨w, n⟩ =
              withMeter (n + size) ((readFrame S isCmd).run w) :=
            meteredFrame_fits S hheader hsize hlimit
          obtain ⟨big, hmem, hgt⟩ := hbig
          rcases List.mem_cons.mp hmem with rfl | hmem
          · exact absurd hgt hlimit
          cases hframe : (readFrame S isCmd).run w with
          | error stop w' =>
            simp only [hframe] at hmem
            cases hmem
          | ok result w' =>
            obtain ⟨flag', frame⟩ := result
            simp only [hframe] at hmem
            rw [hframe] at hmetered
            rw [meteredLoop_ok S hmetered]
            cases hflag : hasMore flag' with
            | true =>
              rw [hflag, if_pos rfl] at hmem
              exact ih ⟨big, hmem, hgt⟩
            | false =>
              rw [hflag] at hmem
              cases hmem

end Loop

section Safe

theorem readFull_neverPanics (size : Nat) : NeverPanics (readFull size) := by
  rintro rw ⟨message, t, heq⟩
  simp only [readFull, EStateM.run] at heq
  split at heq
  · cases heq
  · split at heq
    · cases heq
    · cases heq

theorem checkedRead_neverPanics (size : Nat) :
    NeverPanics (checked (onRw (readFull size)) : ConnM σ Bytes) :=
  .rescue (.zoom (readFull_neverPanics size)) fun err =>
    .bind (.modify _) fun _ => .failWith err

theorem readSize_neverPanics (flag first : UInt8) :
    NeverPanics (readSize flag first : ConnM σ Nat) := by
  unfold readSize
  split
  · exact .bind (checkedRead_neverPanics 7) fun _ => .pure _
  · exact .pure _

theorem readHeader_neverPanics : NeverPanics (readHeader : ConnM σ (UInt8 × Nat)) :=
  .bind (checkedRead_neverPanics 2) fun _ => .bind (readSize_neverPanics _ _) fun _ => .pure _

variable {S}

theorem openFrame_neverPanics (hS : DecryptSafe S) (body : Bytes) :
    NeverPanics (openFrame S body) := by
  unfold openFrame
  split
  · exact .pure body
  · exact hS body

theorem readInto_neverPanics (hS : DecryptSafe S) (isCmd : Bool) (flag : UInt8) (size : Nat) :
    NeverPanics (readInto S isCmd flag size) := by
  refine .bind (checkedRead_neverPanics size) fun body => .bind ?_ fun _ => .pure _
  refine .bind .get fun w => ?_
  split
  · exact .pure body
  · exact .zoom (openFrame_neverPanics hS body)

theorem readFrame_neverPanics (hS : DecryptSafe S) (isCmd : Bool) :
    NeverPanics (readFrame S isCmd) := by
  rw [readFrame_eq]
  refine .bind readHeader_neverPanics fun header => ?_
  split
  · exact .failWith _
  · exact readInto_neverPanics hS isCmd _ _

theorem readLoop_neverPanics (hS : DecryptSafe S) (rounds : Nat) (isCmd : Bool)
    (frames : List Bytes) : NeverPanics (readLoop S rounds isCmd frames) := by
  induction rounds generalizing isCmd frames with
  | zero =>
    rintro w ⟨message, t, heq⟩
    cases heq
  | succ rounds ih =>
    intro w
    have hframe := readFrame_neverPanics hS isCmd w
    cases hrun : (readFrame S isCmd).run w with
    | ok result w' =>
      rw [readLoop_ok hrun]
      split
      · exact ih _ _ w'
      · rintro ⟨message, t, heq⟩
        cases heq
    | error stop w' =>
      rw [hrun] at hframe
      cases stop with
      | fail err => exact NeverPanics.of_ok (readLoop_fail hrun)
      | blocked =>
        rw [readLoop_stop (by simp) hrun]
        rintro ⟨message, t, heq⟩
        cases heq
      | panicked message => exact absurd ⟨message, w', rfl⟩ hframe

end Safe

section Bound

variable {S} {limit constant factor : Nat} {w : Endpoint σ}

theorem panics_withMeter {n : Nat} {result : EStateM.Result Stop (Endpoint σ) α} :
    Panics (withMeter n result) ↔ Panics result := by
  cases result with
  | ok | error => simp [Panics, withMeter]

theorem allocated_withMeter (n : Nat) (result : EStateM.Result Stop (Endpoint σ) α) :
    (finalState (withMeter n result)).allocated = n := by
  cases result with
  | ok | error => rfl

theorem meteredRead_run (hfits : ∀ size ∈ announced S w, size ≤ limit) :
    (meteredRead S limit).run { endpoint := w, allocated := 0 } =
      withMeter (announced S w).sum ((read S).run w) := by
  have hrun : (meteredRead S limit).run { endpoint := w, allocated := 0 } =
      withMeter (0 + (announced S w).sum) ((read S).run w) :=
    meteredLoop_run S hfits
  rwa [Nat.zero_add] at hrun

theorem fits_of_harmless (hharmless : Harmless S limit constant factor w) :
    ∀ size ∈ announced S w, size ≤ limit := by
  intro size hsize
  by_contra hbig
  exact hharmless.1 (meteredLoop_panics S ⟨size, hsize, Nat.lt_of_not_le hbig⟩)

/-- A call of `read` is harmless exactly when the lengths on the stream are: each
of them is within the limit, and together they are within the bound. -/
theorem harmless_iff_announced (hS : DecryptSafe S) :
    Harmless S limit constant factor w ↔
      (∀ size ∈ announced S w, size ≤ limit) ∧
        (announced S w).sum ≤ constant + factor * w.conn.rw.input.length := by
  constructor
  · intro hharmless
    have hfits := fits_of_harmless hharmless
    refine ⟨hfits, ?_⟩
    have hbound := hharmless.2
    rwa [meteredRead_run hfits, allocated_withMeter] at hbound
  · rintro ⟨hfits, hsum⟩
    simp only [Harmless, meteredRead_run hfits, panics_withMeter, allocated_withMeter]
    exact ⟨readLoop_neverPanics hS _ _ _ w, hsum⟩

end Bound

section Mechanisms

theorem decryptSafe_plainSecurity : DecryptSafe plainSecurity :=
  fun body => .pure body

theorem decryptSafe_curveSecurity (B : NaclBox) : DecryptSafe (CurveMechanism.curveSecurity B) := by
  intro body
  refine .bind (.bind .get fun s => ?_) fun _ => .pure _
  split
  · exact .failWith _
  · split
    · exact .failWith _
    · dsimp only
      split
      · exact .failWith _
      · refine .bind (.bind (.modify _) fun _ => .pure _) fun decrypted => ?_
        cases decrypted with
        | none => exact .failWith _
        | some content => exact .pure _

end Mechanisms

def maxAlloc : Nat := 2 ^ 48

def received (bytes : Bytes) : Endpoint Unit where
  sec := ()
  conn :=
    { Conn.fresh Metadata.empty with
      rw := { input := bytes, closedByPeer := false, output := [], writeErr := none } }

def hugeHeader : Bytes := [2, 64, 0, 0, 0, 0, 0, 0, 0]

theorem short_message_harmless : Harmless nullSecurity maxAlloc 0 1 (received [0, 3, 1, 2, 3]) := by
  have hannounced : announced nullSecurity (received [0, 3, 1, 2, 3]) = [3] := rfl
  refine (harmless_iff_announced (fun body => .pure body)).mpr ?_
  rw [hannounced]
  exact ⟨by decide, by decide⟩

theorem announced_hugeHeader : announced nullSecurity (received hugeHeader) = [2 ^ 62] := by
  decide

/-- Nine bytes make the reader panic, so no bound holds for all streams. -/
theorem huge_length_panics :
    ¬ ∃ constant factor, ∀ bytes, Harmless nullSecurity maxAlloc constant factor (received bytes) := by
  rintro ⟨constant, factor, hharmless⟩
  have hfits := fits_of_harmless (hharmless hugeHeader)
  rw [announced_hugeHeader] at hfits
  exact absurd (hfits _ (List.mem_singleton.mpr rfl)) (by decide)

end Zmq4.ReadAllocation
