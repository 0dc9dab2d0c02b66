import Zmq4.ProgramEffects
import Zmq4.SocketConnections

namespace Zmq4.SocketConnections

open ByteCodec DuplexProgram ProgramEffects ZmtpMessage ActionRuns Connection

def Ending.err : Ending → Err
  | .io err => err
  | .overflow => errOverflow
  | .decrypt err => err

section Reading

variable {σ α β : Type}

/-- `io.ReadFull` on a stream that ends with the given error. -/
def readUntil (last : Err) (size : Nat) : Program Duplex Bytes := fun rw =>
  if size ≤ rw.input.length then
    .ok (rw.input.take size) { rw with input := rw.input.drop size }
  else
    .error (.fail (if last = .eof ∧ rw.input ≠ [] then .unexpectedEof else last))
      { rw with input := [] }

variable (S : Security σ) (fetch : Nat → ConnM σ Bytes)

def readSizeFrom (flag first : UInt8) : ConnM σ Nat :=
  if isLong flag then do
    let rest ← checked (fetch 7)
    pure (bigEndianValue (first :: rest))
  else pure first.toNat

def readRawFrameFrom : ConnM σ (UInt8 × Bytes) := do
  let header ← checked (fetch 2)
  let size ← readSizeFrom fetch (header.getD 0 0) (header.getD 1 0)
  if size > maxInt64 then failWith errOverflow
  else do
    let body ← checked (fetch size)
    pure (header.getD 0 0, body)

def readFrameFrom (isCmd : Bool) : ConnM σ (UInt8 × Bytes) := do
  let (flag, body) ← readRawFrameFrom fetch
  let frame ← frameContent S (isCmd || isCommand flag) body
  pure (flag, frame)

def readLoopFrom : Nat → Bool → List Bytes → ConnM σ Msg
  | 0, _, _ => throw .blocked
  | rounds + 1, isCmd, frames => fun w =>
    match (readFrameFrom S fetch isCmd).run w with
    | .error (.fail err) w' =>
      .ok { frames := frames, msgType := .usrMsg, multipart := false, err := some err } w'
    | .error stop w' => .error stop w'
    | .ok (flag, frame) w' =>
      if hasMore flag then
        (readLoopFrom rounds (isCmd || isCommand flag) (frames ++ [frame])).run w'
      else
        .ok { frames := frames ++ [frame]
              msgType := if isCmd || isCommand flag then .cmdMsg else .usrMsg
              multipart := false
              err := none } w'

def readFrom : ConnM σ Msg := fun w =>
  (readLoopFrom S fetch (w.conn.rw.input.length + 1) false []).run w

theorem readLoopFrom_readFull (rounds : Nat) (isCmd : Bool) (frames : List Bytes) :
    readLoopFrom S (fun size => onRw (readFull size)) rounds isCmd frames =
      readLoop S rounds isCmd frames := by
  induction rounds generalizing isCmd frames with
  | zero => rfl
  | succ rounds ih =>
    funext w
    rw [readLoopFrom, readLoop]
    simp only [ih]
    rfl

theorem readFrom_readFull : readFrom S (fun size => onRw (readFull size)) = read S := by
  funext w
  rw [readFrom, readLoopFrom_readFull]
  rfl

theorem checkIo_run (err : Err) (w : Endpoint σ) :
    ∃ w', (checkIo err).run w = .ok () w' ∧
      w'.conn.closed = (w.conn.closed || (Ending.io err).setsClosed) := by
  refine ⟨_, rfl, ?_⟩
  rw [Ending.setsClosed]
  cases err.isEof with
  | true => exact (Bool.or_true _).symm
  | false =>
    rcases err.netTimeout with _ | _ | _
    · exact (Bool.or_false _).symm
    · exact (Bool.or_true _).symm
    · exact (Bool.or_false _).symm

/-- The place at which the reading ends, which has left the state `w'`. -/
def Ending.At (w' : Endpoint σ) : Ending → Prop
  | .io err => ∃ size w, (checked (fetch size)).run w = .error (.fail err) w'
  | .overflow => True
  | .decrypt err => ∃ body w, (onSec (openFrame S body)).run w = .error (.fail err) w'

/-- A program that starts at the first state ends at the second one with an error, and has
called `SetClosed` as it should where it has failed. -/
def Ended (w w' : Endpoint σ) (err : Err) : Prop :=
  ∃ ending : Ending, ending.err = err ∧ ending.At S fetch w' ∧
    w'.conn.closed = (w.conn.closed || ending.setsClosed)

/-- The program calls `SetClosed` only when it fails, and then according to where it
has failed. -/
structure Classified (x : ConnM σ α) : Prop where
  ok : ∀ {w a w'}, x.run w = .ok a w' → w'.conn.closed = w.conn.closed
  fail : ∀ {w err w'}, x.run w = .error (.fail err) w' → Ended S fetch w w' err

namespace Classified

variable {S fetch}

theorem pure (a : α) : Classified S fetch (Pure.pure a : ConnM σ α) where
  ok hrun := by cases hrun; rfl
  fail := nofun

theorem get : Classified S fetch (MonadState.get : ConnM σ (Endpoint σ)) where
  ok hrun := by cases hrun; rfl
  fail := nofun

theorem overflow : Classified S fetch (failWith errOverflow : ConnM σ α) where
  ok := nofun
  fail hrun := by
    cases hrun
    exact ⟨.overflow, rfl, trivial, (Bool.or_false _).symm⟩

theorem bind {x : ConnM σ α} {f : α → ConnM σ β} (hx : Classified S fetch x)
    (hf : ∀ a, Classified S fetch (f a)) : Classified S fetch (x >>= f) where
  ok hrun := by
    obtain ⟨a, w', hxrun, hfrun⟩ := bind_eq_ok_iff.mp hrun
    rw [(hf a).ok hfrun, hx.ok hxrun]
  fail hrun := by
    rcases bind_eq_error_iff.mp hrun with hxrun | ⟨a, w', hxrun, hfrun⟩
    · exact hx.fail hxrun
    · have hended := (hf a).fail hfrun
      rwa [Ended, hx.ok hxrun] at hended

theorem openFrame (body : Bytes) : Classified S fetch (onSec (openFrame S body)) where
  ok hrun := by
    obtain ⟨sec, _, rfl⟩ := zoom_eq_ok_iff.mp hrun
    rfl
  fail {w err w'} hrun := by
    have hkeeps : Keeps (fun w => w.conn) (onSec (Connection.openFrame S body)) :=
      Keeps.zoom_other fun _ _ => rfl
    refine ⟨.decrypt err, rfl, ⟨body, w, hrun⟩, ?_⟩
    rw [hkeeps.of_error hrun]
    exact (Bool.or_false _).symm

theorem checked {size : Nat} (hx : Keeps (fun w => w.conn.closed) (fetch size)) :
    Classified S fetch (checked (fetch size)) where
  ok hrun := hx.of_ok (checked_eq_ok hrun)
  fail {w err w'} hrun := by
    have hplace := hrun
    cases hxrun : (fetch size).run w with
    | ok a w₁ =>
      rw [checked_ok hxrun] at hrun
      contradiction
    | error stop w₁ =>
      cases stop with
      | blocked =>
        rw [Connection.checked, rescue_blocked hxrun] at hrun
        cases hrun
      | panicked message =>
        rw [Connection.checked, rescue_panicked hxrun] at hrun
        cases hrun
      | fail err₁ =>
        obtain ⟨w₂, hcheck, hclosed⟩ := checkIo_run err₁ w₁
        rw [Connection.checked, rescue_fail hxrun, bind_ok hcheck] at hrun
        cases hrun
        exact ⟨.io err, rfl, ⟨size, w, hplace⟩, by rw [hclosed, hx.of_error hxrun]⟩

end Classified

theorem classified_frameContent (isCmd : Bool) (body : Bytes) :
    Classified S fetch (frameContent S isCmd body) := by
  apply Classified.bind .get
  intro w
  split
  · exact .pure body
  · exact .openFrame body

variable {S fetch} {w w' : Endpoint σ} {msg : Msg}

section Fetching

variable (hfetch : ∀ size, Keeps (fun w => w.conn.closed) (fetch size))

include hfetch

theorem classified_readSizeFrom (flag first : UInt8) :
    Classified S fetch (readSizeFrom fetch flag first) := by
  rw [readSizeFrom]
  split
  · exact .bind (.checked (hfetch 7)) fun rest => .pure _
  · exact .pure _

theorem classified_readRawFrameFrom : Classified S fetch (readRawFrameFrom fetch) := by
  apply Classified.bind (.checked (hfetch 2))
  intro header
  apply Classified.bind (classified_readSizeFrom hfetch _ _)
  intro size
  split
  · exact .overflow
  · exact .bind (.checked (hfetch size)) fun body => .pure _

theorem classified_readFrameFrom (isCmd : Bool) :
    Classified S fetch (readFrameFrom S fetch isCmd) := by
  apply Classified.bind (classified_readRawFrameFrom hfetch)
  rintro ⟨flag, body⟩
  exact .bind (classified_frameContent S fetch _ body) fun frame => .pure _

/-- Every error of `Conn.read` is one of the endings, and the flag of `SetClosed` is
set as the ending says.  The frames before the last one leave the flag. -/
theorem readLoopFrom_ended {rounds : Nat} {isCmd : Bool} {frames : List Bytes} {err : Err}
    (hloop : (readLoopFrom S fetch rounds isCmd frames).run w = .ok msg w')
    (herr : msg.err = some err) : Ended S fetch w w' err := by
  induction rounds generalizing isCmd frames w with
  | zero => cases hloop
  | succ rounds ih =>
    have hframe := classified_readFrameFrom (S := S) hfetch isCmd
    simp only [readLoopFrom, EStateM.run] at hloop
    split at hloop
    · rename_i err₁ w₁ hrun
      obtain ⟨rfl, rfl⟩ : _ ∧ w₁ = w' := by simpa using hloop
      obtain rfl : err₁ = err := by simpa using herr
      exact hframe.fail hrun
    · cases hloop
    · rename_i flag frame w₁ hrun
      split at hloop
      · have hended := ih hloop
        rwa [Ended, hframe.ok hrun] at hended
      · obtain ⟨rfl, rfl⟩ : _ ∧ w₁ = w' := by simpa using hloop
        simp at herr

theorem readFrom_ended {err : Err} (hread : (readFrom S fetch).run w = .ok msg w')
    (herr : msg.err = some err) :
    Ended S fetch w w' err :=
  readLoopFrom_ended hfetch hread herr

end Fetching

theorem keeps_onRw (x : Program Duplex α) :
    Keeps (fun w : Endpoint σ => w.conn.closed) (onRw x) :=
  Keeps.zoom_other fun _ _ => rfl

theorem read_ended {err : Err} (hread : (read S).run w = .ok msg w') (herr : msg.err = some err) :
    Ended S (fun size => onRw (readFull size)) w w' err := by
  rw [← readFrom_readFull] at hread
  exact readFrom_ended (fun size => keeps_onRw (readFull size)) hread herr

end Reading

namespace Socket

/-- When a reader loop that has met an error returns, its connection has been handed to
`scheduleRmConn` once. -/
def HandedOnce (s : Socket) : Action → Prop
  | .loopReturns conn => ∀ ending, (s.link conn).loop = .leaving (some ending) →
      (s.link conn).handed = 1
  | _ => True

/-- Either `SetClosed` has been called, in the loop or before, and the heartbeat has not
handed over the connection, or the heartbeat has done so once and nobody has called
`SetClosed`. -/
def ReportedOnce (s : Socket) : Action → Prop
  | .loopReturns conn => ∀ ending, (s.link conn).loop = .leaving (some ending) →
      (s.link conn).beats =
        if (s.link conn).ioFailed ∨ ending.setsClosed then 0 else 1
  | _ => True

/-- A connection that has been handed over and is not waiting for the reaper is in no
list of the socket. -/
def Reaped (s : Socket) : Prop :=
  ∀ c, 0 < (s.link c).handed → c ∉ s.closedConns → c ∉ s.reaping →
    c ∉ s.conns ∧ c ∉ s.readers ∧ c ∉ s.writers

variable {s : Socket}

theorem handedOnce_iff_reportedOnce (hs : s.Tracked) (action : Action) :
    s.HandedOnce action ↔ s.ReportedOnce action := by
  cases action with
  | loopReturns conn =>
    refine forall_congr' fun ending => imp_congr_right fun hloop => ?_
    have hlink := (hs.placed conn).ok
    have hmarked := hlink.marks (by simp [hloop])
    rw [hlink.counted, hmarked, hloop]
    simp only [Loop.setsClosed, Bool.or_eq_true]
    split <;> omega
  | _ => exact Iff.rfl

theorem reaped_of_tracked (hs : s.Tracked) : s.Reaped := by
  intro c hhanded hclosed hreaping
  have habsent : c ∉ s.conns := by
    intro hc
    rcases (hs.placed c).pending hc hhanded with hmem | hmem
    · exact hclosed hmem
    · exact hreaping hmem
  exact ⟨habsent, fun hc => habsent (hs.readers.subset c hc),
    fun hc => habsent (hs.writers.subset c hc)⟩

theorem mem_conns_of_rmConn (hs : s.conns.Nodup) {conn c : Nat}
    (hc : c ∈ (s.rmConn conn).conns) : c ∈ s.conns ∧ c ≠ conn := by
  rw [rmConn] at hc
  split at hc
  · exact (hs.mem_erase_iff.mp hc).symm
  · rename_i hnot
    refine ⟨hc, ?_⟩
    rintro rfl
    exact hnot hc

theorem rmConn_reaping (conn : Nat) : (s.rmConn conn).reaping = s.reaping := by
  rw [rmConn]
  split <;> rfl

theorem run_rmConn (hs : s.Tracked) :
    ∃ s', run step s (List.replicate s.reaping.length .rmConn) = some s' ∧ s'.Tracked ∧
      ∀ c ∈ s'.conns, c ∈ s.conns ∧ c ∉ s.reaping := by
  induction hreaping : s.reaping generalizing s with
  | nil => exact ⟨s, rfl, hs, fun c hc => ⟨hc, List.not_mem_nil⟩⟩
  | cons conn rest ih =>
    have hrest := (rmConn_reaping (s := { s with reaping := rest }) conn)
    obtain ⟨s', hrun, hs', hconns⟩ := ih (hs.rmConn hreaping) hrest
    refine ⟨s', ?_, hs', fun c hc => ?_⟩
    · exact run_cons_eq_some_iff.mpr ⟨_, (by rw [step, hreaping]), hrun⟩
    · obtain ⟨hmem, hnot⟩ := hconns c hc
      obtain ⟨hconn, hne⟩ := mem_conns_of_rmConn (s := { s with reaping := rest }) hs.nodup hmem
      exact ⟨hconn, by simp [hne, hnot]⟩

theorem run_reap (hs : s.Tracked) (hstarted : s.reaperStarted = true)
    (hcancelled : s.cancelled = false) (hclosed : s.closedConns ≠ []) (hidle : s.reaping = []) :
    ∃ s', run step s (.reap :: List.replicate s.closedConns.length .rmConn) = some s' ∧
      ∀ c ∈ s.closedConns, c ∉ s'.conns ∧ c ∉ s'.readers ∧ c ∉ s'.writers := by
  have hreap : s.step .reap = some { s with reaping := s.closedConns, closedConns := [] } :=
    if_pos ⟨hstarted, hcancelled, hclosed, hidle⟩
  obtain ⟨s', hrun, hs', hconns⟩ := run_rmConn (tracked_step hs hreap)
  refine ⟨s', run_cons_eq_some_iff.mpr ⟨_, hreap, hrun⟩, fun c hc => ?_⟩
  have habsent : c ∉ s'.conns := fun hmem => (hconns c hmem).2 hc
  exact ⟨habsent, fun hmem => habsent (hs'.readers.subset c hmem),
    fun hmem => habsent (hs'.writers.subset c hmem)⟩

/-- For every socket type and every interleaving: the connection of a reader loop that
returns after an error has been handed over once, if and only if it was reported once,
where `Conn.read` reports what its ending says.  What has been handed over is in no list
once the reaper has been at it. -/
theorem handedOnce_iff (typ : SocketType) (autoReconnect : Bool) (actions : List Action) :
    (Throughout step HandedOnce { typ, autoReconnect } actions ↔
        Throughout step ReportedOnce { typ, autoReconnect } actions) ∧
      (∀ s, run step { typ, autoReconnect } actions = some s →
        s.Reaped ∧ (s.reaperStarted = true → s.cancelled = false → s.closedConns ≠ [] →
          s.reaping = [] →
          ∃ s', run step s (.reap :: List.replicate s.closedConns.length .rmConn) = some s' ∧
            ∀ c ∈ s.closedConns, c ∉ s'.conns ∧ c ∉ s'.readers ∧ c ∉ s'.writers)) ∧
      ∀ {σ : Type} (S : Security σ) (last : Err) (w w' : Endpoint σ) (msg : Msg) (err : Err),
        (readFrom S fun size => onRw (readUntil last size)).run w = .ok msg w' →
          msg.err = some err → Ended S (fun size => onRw (readUntil last size)) w w' err := by
  have hkept : ∀ s action s', Tracked s → step s action = some s' → Tracked s' :=
    fun _ _ _ hs hstep => tracked_step hs hstep
  have hnew := tracked_new typ autoReconnect
  refine ⟨?_, ?_, ?_⟩
  · have htracked : Throughout step (fun s _ => s.Tracked) { typ, autoReconnect } actions :=
      throughout_of_invariant (I := Tracked) hkept (fun _ _ hs => hs) hnew actions
    exact throughout_congr (fun s action hs => handedOnce_iff_reportedOnce hs action) htracked
  · intro s hrun
    have hs : s.Tracked := run_keeps hkept hnew hrun
    exact ⟨reaped_of_tracked hs, run_reap hs⟩
  · intro σ S last w w' msg err hread herr
    exact readFrom_ended (fun size => keeps_onRw (readUntil last size)) hread herr

/-- The stream ends after two of the five bytes of a body, and the connection stays in
all lists.  A connection that the heartbeat has given up is handed over by its reader
loop as well, which finds the connection closed. -/
theorem reader_ending_miscounted :
    (∃ msg w', (readFrom nullSecurity fun size => onRw (readUntil .eof size)).run
          (Endpoint.withInput ⟨(), Conn.fresh .empty⟩ [0, 5, 1, 2]) = .ok msg w' ∧
      msg.err = some .unexpectedEof ∧ w'.conn.closed = false) ∧
    (∃ s, run step { typ := .dealer, autoReconnect := false }
        [.dial, .work 0 .connect, .work 0 .opens, .work 0 .addConn,
          .readFails 0 (.io .unexpectedEof), .loopReturns 0] = some s ∧
      (s.link 0).loop = .returned ∧ (s.link 0).handed = 0 ∧ s.closedConns = [] ∧
      s.conns = [0] ∧ s.writers = [0]) ∧
    ∃ s, run step { typ := .dealer, autoReconnect := false }
        [.dial, .work 0 .connect, .work 0 .opens, .work 0 .addConn, .heartbeatFinds 0,
          .heartbeatTimeout, .readFails 0 (.io (.net false)), .loopReturns 0] = some s ∧
      (s.link 0).loop = .returned ∧ (s.link 0).handed = 2 := by
  exact ⟨⟨_, _, rfl, rfl, rfl⟩, ⟨_, rfl, rfl, rfl, rfl, rfl, rfl⟩, ⟨_, rfl, rfl, rfl⟩⟩

end Socket

end Zmq4.SocketConnections
