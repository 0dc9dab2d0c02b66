import Zmq4.ActionRuns
import Zmq4.DuplexProgram

namespace Zmq4.InprocPipe

open ActionRuns ByteCodec DuplexProgram

/-- One direction of a pipe: the chunks on the channel, which ends have been
closed, and which deadlines have passed. -/
structure Half where
  chunks : List Bytes
  writerDone : Bool
  readerDone : Bool
  wdeadline : Bool
  rdeadline : Bool

def Half.opened (chunks : List Bytes) : Half where
  chunks := chunks
  writerDone := false
  readerDone := false
  wdeadline := false
  rdeadline := false

def capacity : Nat := 8

def errClosedPipe : Err := .text "io: read/write on closed pipe"
def errShortBuffer : Err := .text "short buffer"
def timeoutError : Err := .net true

/-- A `net.OpError` is a network error, and a timeout if the inner one is. -/
def opError (err : Err) : Err :=
  .net (err = timeoutError)

/-- The channel holds the caller's slice itself, which the caller must leave unchanged until
it has been read. -/
def rawWrite (data : Bytes) : Program Half (Nat × Option Err) := do
  let s ← get
  if s.writerDone then pure (0, some errClosedPipe)
  else if s.readerDone then pure (0, some errClosedPipe)
  else if s.wdeadline then pure (0, some timeoutError)
  else if s.chunks.length < capacity then do
    set { s with chunks := s.chunks ++ [data] }
    pure (data.length, none)
  else throw .blocked

def write (data : Bytes) : Program Half (Nat × Option Err) := do
  let (n, err) ← rawWrite data
  pure (n, err.map fun err => if err = errClosedPipe then err else opError err)

def rawRead (size : Nat) : Program Half (Bytes × Option Err) := do
  let s ← get
  if s.readerDone then pure ([], some errClosedPipe)
  else if s.writerDone then pure ([], some .eof)
  else if s.rdeadline then pure ([], some timeoutError)
  else
    match s.chunks with
    | [] => throw .blocked
    | chunk :: rest => do
        set { s with chunks := rest }
        pure (chunk.take size, if size < chunk.length then some errShortBuffer else none)

def read (size : Nat) : Program Half (Bytes × Option Err) := do
  let (data, err) ← rawRead size
  pure (data, err.map fun err => if err = .eof ∨ err = errClosedPipe then err else opError err)

theorem write_run (data : Bytes) (s : Half) :
    (write data).run s =
      if s.writerDone then .ok (0, some errClosedPipe) s
      else if s.readerDone then .ok (0, some errClosedPipe) s
      else if s.wdeadline then .ok (0, some (opError timeoutError)) s
      else if s.chunks.length < capacity then
        .ok (data.length, none) { s with chunks := s.chunks ++ [data] }
      else .error .blocked s := by
  rcases s with ⟨chunks, writerDone, readerDone, wdeadline, rdeadline⟩
  rcases writerDone with _ | _
  · rcases readerDone with _ | _
    · rcases wdeadline with _ | _
      · rw [write, EStateM.run_bind, rawWrite, bind_ok (EStateM.run_get _)]
        by_cases hroom : chunks.length < capacity
        · simp only [Bool.false_eq_true, if_false, hroom, if_true]
          rfl
        · simp only [Bool.false_eq_true, if_false, hroom]
          rfl
      · rfl
    · rfl
  · rfl

inductive Call (α : Type) where
  | write (data : α)
  | read (size : Nat)

def Call.shape : Call Bytes → Call Nat
  | .write data => .write data.length
  | .read size => .read size

structure Transfer where
  half : Half
  written : Bytes
  returned : Bytes

def Transfer.start : Transfer where
  half := Half.opened []
  written := []
  returned := []

def step (t : Transfer) : Call Bytes → Option Transfer
  | .write data =>
    match (write data).run t.half with
    | .ok (n, _) half => some { t with half := half, written := t.written ++ data.take n }
    | .error _ _ => none
  | .read size =>
    match (read size).run t.half with
    | .ok (data, _) half => some { t with half := half, returned := t.returned ++ data }
    | .error _ _ => none

/-- With calls of these lengths, in this order, `Read` has at each moment
returned the first of the bytes that were written. -/
def IsStream (schedule : List (Call Nat)) : Prop :=
  ∀ (calls : List (Call Bytes)) (t : Transfer), calls.map Call.shape <+: schedule →
    run step Transfer.start calls = some t → t.returned <+: t.written

/-- No `Read` returns a byte after one whose buffer was smaller than its chunk.
The list has the lengths of the chunks on the channel.  A call that blocks is
the last one. -/
def aligned : List Nat → Bool → List (Call Nat) → Bool
  | _, _, [] => true
  | queue, lost, .write n :: rest =>
    if queue.length < capacity then aligned (queue ++ [n]) lost rest else true
  | [], _, .read _ :: _ => true
  | n :: queue, lost, .read size :: rest =>
    if lost = true ∧ 0 < min size n then false
    else aligned queue (lost || decide (size < n)) rest

section Steps

variable (chunks : List Bytes) (written returned : Bytes)

theorem step_write {data : Bytes} (hroom : chunks.length < capacity) :
    step ⟨Half.opened chunks, written, returned⟩ (.write data) =
      some ⟨Half.opened (chunks ++ [data]), written ++ data, returned⟩ := by
  simp [step, write_run, Half.opened, hroom]

theorem step_write_full {data : Bytes} (hfull : ¬ chunks.length < capacity) :
    step ⟨Half.opened chunks, written, returned⟩ (.write data) = none := by
  simp [step, write_run, Half.opened, hfull]

theorem step_read (size : Nat) (chunk : Bytes) :
    step ⟨Half.opened (chunk :: chunks), written, returned⟩ (.read size) =
      some ⟨Half.opened chunks, written, returned ++ chunk.take size⟩ :=
  rfl

end Steps

variable {schedule : List (Call Nat)}

section Sound

/-- As long as no byte is lost, what was written and not returned is on the
channel. -/
structure Kept (chunks : List Bytes) (written returned : Bytes) (lost : Bool) : Prop where
  queued : lost = false → written = returned ++ chunks.flatten
  front : returned <+: written

variable {chunks : List Bytes} {written returned : Bytes} {lost : Bool}

theorem Kept.write (hkept : Kept chunks written returned lost) (data : Bytes) :
    Kept (chunks ++ [data]) (written ++ data) returned lost where
  queued hlost := by
    rw [hkept.queued hlost]
    simp
  front := hkept.front.trans (List.prefix_append _ _)

theorem Kept.read {chunk : Bytes} {size : Nat}
    (hkept : Kept (chunk :: chunks) written returned lost)
    (hsafe : ¬ (lost = true ∧ 0 < min size chunk.length)) :
    Kept chunks written (returned ++ chunk.take size) (lost || decide (size < chunk.length)) := by
  constructor
  · intro hlost
    rcases Bool.or_eq_false_iff.mp hlost with ⟨hlost, hsize⟩
    rw [hkept.queued hlost, List.take_of_length_le (by simpa using hsize)]
    simp
  · rcases lost with _ | _
    · rw [hkept.queued rfl, List.flatten_cons, List.prefix_append_right_inj]
      exact (List.take_prefix size chunk).trans (List.prefix_append _ _)
    · have hnone : chunk.take size = [] := by
        rw [← List.length_eq_zero_iff, List.length_take]
        by_contra hpos
        exact hsafe ⟨rfl, Nat.pos_of_ne_zero hpos⟩
      rw [hnone, List.append_nil]
      exact hkept.front

theorem returned_prefix_of_aligned {calls : List (Call Bytes)} {t : Transfer}
    (haligned : aligned (chunks.map List.length) lost schedule = true)
    (hcalls : calls.map Call.shape <+: schedule) (hkept : Kept chunks written returned lost)
    (hrun : run step ⟨Half.opened chunks, written, returned⟩ calls = some t) :
    t.returned <+: t.written := by
  induction calls generalizing schedule chunks written returned lost with
  | nil =>
    obtain rfl := Option.some_inj.mp hrun
    exact hkept.front
  | cons call calls ih =>
    rcases run_cons_eq_some_iff.mp hrun with ⟨t', hstep, hrest⟩
    rcases schedule with _ | ⟨shape, schedule⟩
    · cases List.prefix_nil.mp hcalls
    rcases List.cons_prefix_cons.mp hcalls with ⟨rfl, hrestShape⟩
    cases call with
    | write data =>
      by_cases hroom : chunks.length < capacity
      · rw [step_write chunks written returned hroom] at hstep
        obtain rfl := Option.some_inj.mp hstep
        have hlengths : (chunks.map List.length).length < capacity := by simpa using hroom
        rw [Call.shape, aligned, if_pos hlengths] at haligned
        have hlater : aligned ((chunks ++ [data]).map List.length) lost schedule = true := by
          simpa using haligned
        exact ih hlater hrestShape (hkept.write data) hrest
      · rw [step_write_full chunks written returned hroom] at hstep
        cases hstep
    | read size =>
      rcases chunks with _ | ⟨chunk, chunks⟩
      · cases hstep
      rw [step_read] at hstep
      obtain rfl := Option.some_inj.mp hstep
      rw [Call.shape, List.map_cons, aligned] at haligned
      split at haligned
      · cases haligned
      · rename_i hsafe
        exact ih haligned hrestShape (hkept.read hsafe) hrest

end Sound

section Exact

/-- Some run of these calls returns a byte that is not the next one. -/
def Tears (t : Transfer) (schedule : List (Call Nat)) : Prop :=
  ∃ (calls : List (Call Bytes)) (t' : Transfer), calls.map Call.shape <+: schedule ∧
    run step t calls = some t' ∧ ¬ t'.returned <+: t'.written

variable {schedule : List (Call Nat)}

theorem tears_cons {t t' : Transfer} {call : Call Bytes} (hstep : step t call = some t')
    (htears : Tears t' schedule) : Tears t (call.shape :: schedule) := by
  obtain ⟨calls, t'', hcalls, hrun, htorn⟩ := htears
  exact ⟨call :: calls, t'', List.cons_prefix_cons.mpr ⟨rfl, hcalls⟩,
    run_cons_eq_some_iff.mpr ⟨t', hstep, hrun⟩, htorn⟩

def zeros (queue : List Nat) : List Bytes :=
  queue.map fun n => List.replicate n 0

variable {queue : List Nat}

theorem tears_of_lost (before after : Bytes) (haligned : aligned queue true schedule = false) :
    Tears ⟨Half.opened (zeros queue), before ++ 1 :: after, before⟩ schedule := by
  induction schedule generalizing queue after with
  | nil => simp [aligned] at haligned
  | cons call schedule ih =>
    cases call with
    | write n =>
      rw [aligned] at haligned
      split at haligned
      · rename_i hroom
        have hchunks : (zeros queue).length < capacity := by simpa [zeros] using hroom
        have hlater := ih (after ++ List.replicate n 0) haligned
        rw [zeros, List.map_append] at hlater
        have hstep : step _ (.write (List.replicate n 0)) = _ :=
          step_write (zeros queue) (before ++ 1 :: after) before hchunks
        rw [List.append_assoc, List.cons_append] at hstep
        have htears := tears_cons hstep hlater
        simpa [Call.shape] using htears
      · cases haligned
    | read size =>
      rcases queue with _ | ⟨n, queue⟩
      · simp [aligned] at haligned
      have hstep := step_read (zeros queue) (before ++ 1 :: after) before size
        (List.replicate n 0)
      rw [aligned] at haligned
      split at haligned
      · rename_i hsome
        refine ⟨[.read size], _, List.cons_prefix_cons.mpr ⟨rfl, List.nil_prefix⟩,
          run_cons_eq_some_iff.mpr ⟨_, hstep, rfl⟩, ?_⟩
        obtain ⟨k, hk⟩ : ∃ k, min size n = k + 1 := ⟨min size n - 1, by omega⟩
        rw [List.take_replicate, hk, List.replicate_succ, List.prefix_append_right_inj,
          List.cons_prefix_cons]
        exact fun hsame => absurd hsame.1 (by decide)
      · rename_i hnone
        have hzero : min size n = 0 := by
          by_contra hpos
          exact hnone ⟨rfl, Nat.pos_of_ne_zero hpos⟩
        rw [List.take_replicate, hzero, List.replicate_zero, List.append_nil] at hstep
        rw [Bool.true_or] at haligned
        exact tears_cons hstep (ih after haligned)

theorem exists_tears_of_short {size n : Nat} (hsize : size < n)
    (haligned : aligned queue true schedule = false) :
    ∃ chunks : List Bytes, chunks.map List.length = n :: queue ∧
      ∀ returned, Tears ⟨Half.opened chunks, returned ++ chunks.flatten, returned⟩
        (.read size :: schedule) := by
  obtain ⟨k, rfl⟩ : ∃ k, n = size + (k + 1) := ⟨n - size - 1, by omega⟩
  let kept : Bytes := List.replicate size 0
  let lost : Bytes := 1 :: List.replicate k 0
  have hlengths : ((kept ++ lost) :: zeros queue).map List.length = (size + (k + 1)) :: queue := by
    simp [kept, lost, zeros, Function.comp_def]
  refine ⟨(kept ++ lost) :: zeros queue, hlengths, fun returned => ?_⟩
  have hstep := step_read (zeros queue)
    (returned ++ ((kept ++ lost) :: zeros queue).flatten) returned size (kept ++ lost)
  have hlater := tears_of_lost (returned ++ kept)
    (List.replicate k 0 ++ (zeros queue).flatten) haligned
  have htake : (kept ++ lost).take size = kept :=
    List.take_left' (by simp [kept])
  rw [htake] at hstep
  refine tears_cons hstep ?_
  simpa [lost] using hlater

/-- Before the first byte is lost, the contents of the chunks can be chosen so
that its loss shows. -/
theorem exists_tears (haligned : aligned queue false schedule = false) :
    ∃ chunks : List Bytes, chunks.map List.length = queue ∧
      ∀ returned, Tears ⟨Half.opened chunks, returned ++ chunks.flatten, returned⟩ schedule := by
  induction schedule generalizing queue with
  | nil => simp [aligned] at haligned
  | cons call schedule ih =>
    cases call with
    | write n =>
      rw [aligned] at haligned
      split at haligned
      · rename_i hroom
        rcases ih haligned with ⟨chunks, hchunks, htears⟩
        obtain ⟨first, second, rfl, hfirst, hsecond⟩ := List.map_eq_append_iff.mp hchunks
        obtain ⟨data, rfl, hdata⟩ := List.map_eq_singleton_iff.mp hsecond
        refine ⟨first, hfirst, fun returned => ?_⟩
        have hlength : first.length < capacity := by
          rw [← hfirst, List.length_map] at hroom
          exact hroom
        have hstep : step _ (.write data) = _ :=
          step_write first (returned ++ first.flatten) returned hlength
        have hlater := htears returned
        rw [List.flatten_concat, ← List.append_assoc] at hlater
        have htorn := tears_cons hstep hlater
        rwa [Call.shape, hdata] at htorn
      · cases haligned
    | read size =>
      rcases queue with _ | ⟨n, queue⟩
      · simp [aligned] at haligned
      rw [aligned, if_neg (by simp), Bool.false_or] at haligned
      by_cases hsize : size < n
      · rw [decide_eq_true hsize] at haligned
        exact exists_tears_of_short hsize haligned
      · rw [decide_eq_false hsize] at haligned
        rcases ih haligned with ⟨chunks, hchunks, htears⟩
        let chunk : Bytes := List.replicate n 0
        refine ⟨chunk :: chunks, by simp [chunk, hchunks], fun returned => ?_⟩
        have hstep := step_read chunks (returned ++ (chunk :: chunks).flatten) returned size
          chunk
        rw [List.take_of_length_le (by simpa [chunk] using hsize)] at hstep
        refine tears_cons hstep ?_
        have hlater := htears (returned ++ chunk)
        simpa using hlater

end Exact

theorem isStream_of_aligned (haligned : aligned [] false schedule = true) : IsStream schedule := by
  intro calls t hcalls hrun
  have hempty : aligned (([] : List Bytes).map List.length) false schedule = true := haligned
  exact returned_prefix_of_aligned hempty hcalls ⟨fun _ => rfl, List.nil_prefix⟩ hrun

theorem not_isStream_of_not_aligned (haligned : aligned [] false schedule = false) :
    ¬ IsStream schedule := by
  intro hstream
  obtain ⟨chunks, hchunks, htears⟩ := exists_tears haligned
  obtain rfl := List.map_eq_nil_iff.mp hchunks
  obtain ⟨calls, t, hcalls, hrun, htorn⟩ := htears []
  exact htorn (hstream calls t hcalls hrun)

/-- The pipe is a byte stream exactly for the sequences of calls in which no
byte is returned after one that was dropped. -/
theorem isStream_iff_aligned (schedule : List (Call Nat)) :
    IsStream schedule ↔ aligned [] false schedule = true := by
  constructor
  · intro hstream
    by_contra hlost
    exact not_isStream_of_not_aligned (Bool.eq_false_iff.mpr hlost) hstream
  · exact isStream_of_aligned

/-- The writes and reads of a frame with a body of 256 bytes: the header of nine
bytes is read as two and seven. -/
theorem long_frame_torn :
    ¬ IsStream [.write 9, .write 256, .read 2, .read 7] :=
  not_isStream_of_not_aligned (by decide)

end Zmq4.InprocPipe
