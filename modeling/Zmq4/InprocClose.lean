import Mathlib.Data.List.Nodup
import Zmq4.InprocPipe

namespace Zmq4.InprocClose

open ActionRuns ByteCodec DuplexProgram InprocPipe

inductive Side
  | p1
  | p2
  deriving DecidableEq

def Side.other : Side → Side
  | .p1 => .p2
  | .p2 => .p1

@[simp]
theorem Side.other_other (side : Side) : side.other.other = side := by
  cases side <;> rfl

inductive WritePhase
  | localDone
  | remoteDone
  | deadline
  | select
  | sent
  | returned (n : Nat) (err : Option Err)
  deriving DecidableEq

inductive ReadPhase
  | localDone
  | remoteDone
  | deadline
  | select
  | returned (data : Bytes) (err : Option Err)
  deriving DecidableEq

structure WriteCall where
  side : Side
  data : Bytes
  phase : WritePhase

structure ReadCall where
  side : Side
  size : Nat
  phase : ReadPhase

inductive Ready
  | channel
  | localDone
  | remoteDone
  | timeout
  deriving DecidableEq

/-- Chunks are kept with the number of the `Write` they are from.  `acked` has the
writes of an end that returned success before it was closed, and `taken` the chunks
that an end has read. -/
structure Pipe where
  chan : Side → List (Nat × Bytes) := fun _ => []
  done : Side → Bool := fun _ => false
  wdeadline : Side → Bool := fun _ => false
  rdeadline : Side → Bool := fun _ => false
  writes : List WriteCall := []
  reads : List ReadCall := []
  acked : Side → List Nat := fun _ => []
  taken : Side → List (Nat × Bytes) := fun _ => []

inductive Action
  | write (side : Side) (data : Bytes)
  | writeStep (id : Nat) (ready : Ready)
  | read (side : Side) (size : Nat)
  | readStep (id : Nat) (ready : Ready)
  | close (side : Side)
  /-- A deadline passes or is set again. -/
  | setDeadline (side : Side) (wpassed rpassed : Bool)

namespace Pipe

def writePhase (p : Pipe) (call : WriteCall) (ready : Ready) : Option WritePhase :=
  match call.phase with
  | .localDone =>
    some (if p.done call.side then .returned 0 (some errClosedPipe) else .remoteDone)
  | .remoteDone =>
    some (if p.done call.side.other then .returned 0 (some errClosedPipe) else .deadline)
  | .deadline =>
    some (if p.wdeadline call.side then .returned 0 (some (opError timeoutError)) else .select)
  | .select =>
    match ready with
    | .channel => if (p.chan call.side.other).length < capacity then some .sent else none
    | .localDone =>
      if p.done call.side then some (.returned 0 (some errClosedPipe)) else none
    | .remoteDone =>
      if p.done call.side.other then some (.returned 0 (some errClosedPipe)) else none
    | .timeout =>
      if p.wdeadline call.side then some (.returned 0 (some (opError timeoutError))) else none
  | .sent => some (.returned call.data.length none)
  | .returned _ _ => none

def readPhase (p : Pipe) (call : ReadCall) (ready : Ready) : Option ReadPhase :=
  match call.phase with
  | .localDone =>
    some (if p.done call.side then .returned [] (some errClosedPipe) else .remoteDone)
  | .remoteDone =>
    some (if p.done call.side.other then .returned [] (some .eof) else .deadline)
  | .deadline =>
    some (if p.rdeadline call.side then .returned [] (some (opError timeoutError)) else .select)
  | .select =>
    match ready with
    | .channel =>
      (p.chan call.side).head?.map fun chunk =>
        .returned (chunk.2.take call.size)
          (if call.size < chunk.2.length then some (opError errShortBuffer) else none)
    | .timeout =>
      if p.rdeadline call.side then some (.returned [] (some (opError timeoutError))) else none
    | .localDone | .remoteDone => none
  | .returned _ _ => none

def moveWrite (p : Pipe) (id : Nat) (call : WriteCall) (phase : WritePhase) : Pipe :=
  { p with
    writes := p.writes.set id { call with phase := phase }
    chan :=
      if phase = .sent then
        Function.update p.chan call.side.other (p.chan call.side.other ++ [(id, call.data)])
      else p.chan
    acked :=
      if call.phase = .sent ∧ p.done call.side = false then
        Function.update p.acked call.side (id :: p.acked call.side)
      else p.acked }

def moveRead (p : Pipe) (id : Nat) (call : ReadCall) (ready : Ready) (phase : ReadPhase) : Pipe :=
  if call.phase = .select ∧ ready = .channel then
    { p with
      reads := p.reads.set id { call with phase := phase }
      chan := Function.update p.chan call.side (p.chan call.side).tail
      taken := Function.update p.taken call.side
        (p.taken call.side ++ (p.chan call.side).head?.toList) }
  else { p with reads := p.reads.set id { call with phase := phase } }

def step (p : Pipe) : Action → Option Pipe
  | .write side data => some { p with writes := p.writes ++ [⟨side, data, .localDone⟩] }
  | .writeStep id ready =>
    p.writes[id]?.bind fun call => (p.writePhase call ready).map (p.moveWrite id call)
  | .read side size => some { p with reads := p.reads ++ [⟨side, size, .localDone⟩] }
  | .readStep id ready =>
    p.reads[id]?.bind fun call => (p.readPhase call ready).map (p.moveRead id call ready)
  | .close side => some { p with done := Function.update p.done side true }
  | .setDeadline side wpassed rpassed =>
    some { p with
      wdeadline := Function.update p.wdeadline side wpassed
      rdeadline := Function.update p.rdeadline side rpassed }

/-- The `Read` returns `io.EOF` in this step, at an end that is open and whose
deadline has not passed. -/
def Ends (p : Pipe) (id : Nat) (ready : Ready) (side : Side) : Prop :=
  ∃ call, p.reads[id]? = some call ∧ call.side = side ∧
    p.readPhase call ready = some (.returned [] (some .eof)) ∧
    p.done side = false ∧ p.rdeadline side = false

/-- A `Read` returns `io.EOF` only when all chunks have been read whose `Write` returned
success before the other end was closed. -/
def Delivers (p : Pipe) : Action → Prop
  | .readStep id ready =>
    ∀ side, p.Ends id ready side →
      ∀ write ∈ p.acked side.other, write ∈ (p.taken side).map Prod.fst
  | .write _ _ | .writeStep _ _ | .read _ _ | .close _ | .setDeadline _ _ _ => True

/-- A `Read` that finds the other end closed finds no such chunk on the channel. -/
def Drained (p : Pipe) : Action → Prop
  | .readStep id _ =>
    ∀ call, p.reads[id]? = some call → call.phase = .remoteDone →
      p.done call.side.other = true → p.done call.side = false →
      p.rdeadline call.side = false →
      ∀ chunk ∈ p.chan call.side, chunk.1 ∉ p.acked call.side.other
  | .write _ _ | .writeStep _ _ | .read _ _ | .close _ | .setDeadline _ _ _ => True

/-- An end is closed only when all its chunks have been read. -/
def Flushed (p : Pipe) : Action → Prop
  | .close side => ∀ chunk ∈ p.chan side.other, chunk.1 ∉ p.acked side
  | .write _ _ | .writeStep _ _ | .read _ _ | .readStep _ _ | .setDeadline _ _ _ => True

end Pipe

def WritePhase.isSent : WritePhase → Bool
  | .sent => true
  | .returned _ none => true
  | .returned _ (some _) | .localDone | .remoteDone | .deadline | .select => false

namespace Pipe

variable {call : WriteCall} {phase : WritePhase}

section Phases

variable {p : Pipe} {ready : Ready}

theorem writePhase_eq_some (hphase : p.writePhase call ready = some phase) :
    (phase = .sent → call.phase = .select) ∧
      (phase ≠ .sent → phase.isSent = call.phase.isSent) := by
  rcases call with ⟨side, data, before⟩
  cases before with
  | localDone | remoteDone | deadline =>
    obtain rfl := Option.some_inj.mp hphase
    split <;> exact ⟨nofun, fun _ => rfl⟩
  | select =>
    cases ready with
    | channel =>
      obtain ⟨-, ⟨⟩⟩ := Option.ite_none_right_eq_some.mp hphase
      exact ⟨fun _ => rfl, fun hne => absurd rfl hne⟩
    | localDone | remoteDone | timeout =>
      obtain ⟨-, ⟨⟩⟩ := Option.ite_none_right_eq_some.mp hphase
      exact ⟨nofun, fun _ => rfl⟩
  | sent =>
    cases hphase
    exact ⟨nofun, fun _ => rfl⟩
  | returned n err => cases hphase

theorem readPhase_eq_eof_iff {call : ReadCall} :
    p.readPhase call ready = some (.returned [] (some .eof)) ↔
      call.phase = .remoteDone ∧ p.done call.side.other = true := by
  rcases call with ⟨side, size, before⟩
  cases before with
  | remoteDone =>
    simp only [readPhase, true_and]
    split
    · next hdone => exact iff_of_true rfl hdone
    · next hopen => exact iff_of_false nofun hopen
  | localDone | deadline =>
    refine iff_of_false ?_ nofun
    simp only [readPhase]
    split <;> simp [errClosedPipe, opError]
  | select =>
    refine iff_of_false ?_ nofun
    cases ready with
    | channel =>
      intro heof
      obtain ⟨chunk, -, hreturned⟩ := Option.map_eq_some_iff.mp heof
      obtain ⟨-, herr⟩ := ReadPhase.returned.inj hreturned
      split at herr <;> cases herr
    | timeout =>
        simp only [readPhase]
        split <;> simp [opError]
    | localDone | remoteDone => exact nofun
  | returned data err => exact iff_of_false nofun nofun

end Phases

def arrived (p : Pipe) (side : Side) : List Nat :=
  (p.taken side ++ p.chan side).map Prod.fst

def SentFrom (writes : List WriteCall) (side : Side) (write : Nat) : Prop :=
  ∃ call, writes[write]? = some call ∧ call.side = side ∧ call.phase.isSent = true

/-- Each chunk comes from one `Write`, and none gets lost between being sent and being
read. -/
structure Conserved (p : Pipe) : Prop where
  nodup : ∀ side, (p.arrived side).Nodup
  sent : ∀ side write, write ∈ p.arrived side ↔ SentFrom p.writes side.other write
  acked : ∀ side, ∀ write ∈ p.acked side, write ∈ p.arrived side.other

section Conservation

variable {p p' : Pipe} {id : Nat} {ready : Ready} {action : Action}

variable {call : WriteCall} {writes : List WriteCall}

theorem sentFrom_concat (hcall : call.phase.isSent = false) (side : Side) (write : Nat) :
    SentFrom (writes ++ [call]) side write ↔ SentFrom writes side write := by
  constructor
  · rintro ⟨found, hfound, hside, hsent⟩
    rcases Nat.lt_or_ge write writes.length with hlt | hge
    · rw [List.getElem?_append_left hlt] at hfound
      exact ⟨found, hfound, hside, hsent⟩
    · rw [List.getElem?_append_right hge] at hfound
      obtain rfl := List.mem_singleton.mp (List.mem_of_getElem? hfound)
      rw [hcall] at hsent
      cases hsent
  · rintro ⟨found, hfound, hrest⟩
    refine ⟨found, ?_, hrest⟩
    rw [List.getElem?_append_left (List.getElem?_eq_some_iff.mp hfound).1, hfound]

theorem sentFrom_set (hcall : writes[id]? = some call) (phase : WritePhase) (side : Side)
    (write : Nat) :
    SentFrom (writes.set id { call with phase := phase }) side write ↔
      if write = id then call.side = side ∧ phase.isSent = true
      else SentFrom writes side write := by
  have hlt : id < writes.length := (List.getElem?_eq_some_iff.mp hcall).1
  rw [SentFrom]
  split
  · next heq =>
      subst heq
      rw [List.getElem?_set_self hlt]
      constructor
      · rintro ⟨found, hfound, hrest⟩
        cases hfound
        exact hrest
      · intro hrest
        exact ⟨_, rfl, hrest⟩
  · next hne =>
      rw [List.getElem?_set_ne (Ne.symm hne)]
      exact Iff.rfl

theorem Conserved.of_same (hp : p.Conserved) (harrived : p'.arrived = p.arrived)
    (hsent : ∀ side write, SentFrom p'.writes side write ↔ SentFrom p.writes side write)
    (hacked : ∀ side, ∀ write ∈ p'.acked side, write ∈ p.arrived side.other) : p'.Conserved where
  nodup side := by
    rw [harrived]
    exact hp.nodup side
  sent side write := by
    rw [harrived, hsent]
    exact hp.sent side write
  acked side write hwrite := by
    rw [harrived]
    exact hacked side write hwrite

theorem moveRead_same (p : Pipe) (id : Nat) (call : ReadCall) (ready : Ready) (phase : ReadPhase) :
    (p.moveRead id call ready phase).arrived = p.arrived ∧
      (p.moveRead id call ready phase).writes = p.writes ∧
      (p.moveRead id call ready phase).acked = p.acked ∧
      (p.moveRead id call ready phase).done = p.done ∧
      ∀ side, (p.moveRead id call ready phase).chan side <:+ p.chan side := by
  unfold moveRead
  split
  · refine ⟨?_, rfl, rfl, rfl, ?_⟩
    · funext side
      simp only [arrived]
      rcases eq_or_ne side call.side with rfl | hne
      · rw [Function.update_self, Function.update_self, List.append_assoc]
        cases p.chan call.side <;> rfl
      · rw [Function.update_of_ne hne, Function.update_of_ne hne]
    · intro side
      dsimp only
      rcases eq_or_ne side call.side with rfl | hne
      · rw [Function.update_self]
        exact List.tail_suffix _
      · simp only [Function.update_of_ne hne]
        exact List.suffix_rfl
  · exact ⟨rfl, rfl, rfl, rfl, fun side => List.suffix_rfl⟩

theorem not_arrived (hp : p.Conserved) (hcall : p.writes[id]? = some call)
    (hsent : call.phase.isSent = false) (side : Side) : id ∉ p.arrived side := by
  intro hmem
  obtain ⟨found, hfound, -, hfoundSent⟩ := (hp.sent side id).mp hmem
  obtain rfl := Option.some_inj.mp (hcall.symm.trans hfound)
  rw [hsent] at hfoundSent
  cases hfoundSent

theorem arrived_sent (call : WriteCall) :
    (p.moveWrite id call .sent).arrived =
      Function.update p.arrived call.side.other (p.arrived call.side.other ++ [id]) := by
  funext side
  simp only [arrived, moveWrite]
  rcases eq_or_ne side call.side.other with rfl | hne
  · simp
  · simp [Function.update_of_ne hne, arrived]

theorem conserved_sent (hp : p.Conserved) (hcall : p.writes[id]? = some call)
    (hselect : call.phase = .select) : (p.moveWrite id call .sent).Conserved := by
  have hnew := not_arrived hp hcall (by rw [hselect]; rfl)
  have hacked : (p.moveWrite id call .sent).acked = p.acked := by
    simp [moveWrite, hselect]
  constructor
  · intro side
    rw [arrived_sent]
    rcases eq_or_ne side call.side.other with rfl | hne
    · rw [Function.update_self, ← List.concat_eq_append]
      exact .concat (hnew _) (hp.nodup _)
    · rw [Function.update_of_ne hne]
      exact hp.nodup side
  · intro side write
    rw [arrived_sent]
    change _ ↔ SentFrom (p.writes.set id _) side.other write
    rw [sentFrom_set hcall]
    rcases eq_or_ne side call.side.other with rfl | hne
    · rw [Function.update_self, List.mem_append, List.mem_singleton]
      split
      · next heq => exact iff_of_true (Or.inr heq) ⟨(Side.other_other _).symm, rfl⟩
      · next hother => rw [or_iff_left hother, hp.sent]
    · rw [Function.update_of_ne hne]
      split
      · next heq =>
          subst heq
          refine iff_of_false (hnew side) ?_
          rintro ⟨hside, -⟩
          rw [hside, Side.other_other] at hne
          exact hne rfl
      · exact hp.sent side write
  · intro side write hwrite
    rw [hacked] at hwrite
    rw [arrived_sent]
    have hmem := hp.acked side write hwrite
    rcases eq_or_ne side.other call.side.other with heq | hne
    · rw [heq] at hmem ⊢
      rw [Function.update_self]
      exact List.mem_append_left _ hmem
    · rw [Function.update_of_ne hne]
      exact hmem

theorem conserved_moveWrite (hp : p.Conserved) (hcall : p.writes[id]? = some call)
    (hphase : phase ≠ .sent) (hsame : phase.isSent = call.phase.isSent) :
    (p.moveWrite id call phase).Conserved := by
  have harrived : (p.moveWrite id call phase).arrived = p.arrived := by
    funext side
    simp only [arrived, moveWrite, if_neg hphase]
  refine hp.of_same harrived ?_ ?_
  · intro side write
    change SentFrom (p.writes.set id _) side write ↔ _
    rw [sentFrom_set hcall, hsame]
    split
    · next heq =>
        subst heq
        constructor
        · exact fun hrest => ⟨call, hcall, hrest⟩
        · rintro ⟨found, hfound, hrest⟩
          obtain rfl := Option.some_inj.mp (hcall.symm.trans hfound)
          exact hrest
    · exact Iff.rfl
  · intro side write hwrite
    simp only [moveWrite] at hwrite
    split at hwrite
    · next hsent =>
        rcases eq_or_ne side call.side with rfl | hne
        · rw [Function.update_self, List.mem_cons] at hwrite
          rcases hwrite with rfl | hwrite
          · rw [hp.sent, Side.other_other]
            exact ⟨call, hcall, rfl, by rw [hsent.1]; rfl⟩
          · exact hp.acked _ write hwrite
        · rw [Function.update_of_ne hne] at hwrite
          exact hp.acked side write hwrite
    · exact hp.acked side write hwrite

theorem conserved_step (hp : p.Conserved) (hstep : p.step action = some p') : p'.Conserved := by
  cases action with
  | write side data =>
    cases hstep
    exact hp.of_same rfl (sentFrom_concat rfl) hp.acked
  | writeStep id ready =>
    obtain ⟨call, hcall, hmove⟩ := Option.bind_eq_some_iff.mp hstep
    obtain ⟨phase, hphase, rfl⟩ := Option.map_eq_some_iff.mp hmove
    obtain ⟨hselect, hsame⟩ := writePhase_eq_some hphase
    rcases eq_or_ne phase .sent with rfl | hne
    · exact conserved_sent hp hcall (hselect rfl)
    · exact conserved_moveWrite hp hcall hne (hsame hne)
  | readStep id ready =>
    obtain ⟨call, -, hmove⟩ := Option.bind_eq_some_iff.mp hstep
    obtain ⟨phase, -, rfl⟩ := Option.map_eq_some_iff.mp hmove
    obtain ⟨harrived, hwrites, hacked, -⟩ := p.moveRead_same id call ready phase
    refine hp.of_same harrived ?_ ?_
    · rw [hwrites]
      exact fun _ _ => Iff.rfl
    · rw [hacked]
      exact hp.acked
  | read | close | setDeadline =>
    cases hstep
    exact ⟨hp.nodup, hp.sent, hp.acked⟩

end Conservation

section Delivery

variable {p p' : Pipe} {action : Action}

theorem delivers_iff_drained (hp : p.Conserved) (action : Action) :
    p.Delivers action ↔ p.Drained action := by
  cases action with
  | readStep id ready =>
    constructor
    · intro hdelivers call hcall hphase hdone hopen hdeadline chunk hchunk hacked
      have hends : p.Ends id ready call.side :=
        ⟨call, hcall, rfl, readPhase_eq_eof_iff.mpr ⟨hphase, hdone⟩, hopen, hdeadline⟩
      have htaken := hdelivers call.side hends chunk.1 hacked
      have hnodup := hp.nodup call.side
      rw [arrived, List.map_append] at hnodup
      exact List.disjoint_of_nodup_append hnodup htaken (List.mem_map_of_mem hchunk)
    · rintro hdrained side ⟨call, hcall, rfl, heof, hopen, hdeadline⟩ write hwrite
      obtain ⟨hphase, hdone⟩ := readPhase_eq_eof_iff.mp heof
      have harrived := hp.acked call.side.other write hwrite
      rw [Side.other_other, arrived, List.map_append, List.mem_append] at harrived
      rcases harrived with htaken | hqueued
      · exact htaken
      · obtain ⟨chunk, hchunk, rfl⟩ := List.mem_map.mp hqueued
        exact absurd hwrite (hdrained call hcall hphase hdone hopen hdeadline chunk hchunk)
  | write | writeStep | read | close | setDeadline => exact Iff.rfl

/-- An end that has been closed has no chunk to be read that it was told of. -/
structure Settled (p : Pipe) : Prop where
  conserved : p.Conserved
  closed : ∀ side, p.done side = true → ∀ chunk ∈ p.chan side.other, chunk.1 ∉ p.acked side

theorem closed_moveWrite (hp : p.Settled) {id : Nat} (hphase : phase ≠ .sent) (side : Side)
    (hdone : p.done side = true) :
    ∀ chunk ∈ (p.moveWrite id call phase).chan side.other,
      chunk.1 ∉ (p.moveWrite id call phase).acked side := by
  simp only [moveWrite, if_neg hphase]
  split
  · next hsent =>
      have hne : side ≠ call.side := by
        rintro rfl
        rw [hdone] at hsent
        cases hsent.2
      rw [Function.update_of_ne hne]
      exact hp.closed side hdone
  · exact hp.closed side hdone

theorem settled_step (hp : p.Settled) (hflushed : p.Flushed action)
    (hstep : p.step action = some p') : p'.Settled := by
  refine ⟨conserved_step hp.conserved hstep, ?_⟩
  intro side hdone
  cases action with
  | writeStep id ready =>
    obtain ⟨call, hcall, hmove⟩ := Option.bind_eq_some_iff.mp hstep
    obtain ⟨phase, hphase, rfl⟩ := Option.map_eq_some_iff.mp hmove
    rcases eq_or_ne phase .sent with rfl | hne
    · have hnew := not_arrived hp.conserved hcall (by rw [((writePhase_eq_some hphase).1 rfl)]; rfl)
      have hacked : (p.moveWrite id call .sent).acked = p.acked := by
        simp [moveWrite, ((writePhase_eq_some hphase).1 rfl)]
      intro chunk hchunk
      rw [hacked]
      simp only [moveWrite, if_true] at hchunk
      rcases eq_or_ne side.other call.side.other with heq | hne
      · rw [heq, Function.update_self, List.mem_append, List.mem_singleton] at hchunk
        rcases hchunk with hold | rfl
        · exact hp.closed side hdone chunk (heq ▸ hold)
        · exact fun hmem => hnew _ (hp.conserved.acked side id hmem)
      · rw [Function.update_of_ne hne] at hchunk
        exact hp.closed side hdone chunk hchunk
    · exact closed_moveWrite hp hne side hdone
  | readStep id ready =>
    obtain ⟨call, -, hmove⟩ := Option.bind_eq_some_iff.mp hstep
    obtain ⟨phase, -, rfl⟩ := Option.map_eq_some_iff.mp hmove
    obtain ⟨-, -, hacked, hsame, hsuffix⟩ := p.moveRead_same id call ready phase
    rw [hsame] at hdone
    rw [hacked]
    exact fun chunk hchunk => hp.closed side hdone chunk ((hsuffix side.other).mem hchunk)
  | close closing =>
    cases hstep
    rcases eq_or_ne side closing with rfl | hne
    · exact hflushed
    · dsimp only at hdone
      rw [Function.update_of_ne hne] at hdone
      exact hp.closed side hdone
  | write | read | setDeadline =>
    cases hstep
    exact hp.closed side hdone

theorem drained_of_settled (hp : p.Settled) (action : Action) : p.Drained action := by
  cases action with
  | readStep id ready =>
    intro call _ _ hdone _ _ chunk hchunk
    refine hp.closed call.side.other hdone chunk ?_
    rw [Side.other_other]
    exact hchunk
  | write | writeStep | read | close | setDeadline => exact trivial

end Delivery

theorem conserved_new : ({} : Pipe).Conserved where
  nodup _ := List.nodup_nil
  sent side write := by simp [arrived, SentFrom]
  acked _ _ hwrite := nomatch hwrite

/-- In every run, with any number of calls at both ends: no `Read` returns `io.EOF`
before the chunks that were written in time have been read, if and only if each
`Read` that finds the other end closed finds none of them on the channel.  This is so
if no end is closed before the other one has read them. -/
theorem close_delivers_iff (actions : List Action) :
    (Throughout step Delivers {} actions ↔ Throughout step Drained {} actions) ∧
      (Throughout step Flushed {} actions → Throughout step Drained {} actions) := by
  constructor
  · have hconserved : Throughout step (fun p _ => p.Conserved) {} actions :=
      throughout_of_invariant (I := Conserved) (fun _ _ _ hp hstep => conserved_step hp hstep)
        (fun _ _ hp => hp) conserved_new actions
    exact throughout_congr (fun p action hp => delivers_iff_drained hp action) hconserved
  · apply throughout_of_kept (I := Settled)
    · exact fun p action p' hp hflushed hstep => settled_step hp hflushed hstep
    · exact fun p action hp _ => drained_of_settled hp action
    · exact ⟨conserved_new, nofun⟩

/-- A chunk is written, the end is closed, and the other end reads. -/
theorem closed_end_loses_chunk :
    ∃ p, run step {} [.write .p1 [7], .writeStep 0 .channel, .writeStep 0 .channel,
        .writeStep 0 .channel, .writeStep 0 .channel, .writeStep 0 .channel, .close .p1,
        .read .p2 16, .readStep 0 .channel, .readStep 0 .channel] = some p ∧
      p.writes = [⟨.p1, [7], .returned 1 none⟩] ∧
      p.reads = [⟨.p2, 16, .returned [] (some .eof)⟩] ∧
      p.chan .p2 = [(0, [7])] ∧ p.done .p2 = false ∧ p.rdeadline .p2 = false :=
  ⟨_, rfl, rfl, rfl, rfl, rfl, rfl⟩

end Pipe

end Zmq4.InprocClose
