import Zmq4.ProgramStreams

namespace Zmq4.BytePipe

open ByteCodec DuplexProgram ProgramEffects ProgramStreams

/-- A program with the state it starts in once given bytes have arrived, and
the bytes written in a state. -/
structure Side (σ α : Type) where
  program : Program σ α
  start : Bytes → σ
  written : σ → Bytes

variable {σ τ α β : Type}

def Side.result (side : Side σ α) (arrived : Bytes) : EStateM.Result Stop σ α :=
  side.program.run (side.start arrived)

def Side.sent (side : Side σ α) (arrived : Bytes) : Bytes :=
  side.written (finalState (side.result arrived))

/-- The bytes that can have arrived at the first and at the second side. -/
inductive Reachable (first : Side σ α) (second : Side τ β) : Bytes → Bytes → Prop
  | start : Reachable first second [] []
  | toFirst {atFirst atSecond more : Bytes} (h : Reachable first second atFirst atSecond)
      (hsent : atFirst ++ more <+: second.sent atSecond) :
      Reachable first second (atFirst ++ more) atSecond
  | toSecond {atFirst atSecond more : Bytes} (h : Reachable first second atFirst atSecond)
      (hsent : atSecond ++ more <+: first.sent atFirst) :
      Reachable first second atFirst (atSecond ++ more)

/-- If the second side answers nothing to what the first one writes on its own,
nothing ever arrives at the first. -/
theorem Reachable.of_silent {first : Side σ α} {second : Side τ β}
    (hsilent : ∀ arrived, arrived <+: first.sent [] → second.sent arrived = [])
    {atFirst atSecond : Bytes} (hreachable : Reachable first second atFirst atSecond) :
    atFirst = [] ∧ atSecond <+: first.sent [] := by
  induction hreachable with
  | start => exact ⟨rfl, List.nil_prefix⟩
  | toFirst h hsent ih =>
    obtain ⟨-, hsecond⟩ := ih
    rw [hsilent _ hsecond] at hsent
    exact ⟨List.prefix_nil.mp hsent, hsecond⟩
  | toSecond h hsent ih =>
    obtain ⟨rfl, -⟩ := ih
    exact ⟨rfl, hsent⟩

section Delivery

variable {first : Side σ α} {second : Side τ β} {atFirst atSecond : Bytes}

theorem Reachable.arriveFirst (h : Reachable first second atFirst atSecond) {arrived : Bytes}
    (hfirst : atFirst <+: arrived) (hsent : arrived <+: second.sent atSecond) :
    Reachable first second arrived atSecond := by
  obtain ⟨more, rfl⟩ := hfirst
  exact h.toFirst hsent

theorem Reachable.arriveSecond (h : Reachable first second atFirst atSecond) {arrived : Bytes}
    (hsecond : atSecond <+: arrived) (hsent : arrived <+: first.sent atFirst) :
    Reachable first second atFirst arrived := by
  obtain ⟨more, rfl⟩ := hsecond
  exact h.toSecond hsent

def Delivered (first : Side σ α) (second : Side τ β) (atFirst atSecond : Bytes) : Prop :=
  second.sent atSecond = atFirst ∧ first.sent atFirst = atSecond

def Side.Grows (side : Side σ α) : Prop :=
  ∀ arrived more, side.sent arrived <+: side.sent (arrived ++ more)

theorem Side.Grows.of_le {side : Side σ α} (hside : side.Grows) {arrived later : Bytes}
    (hle : arrived <+: later) : side.sent arrived <+: side.sent later := by
  obtain ⟨more, rfl⟩ := hle
  exact hside arrived more

theorem Reachable.le_delivered (hfirst : first.Grows) (hsecond : second.Grows)
    {toFirst toSecond : Bytes} (hdelivered : Delivered first second toFirst toSecond)
    (hreachable : Reachable first second atFirst atSecond) :
    atFirst <+: toFirst ∧ atSecond <+: toSecond := by
  induction hreachable with
  | start => exact ⟨List.nil_prefix, List.nil_prefix⟩
  | toFirst h hsent ih =>
    have hbound := hsecond.of_le ih.2
    rw [hdelivered.1] at hbound
    exact ⟨hsent.trans hbound, ih.2⟩
  | toSecond h hsent ih =>
    have hbound := hfirst.of_le ih.1
    rw [hdelivered.2] at hbound
    exact ⟨ih.1, hsent.trans hbound⟩

/-- The order of the deliveries does not matter: there is one state in which
everything has arrived. -/
theorem Reachable.delivered_unique (hfirst : first.Grows) (hsecond : second.Grows)
    {toFirst toSecond : Bytes} (hreachable : Reachable first second atFirst atSecond)
    (hdelivered : Delivered first second atFirst atSecond)
    (hreachable' : Reachable first second toFirst toSecond)
    (hdelivered' : Delivered first second toFirst toSecond) :
    atFirst = toFirst ∧ atSecond = toSecond := by
  have hle := hreachable.le_delivered hfirst hsecond hdelivered'
  have hge := hreachable'.le_delivered hfirst hsecond hdelivered
  exact ⟨hle.1.eq_of_length_le hge.1.length_le, hle.2.eq_of_length_le hge.2.length_le⟩

end Delivery

structure Side.Streaming (side : Side σ α) (F : Feed σ) : Prop where
  program : Streams F side.program
  start : ∀ arrived more, side.start (arrived ++ more) = F.feed more (side.start arrived)
  written : ∀ s, side.written s = (F.written s).flatten

namespace Side.Streaming

variable {side : Side σ α} {F : Feed σ}

theorem grows (hside : side.Streaming F) : side.Grows := by
  intro arrived more
  obtain ⟨buffers, hbuffers⟩ := hside.program.continues (side.start arrived) more
  rw [← hside.start] at hbuffers
  refine ⟨buffers.flatten, ?_⟩
  rw [Side.sent, Side.sent, hside.written, hside.written, ← List.flatten_append]
  exact congrArg List.flatten hbuffers

theorem result_append (hside : side.Streaming F) {arrived : Bytes}
    (hended : ¬ Waiting (side.result arrived)) (more : Bytes) :
    side.result (arrived ++ more) = mapState (F.feed more) (side.result arrived) := by
  have hsettled := (hside.program.settles (side.start arrived) more).resolve_left hended
  rw [← hside.start] at hsettled
  exact hsettled

end Side.Streaming

end Zmq4.BytePipe
