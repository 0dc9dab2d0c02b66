import Zmq4.ZmtpMessage

namespace Zmq4.MessageQueue

open ZmtpMessage

def innerCap : Nat :=
  512

structure Queue where
  rep : List (List Msg)
  len : Int

def newQueue : Queue where
  rep := []
  len := 0

inductive Operation
  | push (val : Msg)
  | pop
  | peek
  | len
  | init

/-- What an operation returns. -/
inductive Output
  | done
  | peeked (msg : Msg) (ok : Bool)
  | length (n : Int)

namespace Queue

/-- The chunk that `Push` appends to, behind those it leaves alone. -/
def back (q : Queue) : List (List Msg) × List Msg :=
  match q.rep.getLast? with
  | some i => if i.length = innerCap then (q.rep, []) else (q.rep.dropLast, i)
  | none => (q.rep, [])

def push (q : Queue) (val : Msg) : Queue where
  rep := q.back.1 ++ [q.back.2 ++ [val]]
  len := q.len + 1

/-- `none` is the panic of an index out of range. -/
def peek (q : Queue) : Option (Msg × Bool) :=
  match q.rep with
  | [] => some (newMsgFrom [], false)
  | [] :: _ => none
  | (msg :: _) :: _ => some (msg, true)

def pop (q : Queue) : Option Queue :=
  match q.rep with
  | [] | [] :: _ => none
  | (_ :: i) :: rest => some ⟨if i.length = 0 then rest else i :: rest, q.len - 1⟩

def perform (q : Queue) : Operation → Option (Queue × Output)
  | .push val => some (q.push val, .done)
  | .pop => q.pop.map (·, .done)
  | .peek => q.peek.map fun (msg, ok) => (q, .peeked msg ok)
  | .len => some (q, .length q.len)
  | .init => some (newQueue, .done)

end Queue

/-- The operations on the list of the messages that are queued. -/
def fifo (msgs : List Msg) : Operation → Option (List Msg × Output)
  | .push val => some (msgs ++ [val], .done)
  | .pop => if msgs = [] then none else some (msgs.tail, .done)
  | .peek => some (msgs, .peeked (msgs.headD (newMsgFrom [])) !msgs.isEmpty)
  | .len => some (msgs, .length msgs.length)
  | .init => some ([], .done)

def performAll {σ : Type} (perform : σ → Operation → Option (σ × Output)) :
    σ → List Operation → Option (σ × List Output)
  | s, [] => some (s, [])
  | s, op :: ops => do
    let (s, out) ← perform s op
    let (s, outs) ← performAll perform s ops
    return (s, out :: outs)

/-- A chunk is never empty: `Pop` removes the one it takes the last message of. -/
structure Represents (q : Queue) (msgs : List Msg) : Prop where
  flatten_eq : q.rep.flatten = msgs
  len_eq : q.len = msgs.length
  chunks : ∀ chunk ∈ q.rep, chunk ≠ [] ∧ chunk.length ≤ innerCap

variable {q : Queue} {msgs : List Msg}

theorem represents_newQueue : Represents newQueue [] where
  flatten_eq := rfl
  len_eq := rfl
  chunks := fun _ hchunk => nomatch hchunk

theorem flatten_back (q : Queue) : (q.back.1 ++ [q.back.2]).flatten = q.rep.flatten := by
  unfold Queue.back
  split
  · next i hlast =>
      split
      · simp
      · rw [List.dropLast_append_getLast? i hlast]
  · simp

theorem back_chunks (hq : ∀ chunk ∈ q.rep, chunk ≠ [] ∧ chunk.length ≤ innerCap) :
    (∀ chunk ∈ q.back.1, chunk ≠ [] ∧ chunk.length ≤ innerCap) ∧
      q.back.2.length < innerCap := by
  unfold Queue.back
  split
  · next i hlast =>
      split
      · exact ⟨hq, Nat.succ_pos 511⟩
      · next hlength =>
          have hi := (hq i (List.mem_of_getLast? hlast)).2
          exact ⟨fun chunk hchunk => hq chunk (List.dropLast_subset _ hchunk),
            lt_of_le_of_ne hi hlength⟩
  · exact ⟨hq, Nat.succ_pos 511⟩

theorem represents_push (hq : Represents q msgs) (val : Msg) :
    Represents (q.push val) (msgs ++ [val]) where
  flatten_eq := by
    have hback := flatten_back q
    rw [hq.flatten_eq, List.flatten_append] at hback
    simp [Queue.push, ← hback]
  len_eq := by simp [Queue.push, hq.len_eq]
  chunks := by
    intro chunk hchunk
    obtain ⟨hbefore, hlength⟩ := back_chunks hq.chunks
    rcases List.mem_append.mp hchunk with hchunk | hchunk
    · exact hbefore chunk hchunk
    · rw [List.mem_singleton.mp hchunk]
      simp
      omega

/-- Both sides panic, or they return the same and stay together. -/
theorem represents_perform (hq : Represents q msgs) (op : Operation) :
    q.perform op = none ∧ fifo msgs op = none ∨
      ∃ q' msgs' out, q.perform op = some (q', out) ∧ fifo msgs op = some (msgs', out) ∧
        Represents q' msgs' := by
  obtain ⟨rep, len⟩ := q
  obtain ⟨rfl, hlen, hchunks⟩ := hq
  obtain rfl : len = rep.flatten.length := hlen
  cases op with
  | push val => exact Or.inr ⟨_, _, _, rfl, rfl, represents_push ⟨rfl, rfl, hchunks⟩ val⟩
  | len => exact Or.inr ⟨_, _, _, rfl, rfl, rfl, rfl, hchunks⟩
  | init => exact Or.inr ⟨_, _, _, rfl, rfl, represents_newQueue⟩
  | peek =>
    rcases rep with _ | ⟨_ | ⟨msg, i⟩, rest⟩
    · exact Or.inr ⟨_, _, _, rfl, rfl, rfl, rfl, hchunks⟩
    · exact absurd rfl (hchunks [] List.mem_cons_self).1
    · exact Or.inr ⟨_, _, _, rfl, rfl, rfl, rfl, hchunks⟩
  | pop =>
    rcases rep with _ | ⟨_ | ⟨msg, i⟩, rest⟩
    · exact Or.inl ⟨rfl, rfl⟩
    · exact absurd rfl (hchunks [] List.mem_cons_self).1
    · rw [List.forall_mem_cons, List.length_cons] at hchunks
      refine Or.inr ⟨_, i ++ rest.flatten, _, rfl, rfl, ?_, by simp, ?_⟩
      · cases i <;> rfl
      · rcases i with _ | ⟨next, i⟩
        · exact hchunks.2
        · exact List.forall_mem_cons.mpr
            ⟨⟨List.cons_ne_nil next i, Nat.le_of_succ_le hchunks.1.2⟩, hchunks.2⟩

theorem represents_performAll (hq : Represents q msgs) (ops : List Operation) :
    performAll Queue.perform q ops = none ∧ performAll fifo msgs ops = none ∨
      ∃ q' msgs' outs, performAll Queue.perform q ops = some (q', outs) ∧
        performAll fifo msgs ops = some (msgs', outs) ∧ Represents q' msgs' := by
  induction ops generalizing q msgs with
  | nil => exact Or.inr ⟨q, msgs, [], rfl, rfl, hq⟩
  | cons op ops ih =>
    simp only [performAll]
    rcases represents_perform hq op with ⟨hq', hmsgs'⟩ | ⟨q', msgs', out, hq', hmsgs', hrep⟩
    · simp [hq', hmsgs']
    · rcases ih hrep with ⟨hall, hall'⟩ | ⟨last, msgs'', outs, hall, hall', hlast⟩
      · simp [hq', hmsgs', hall, hall']
      · simp [hq', hmsgs', hall, hall', hlast]

/-- A sequence panics on the queue if and only if it takes from an empty list.  Otherwise
every call returns what it returns on the list, and the chunks are not empty. -/
theorem queue_refines_fifo (ops : List Operation) :
    performAll fifo [] ops = (performAll Queue.perform newQueue ops).map
        (fun (q, outs) => (q.rep.flatten, outs)) ∧
      ∀ q outs, performAll Queue.perform newQueue ops = some (q, outs) →
        q.len = q.rep.flatten.length ∧
          ∀ chunk ∈ q.rep, chunk ≠ [] ∧ chunk.length ≤ innerCap := by
  rcases represents_performAll represents_newQueue ops with
    ⟨hq, hmsgs⟩ | ⟨q, msgs, outs, hq, hmsgs, rfl, hlen, hchunks⟩
  · simp [hq, hmsgs]
  · rw [hq, hmsgs]
    refine ⟨rfl, ?_⟩
    rintro _ _ ⟨⟩
    exact ⟨hlen, hchunks⟩

end Zmq4.MessageQueue
