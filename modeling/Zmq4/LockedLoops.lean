import Mathlib.Data.Fintype.Basic
import Zmq4.ActionRuns

namespace Zmq4.LockedLoops

open ActionRuns

inductive Mode
  | read
  | write
  deriving DecidableEq

/-- Where a loop is.  The list has the critical sections that are still to come in
this iteration. -/
inductive Position
  | exited
  | select
  | waits (mode : Mode) (rest : List Mode)
  | inside (mode : Mode) (rest : List Mode)
  deriving DecidableEq

namespace Position

def next : List Mode → Position
  | [] => .select
  | mode :: rest => .waits mode rest

def isWaiting : Position → Bool
  | .waits _ _ => true
  | .exited | .select | .inside _ _ => false

def isInside : Position → Bool
  | .inside _ _ => true
  | .exited | .select | .waits _ _ => false

def writes : Position → Bool
  | .inside .write _ => true
  | .inside .read _ | .exited | .select | .waits _ _ => false

@[simp]
theorem isInside_next (sections : List Mode) : (next sections).isInside = false := by
  cases sections <;> rfl

theorem isWaiting_next_iff {sections : List Mode} :
    (next sections).isWaiting = true ↔ sections ≠ [] := by
  cases sections with
  | nil => exact ⟨nofun, fun hne => absurd rfl hne⟩
  | cons mode rest => exact ⟨nofun, fun _ => rfl⟩

theorem eq_select {position : Position} (hwaiting : position.isWaiting = false)
    (hinside : position.isInside = false) (hexited : position ≠ .exited) :
    position = .select := by
  cases position with
  | exited => exact absurd rfl hexited
  | select => rfl
  | waits mode rest => cases hwaiting
  | inside mode rest => cases hinside

end Position

/-- The loops, the call that has the mutex, and whether the loops have been told to
return. -/
structure System (ι κ : Type) where
  position : ι → Position
  call : Option κ := none
  done : Bool := false

inductive LoopAction (ι : Type)
  | enter (loop : ι)
  | leave (loop : ι)
  | exit (loop : ι)

inductive Need
  | nothing
  | mutex
  | loops
  deriving DecidableEq

namespace System

variable {ι κ : Type}

/-- The mutex can be had.  A reader may overtake a writer that waits. -/
def Admits (s : System ι κ) : Mode → Prop
  | .read => s.call.isNone ∧ ∀ loop, (s.position loop).writes = false
  | .write => s.call.isNone ∧ ∀ loop, (s.position loop).isInside = false

instance [Fintype ι] (s : System ι κ) : (mode : Mode) → Decidable (s.Admits mode)
  | .read => inferInstanceAs (Decidable (_ ∧ _))
  | .write => inferInstanceAs (Decidable (_ ∧ _))

def Joined (s : System ι κ) : Prop :=
  ∀ loop, s.position loop = .exited

instance [Fintype ι] (s : System ι κ) : Decidable s.Joined :=
  inferInstanceAs (Decidable (∀ _, _))

/-- The call waits for the mutex that it has, or for a loop that can only go on
with the mutex. -/
def Blocked (need : κ → Need) (s : System ι κ) : Prop :=
  ∃ call, s.call = some call ∧
    (need call = .mutex ∨ need call = .loops ∧ ∃ loop, (s.position loop).isWaiting = true)

/-- While a call has the mutex, no loop has it. -/
def Exclusive (s : System ι κ) : Prop :=
  s.call.isSome → ∀ loop, (s.position loop).isInside = false

variable [DecidableEq ι]

def move (s : System ι κ) (loop : ι) (position : Position) : System ι κ :=
  { s with position := Function.update s.position loop position }

def take (s : System ι κ) (loop : ι) (sections : List Mode) : Option (System ι κ) :=
  if s.position loop = .select then some (s.move loop (.next sections)) else none

def loopStep [Fintype ι] (s : System ι κ) : LoopAction ι → Option (System ι κ)
  | .enter loop =>
    match s.position loop with
    | .waits mode rest =>
      if s.Admits mode then some (s.move loop (.inside mode rest)) else none
    | .exited | .select | .inside _ _ => none
  | .leave loop =>
    match s.position loop with
    | .inside _ rest => some (s.move loop (.next rest))
    | .exited | .select | .waits _ _ => none
  | .exit loop =>
    if s.position loop = .select ∧ s.done then some (s.move loop .exited) else none

variable {s s' : System ι κ} {need : κ → Need}

omit [DecidableEq ι] in
theorem Admits.call_eq {mode : Mode} (hadmits : s.Admits mode) : s.call = none := by
  cases mode with
  | read | write => exact Option.isNone_iff_eq_none.mp hadmits.1

omit [DecidableEq ι] in
theorem not_blocked_of_call_eq (hcall : s.call = none) : ¬ s.Blocked need := by
  rintro ⟨call, hsome, -⟩
  rw [hcall] at hsome
  cases hsome

omit [DecidableEq ι] in
theorem exclusive_of_call_eq (hcall : s.call = none) : s.Exclusive := by
  intro hsome
  rw [hcall] at hsome
  cases hsome

omit [DecidableEq ι] in
theorem Joined.not_waiting (hjoined : s.Joined) (loop : ι) :
    (s.position loop).isWaiting = false := by
  rw [hjoined loop]
  rfl

theorem move_self (loop : ι) (position : Position) :
    (s.move loop position).position loop = position := by
  simp [move]

variable {loop : ι} {position : Position} {sections : List Mode} {action : LoopAction ι}

theorem move_of_ne {other : ι} (hne : other ≠ loop) (position : Position) :
    (s.move loop position).position other = s.position other := by
  simp [move, hne]

theorem exclusive_move (hs : s.Exclusive) (hinside : position.isInside = false) :
    (s.move loop position).Exclusive := by
  intro hsome other
  rcases eq_or_ne other loop with rfl | hne
  · rw [move_self]
    exact hinside
  · rw [move_of_ne hne]
    exact hs hsome other

theorem not_blocked_move (hs : ¬ s.Blocked need) (hwaiting : position.isWaiting = false) :
    ¬ (s.move loop position).Blocked need := by
  rintro ⟨call, hcall, hmutex | ⟨hloops, other, hother⟩⟩
  · exact hs ⟨call, hcall, Or.inl hmutex⟩
  · rcases eq_or_ne other loop with rfl | hne
    · rw [move_self, hwaiting] at hother
      cases hother
    · rw [move_of_ne hne] at hother
      exact hs ⟨call, hcall, Or.inr ⟨hloops, other, hother⟩⟩

theorem blocked_move (hs : s.Blocked need) (hidle : (s.position loop).isWaiting = false) :
    (s.move loop position).Blocked need := by
  rcases hs with ⟨call, hcall, hmutex | ⟨hloops, other, hother⟩⟩
  · exact ⟨call, hcall, Or.inl hmutex⟩
  · refine ⟨call, hcall, Or.inr ⟨hloops, other, ?_⟩⟩
    have hne : other ≠ loop := by
      rintro rfl
      rw [hidle] at hother
      cases hother
    rw [move_of_ne hne]
    exact hother

theorem take_eq_some (htake : s.take loop sections = some s') :
    s.position loop = .select ∧ s' = s.move loop (.next sections) := by
  obtain ⟨hselect, hmoved⟩ := Option.ite_none_right_eq_some.mp htake
  exact ⟨hselect, (Option.some.inj hmoved).symm⟩

theorem call_take (htake : s.take loop sections = some s') : s'.call = s.call := by
  rw [(take_eq_some htake).2]
  rfl

theorem exclusive_take (hs : s.Exclusive) (htake : s.take loop sections = some s') :
    s'.Exclusive := by
  rw [(take_eq_some htake).2]
  exact exclusive_move hs (Position.isInside_next sections)

theorem blocked_take (hs : s.Blocked need) (htake : s.take loop sections = some s') :
    s'.Blocked need := by
  obtain ⟨hselect, rfl⟩ := take_eq_some htake
  exact blocked_move hs (by rw [hselect]; rfl)

theorem blocked_take_iff (hs : ¬ s.Blocked need) (htake : s.take loop sections = some s') :
    s'.Blocked need ↔ (∃ call, s.call = some call ∧ need call = .loops) ∧ sections ≠ [] := by
  obtain ⟨hselect, rfl⟩ := take_eq_some htake
  constructor
  · intro hblocked
    have hne : sections ≠ [] := by
      rintro rfl
      exact not_blocked_move hs rfl hblocked
    obtain ⟨call, hcall, hmutex | ⟨hloops, -⟩⟩ := hblocked
    · exact absurd ⟨call, hcall, Or.inl hmutex⟩ hs
    · exact ⟨⟨call, hcall, hloops⟩, hne⟩
  · rintro ⟨⟨call, hcall, hloops⟩, hne⟩
    refine ⟨call, hcall, Or.inr ⟨hloops, loop, ?_⟩⟩
    rw [move_self]
    exact Position.isWaiting_next_iff.mpr hne

theorem not_blocked_take_iff (hs : ¬ s.Blocked need) (htake : s.take loop sections = some s') :
    ¬ s'.Blocked need ↔ ∀ call, s.call = some call → need call = .loops → sections = [] := by
  rw [blocked_take_iff hs htake]
  constructor
  · intro hfree call hcall hloops
    by_contra hne
    exact hfree ⟨⟨call, hcall, hloops⟩, hne⟩
  · rintro hclear ⟨⟨call, hcall, hloops⟩, hne⟩
    exact hne (hclear call hcall hloops)

omit [DecidableEq ι] in
theorem not_blocked_waits_iff {call : κ} (hloops : need call = .loops) (done : Bool) :
    ¬ ({ s with call := some call, done } : System ι κ).Blocked need ↔
      ∀ loop, (s.position loop).isWaiting = false := by
  constructor
  · intro hfree loop
    rw [← Bool.not_eq_true]
    exact fun hwaiting => hfree ⟨call, rfl, Or.inr ⟨hloops, loop, hwaiting⟩⟩
  · rintro hclear ⟨other, hcall, hmutex | ⟨-, loop, hwaiting⟩⟩
    · cases hcall
      rw [hloops] at hmutex
      cases hmutex
    · rw [hclear loop] at hwaiting
      cases hwaiting

variable [Fintype ι]

theorem loopStep_cases (hstep : s.loopStep action = some s') :
    (∃ loop mode rest, s.position loop = .waits mode rest ∧ s.Admits mode ∧
        s' = s.move loop (.inside mode rest)) ∨
      (∃ loop mode rest, s.position loop = .inside mode rest ∧ s' = s.move loop (.next rest)) ∨
      ∃ loop, s.position loop = .select ∧ s.done = true ∧ s' = s.move loop .exited := by
  cases action with
  | enter loop =>
    simp only [loopStep] at hstep
    split at hstep
    · next mode rest hposition =>
        obtain ⟨hadmits, hmoved⟩ := Option.ite_none_right_eq_some.mp hstep
        exact Or.inl ⟨loop, mode, rest, hposition, hadmits, (Option.some.inj hmoved).symm⟩
    all_goals cases hstep
  | leave loop =>
    simp only [loopStep] at hstep
    split at hstep
    · next mode rest hposition =>
        exact Or.inr (Or.inl ⟨loop, mode, rest, hposition, (Option.some.inj hstep).symm⟩)
    all_goals cases hstep
  | exit loop =>
    obtain ⟨⟨hselect, hdone⟩, hmoved⟩ := Option.ite_none_right_eq_some.mp hstep
    exact Or.inr (Or.inr ⟨loop, hselect, hdone, (Option.some.inj hmoved).symm⟩)

theorem call_loopStep (hstep : s.loopStep action = some s') : s'.call = s.call := by
  rcases loopStep_cases hstep with ⟨_, _, _, _, _, rfl⟩ | ⟨_, _, _, _, rfl⟩ | ⟨_, _, _, rfl⟩
  all_goals rfl

theorem exclusive_loopStep (hs : s.Exclusive) (hstep : s.loopStep action = some s') :
    s'.Exclusive := by
  have hcall := call_loopStep hstep
  rcases loopStep_cases hstep with ⟨_, _, _, _, hadmits, -⟩ | ⟨_, _, rest, _, rfl⟩ | ⟨_, _, _, rfl⟩
  · exact exclusive_of_call_eq (hcall.trans hadmits.call_eq)
  · exact exclusive_move hs (Position.isInside_next rest)
  · exact exclusive_move hs rfl

theorem not_blocked_loopStep (hexclusive : s.Exclusive) (hs : ¬ s.Blocked need)
    (hstep : s.loopStep action = some s') : ¬ s'.Blocked need := by
  have hcall := call_loopStep hstep
  rcases loopStep_cases hstep with ⟨_, _, _, _, hadmits, -⟩ |
    ⟨loop, mode, rest, hinside, -⟩ | ⟨_, _, _, rfl⟩
  · exact not_blocked_of_call_eq (hcall.trans hadmits.call_eq)
  · apply not_blocked_of_call_eq
    rw [hcall, ← Option.not_isSome_iff_eq_none]
    intro hsome
    have hout := hexclusive hsome loop
    rw [hinside] at hout
    cases hout
  · exact not_blocked_move hs rfl

theorem blocked_loopStep (hs : s.Blocked need) (hstep : s.loopStep action = some s') :
    s'.Blocked need := by
  rcases loopStep_cases hstep with ⟨_, _, _, _, hadmits, -⟩ |
    ⟨_, _, _, hinside, rfl⟩ | ⟨_, hselect, _, rfl⟩
  · exact absurd hs (not_blocked_of_call_eq hadmits.call_eq)
  · exact blocked_move hs (by rw [hinside]; rfl)
  · exact blocked_move hs (by rw [hselect]; rfl)

/-- If no loop waits for the mutex and none has it, then those of a list can
return one by one. -/
theorem exists_exits (hdone : s.done = true)
    (hout : ∀ loop, s.position loop = .select ∨ s.position loop = .exited) (loops : List ι) :
    ∃ actions t, run loopStep s actions = some t ∧ t.call = s.call ∧
      (∀ loop ∈ loops, t.position loop = .exited) ∧
      ∀ loop, s.position loop = .exited → t.position loop = .exited := by
  induction loops generalizing s with
  | nil => exact ⟨[], s, rfl, rfl, fun _ => nofun, fun _ => id⟩
  | cons loop rest ih =>
    rcases hout loop with hselect | hexited
    · have hexit : s.loopStep (.exit loop) = some (s.move loop .exited) :=
        if_pos ⟨hselect, hdone⟩
      have hout' : ∀ other, (s.move loop .exited).position other = .select ∨
          (s.move loop .exited).position other = .exited := by
        intro other
        rcases eq_or_ne other loop with rfl | hne
        · exact Or.inr (move_self other .exited)
        · rw [move_of_ne hne]
          exact hout other
      obtain ⟨actions, t, hrun, hcall, hrest, hkept⟩ :=
        ih (s := s.move loop .exited) hdone hout'
      refine ⟨.exit loop :: actions, t, run_cons_eq_some_iff.mpr ⟨_, hexit, hrun⟩, hcall, ?_, ?_⟩
      · exact List.forall_mem_cons.mpr ⟨hkept loop (move_self loop .exited), hrest⟩
      · intro other hother
        rcases eq_or_ne other loop with rfl | hne
        · exact hkept other (move_self other .exited)
        · exact hkept other ((move_of_ne hne .exited).trans hother)
    · obtain ⟨actions, t, hrun, hcall, hrest, hkept⟩ := ih hdone hout
      refine ⟨actions, t, hrun, hcall, ?_, hkept⟩
      exact List.forall_mem_cons.mpr ⟨hkept loop hexited, hrest⟩

/-- A call that waits for the loops and is not blocked sees all of them return in
some continuation. -/
theorem exists_joined {call : κ} (hexclusive : s.Exclusive) (hs : ¬ s.Blocked need)
    (hcall : s.call = some call) (hloops : need call = .loops) (hdone : s.done = true) :
    ∃ actions t, run loopStep s actions = some t ∧ t.call = some call ∧ t.Joined := by
  have hout : ∀ loop, s.position loop = .select ∨ s.position loop = .exited := by
    intro loop
    rw [or_iff_not_imp_right]
    refine Position.eq_select ?_ (hexclusive (by rw [hcall]; rfl) loop)
    rw [← Bool.not_eq_true]
    exact fun hwaiting => hs ⟨call, hcall, Or.inr ⟨hloops, loop, hwaiting⟩⟩
  obtain ⟨actions, t, hrun, hsame, hexited, -⟩ := exists_exits hdone hout Finset.univ.toList
  exact ⟨actions, t, hrun, hsame.trans hcall,
    fun loop => hexited loop (Finset.mem_toList.mpr (Finset.mem_univ loop))⟩

end System

end Zmq4.LockedLoops
