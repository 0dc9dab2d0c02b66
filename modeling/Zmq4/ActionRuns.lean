import Mathlib.Data.Nat.Init

namespace Zmq4.ActionRuns

variable {σ ε : Type}

def run (step : σ → ε → Option σ) (s : σ) (actions : List ε) : Option σ :=
  actions.foldlM step s

/-- Each action of the run meets the condition in the state it is taken in. -/
def Throughout (step : σ → ε → Option σ) (C : σ → ε → Prop) : σ → List ε → Prop
  | _, [] => True
  | s, action :: rest => C s action ∧ ∀ s', step s action = some s' → Throughout step C s' rest

instance decidableThroughout {step : σ → ε → Option σ} {C : σ → ε → Prop}
    [∀ s action, Decidable (C s action)] :
    (s : σ) → (actions : List ε) → Decidable (Throughout step C s actions)
  | _, [] => .isTrue trivial
  | s, action :: rest =>
    match h : step s action with
    | none => decidable_of_iff (C s action) (by simp [Throughout, h])
    | some s' =>
      have : Decidable (Throughout step C s' rest) := decidableThroughout s' rest
      decidable_of_iff (C s action ∧ Throughout step C s' rest) (by simp [Throughout, h])

/-- The property holds in each state the run goes through. -/
def Always (step : σ → ε → Option σ) (P : σ → Prop) : σ → List ε → Prop
  | s, [] => P s
  | s, action :: rest => P s ∧ ∀ s', step s action = some s' → Always step P s' rest

variable {step : σ → ε → Option σ}

@[simp]
theorem run_nil (s : σ) : run step s [] = some s :=
  rfl

theorem run_cons (s : σ) (action : ε) (rest : List ε) :
    run step s (action :: rest) = (step s action).bind fun s' => run step s' rest :=
  rfl

variable {s : σ} {rest actions : List ε} {I P : σ → Prop} {C H K : σ → ε → Prop} {action : ε}

theorem run_cons_eq_some_iff {s' : σ} :
    run step s (action :: rest) = some s' ↔
      ∃ t, step s action = some t ∧ run step t rest = some s' := by
  rw [run_cons, Option.bind_eq_some_iff]

theorem run_append {first second : List ε} :
    run step s (first ++ second) = (run step s first).bind fun t => run step t second := by
  induction first generalizing s with
  | nil => rfl
  | cons action rest ih =>
    rw [List.cons_append, run_cons, run_cons, Option.bind_assoc]
    congr 1
    funext t
    exact ih

theorem run_congr {step' : σ → ε → Option σ}
    (hsame : ∀ action ∈ actions, ∀ s, step s action = step' s action) (s : σ) :
    run step s actions = run step' s actions := by
  induction actions generalizing s with
  | nil => rfl
  | cons action rest ih =>
    obtain ⟨hfirst, hrest⟩ := List.forall_mem_cons.mp hsame
    rw [run_cons, run_cons, hfirst]
    congr 1
    funext t
    exact ih hrest t

theorem run_keeps_of_throughout
    (hstep : ∀ s action s', I s → C s action → step s action = some s' → I s') {s' : σ}
    (hcond : Throughout step C s actions) (hs : I s) (hrun : run step s actions = some s') :
    I s' := by
  induction actions generalizing s with
  | nil =>
    obtain rfl : s = s' := by simpa using hrun
    exact hs
  | cons action rest ih =>
    obtain ⟨t, haction, hrest⟩ := run_cons_eq_some_iff.mp hrun
    exact ih (hcond.2 t haction) (hstep s action t hs hcond.1 haction) hrest

theorem throughout_congr {D : σ → ε → Prop}
    (hiff : ∀ s action, H s action → (C s action ↔ D s action))
    (hrun : Throughout step H s actions) :
    Throughout step C s actions ↔ Throughout step D s actions := by
  induction actions generalizing s with
  | nil => exact Iff.rfl
  | cons action rest ih =>
    refine and_congr (hiff s action hrun.1) (forall_congr' fun s' => ?_)
    exact imp_congr_right fun hstep => ih (hrun.2 s' hstep)

theorem throughout_of_both (himp : ∀ s action, H s action → K s action → C s action)
    (hH : Throughout step H s actions) (hK : Throughout step K s actions) :
    Throughout step C s actions := by
  induction actions generalizing s with
  | nil => exact trivial
  | cons action rest ih =>
    exact ⟨himp s action hH.1 hK.1, fun s' hstep => ih (hH.2 s' hstep) (hK.2 s' hstep)⟩

variable {t : σ}

theorem throughout_cons_iff (hstep : step s action = some t) :
    Throughout step C s (action :: rest) ↔ C s action ∧ Throughout step C t rest := by
  refine and_congr_right fun _ => ?_
  rw [hstep]
  simp

theorem throughout_of_forall (hall : ∀ action ∈ actions, ∀ s, C s action) (s : σ) :
    Throughout step C s actions := by
  induction actions generalizing s with
  | nil => exact trivial
  | cons action rest ih =>
    refine ⟨hall action List.mem_cons_self s, fun s' _ => ?_⟩
    exact ih (fun later hlater => hall later (List.mem_cons_of_mem action hlater)) s'

theorem throughout_of_invariant (hstep : ∀ s action s', I s → step s action = some s' → I s')
    (hcond : ∀ s action, I s → C s action) (hs : I s) (actions : List ε) :
    Throughout step C s actions := by
  induction actions generalizing s with
  | nil => exact trivial
  | cons action rest ih =>
    exact ⟨hcond s action hs, fun s' haction => ih (hstep s action s' hs haction)⟩

theorem throughout_of_kept
    (hstep : ∀ s action s', I s → K s action → step s action = some s' → I s')
    (hcond : ∀ s action, I s → K s action → C s action) (hs : I s)
    (hK : Throughout step K s actions) : Throughout step C s actions := by
  induction actions generalizing s with
  | nil => exact trivial
  | cons action rest ih =>
    exact ⟨hcond s action hs hK.1, fun s' haction =>
      ih (hstep s action s' hs hK.1 haction) (hK.2 s' haction)⟩

theorem always_cons_iff (hstep : step s action = some t) :
    Always step P s (action :: rest) ↔ P s ∧ Always step P t rest := by
  refine and_congr_right fun _ => ?_
  rw [hstep]
  simp

theorem Always.head (halways : Always step P s actions) : P s := by
  cases actions with
  | nil => exact halways
  | cons action rest => exact halways.1

theorem always_of_invariant (hstep : ∀ s action s', I s → step s action = some s' → I s') (hs : I s)
    (actions : List ε) : Always step I s actions := by
  induction actions generalizing s with
  | nil => exact hs
  | cons action rest ih => exact ⟨hs, fun s' haction => ih (hstep s action s' hs haction)⟩

/-- What holds because of an invariant holds as long as the condition that keeps it is
met. -/
theorem always_of_kept (hstep : ∀ s action s', I s → K s action → step s action = some s' → I s')
    (hP : ∀ s, I s → P s) (hs : I s) (hK : Throughout step K s actions) :
    Always step P s actions := by
  induction actions generalizing s with
  | nil => exact hP s hs
  | cons action rest ih =>
    exact ⟨hP s hs, fun s' haction =>
      ih (hstep s action s' hs hK.1 haction) (hK.2 s' haction)⟩

/-- If the condition says, of a step from a state with the property, whether the
next state has it too, then a run has the property in all its states if and only
if each of its steps meets the condition.  The invariant `J` is kept by the steps
between states with the property. -/
theorem always_iff_throughout {J : σ → Prop}
    (hkeep : ∀ s action s', J s → P s' → step s action = some s' → J s')
    (hiff : ∀ s action s', J s → P s → step s action = some s' → (P s' ↔ C s action)) (hJ : J s)
    (hP : P s) (hrun : run step s actions = some t) :
    Always step P s actions ↔ Throughout step C s actions := by
  induction actions generalizing s with
  | nil => exact iff_of_true hP trivial
  | cons action rest ih =>
    obtain ⟨s', haction, hrest⟩ := run_cons_eq_some_iff.mp hrun
    have hstep := hiff s action s' hJ hP haction
    rw [always_cons_iff haction, throughout_cons_iff haction]
    constructor
    · rintro ⟨_, halways⟩
      have hJ' := hkeep s action s' hJ halways.head haction
      exact ⟨hstep.mp halways.head, (ih hJ' halways.head hrest).mp halways⟩
    · rintro ⟨hC, hthroughout⟩
      have hP' := hstep.mpr hC
      exact ⟨hP, (ih (hkeep s action s' hJ hP' haction) hP' hrest).mpr hthroughout⟩

theorem run_keeps_lapses {J : Prop → σ → Prop}
    (hstep : ∀ p s action s', J p s → H s action → step s action = some s' →
      J (p ∨ ¬ C s action) s') {p : Prop} (hH : Throughout step H s actions) (hJ : J p s)
    (hrun : run step s actions = some t) : J (p ∨ ¬ Throughout step C s actions) t := by
  induction actions generalizing p s with
  | nil =>
    obtain rfl : s = t := by simpa using hrun
    simpa [Throughout] using hJ
  | cons action rest ih =>
    obtain ⟨s', haction, hrest⟩ := run_cons_eq_some_iff.mp hrun
    rw [throughout_cons_iff haction] at hH
    rw [throughout_cons_iff haction, Classical.not_and_iff_not_or_not, ← or_assoc]
    exact ih hH.2 (hstep p s action s' hJ hH.1 haction) hrest

theorem run_keeps (hstep : ∀ s action s', I s → step s action = some s' → I s') {s' : σ} (hs : I s)
    (hrun : run step s actions = some s') : I s' :=
  run_keeps_of_throughout (C := fun _ _ => True) (fun s action s' hs _ => hstep s action s' hs)
    (throughout_of_forall (fun _ _ _ => trivial) s) hs hrun

/-- A system that can always take an action that lowers a measure, as long as it
is not done, has a run that ends when it is done. -/
theorem exists_run_of_measure (I done : σ → Prop) (measure : σ → Nat)
    (hprogress : ∀ s, I s → ¬ done s →
      ∃ action s', step s action = some s' ∧ I s' ∧ measure s' < measure s) (hs : I s) :
    ∃ actions s', run step s actions = some s' ∧ I s' ∧ done s' := by
  induction hn : measure s using Nat.strongRecOn generalizing s with
  | ind n ih =>
    by_cases hdone : done s
    · exact ⟨[], s, rfl, hs, hdone⟩
    · obtain ⟨action, t, haction, ht, hlt⟩ := hprogress s hs hdone
      obtain ⟨actions, s', hrun, hs', hdone'⟩ := ih (measure t) (hn ▸ hlt) ht rfl
      exact ⟨action :: actions, s', run_cons_eq_some_iff.mpr ⟨t, haction, hrun⟩, hs', hdone'⟩

end Zmq4.ActionRuns
