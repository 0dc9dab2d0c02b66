import Mathlib.Data.List.Basic

namespace Zmq4.ActionPurge

variable {σ ε ω : Type}

def answers (step : σ → ε → σ × ω) (sees : ε → Bool) : σ → List ε → List ω
  | _, [] => []
  | s, action :: rest =>
    if sees action then (step s action).2 :: answers step sees (step s action).1 rest
    else answers step sees (step s action).1 rest

variable {step : σ → ε → σ × ω} {sees : ε → Bool}

theorem answers_seen {s : σ} {action : ε} {rest : List ε} (hseen : sees action = true) :
    answers step sees s (action :: rest) =
      (step s action).2 :: answers step sees (step s action).1 rest := by
  rw [answers, if_pos hseen]

theorem answers_hidden {s : σ} {action : ε} {rest : List ε} (hhidden : sees action = false) :
    answers step sees s (action :: rest) = answers step sees (step s action).1 rest := by
  rw [answers, if_neg (by simp [hhidden])]

/-- States that the observer cannot tell apart: seen actions have the same answer
in both of them, hidden actions lead to a state that is like the other one.  Then
the hidden actions of a run can be left out. -/
theorem answers_purge {R : σ → σ → Prop} {C : ε → Prop}
    (hseen : ∀ s t action, R s t → C action → sees action = true →
      (step s action).2 = (step t action).2 ∧ R (step s action).1 (step t action).1)
    (hhidden : ∀ s t action, R s t → C action → sees action = false → R (step s action).1 t)
    {actions : List ε} (hactions : ∀ action ∈ actions, C action) {s t : σ} (hR : R s t) :
    answers step sees s actions = answers step sees t (actions.filter sees) := by
  induction actions generalizing s t with
  | nil => rfl
  | cons action rest ih =>
    obtain ⟨haction, hrest⟩ := List.forall_mem_cons.mp hactions
    rcases hsees : sees action with _ | _
    · rw [answers_hidden hsees, List.filter_cons_of_neg (by simp [hsees])]
      exact ih hrest (hhidden s t action hR haction hsees)
    · obtain ⟨hanswer, hnext⟩ := hseen s t action hR haction hsees
      rw [List.filter_cons_of_pos hsees, answers_seen hsees, answers_seen hsees, hanswer,
        ih hrest hnext]

end Zmq4.ActionPurge
