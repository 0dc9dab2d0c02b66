import Mathlib.Tactic.Common

namespace Zmq4.CallScripts

variable {Op : Type} {Answer : Op → Type} {α β σ : Type}

inductive Script (Op : Type) (Answer : Op → Type) (α : Type) where
  | done (value : α)
  | call (op : Op) (next : Answer op → Script Op Answer α)

def Script.bind (x : Script Op Answer α) (f : α → Script Op Answer β) : Script Op Answer β :=
  match x with
  | .done value => f value
  | .call op next => .call op fun answer => (next answer).bind f

instance : Monad (Script Op Answer) where
  pure := .done
  bind := .bind

def ask (op : Op) : Script Op Answer (Answer op) :=
  .call op .done

/-- Whatever the calls do, within their effects, the code ends with `Q`. -/
def Ensures (effect : (op : Op) → σ → Answer op → σ → Prop) (Q : α → σ → Prop) :
    Script Op Answer α → σ → Prop
  | .done value, s => Q value s
  | .call op next, s => ∀ answer s', effect op s answer s' → Ensures effect Q (next answer) s'

variable {effect : (op : Op) → σ → Answer op → σ → Prop} {Q R : α → σ → Prop}

theorem ensures_bind {Q : β → σ → Prop} (x : Script Op Answer α)
    (f : α → Script Op Answer β) (s : σ) :
    Ensures effect Q (x >>= f) s ↔
      Ensures effect (fun value => Ensures effect Q (f value)) x s := by
  induction x generalizing s with
  | done value => exact Iff.rfl
  | call op next ih =>
    refine forall_congr' fun answer => forall_congr' fun s' => ?_
    exact imp_congr_right fun _ => ih answer s'

theorem ensures_ite {c : Prop} [Decidable c] (x y : Script Op Answer α) (s : σ) :
    Ensures effect Q (if c then x else y) s ↔
      (c → Ensures effect Q x s) ∧ (¬ c → Ensures effect Q y s) := by
  split
  case isTrue hc => simp [hc]
  case isFalse hc => simp [hc]

theorem Ensures.mono (hQR : ∀ value s, Q value s → R value s) {x : Script Op Answer α} {s : σ}
    (hx : Ensures effect Q x s) : Ensures effect R x s := by
  induction x generalizing s with
  | done value => exact hQR value s hx
  | call op next ih =>
    intro answer s' heffect
    exact ih answer (hx answer s' heffect)

end Zmq4.CallScripts
