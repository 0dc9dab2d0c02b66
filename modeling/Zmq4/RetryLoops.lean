import Mathlib.Data.List.Range
import Mathlib.Order.Monotone.Basic

namespace Zmq4.RetryLoops

variable {σ : Type} (live : σ → Prop) [DecidablePred live] (next : Bool → σ → σ)

def after : List Bool → σ → σ
  | [], s => s
  | r :: rs, s => if live s then after rs (next r s) else s

def firsts (results : Nat → Bool) (n : Nat) : List Bool :=
  (List.range n).map results

theorem firsts_succ (results : Nat → Bool) (n : Nat) :
    firsts results (n + 1) = firsts results n ++ [results n] := by
  rw [firsts, List.range_succ, List.map_append]
  rfl

theorem after_ended {s : σ} (hs : ¬ live s) (rs : List Bool) : after live next rs s = s := by
  cases rs with
  | nil => rfl
  | cons r rs => rw [after, if_neg hs]

theorem after_concat (rs : List Bool) (r : Bool) (s : σ) :
    after live next (rs ++ [r]) s =
      if live (after live next rs s) then next r (after live next rs s)
      else after live next rs s := by
  induction rs generalizing s with
  | nil => rfl
  | cons r' rs ih =>
    by_cases hs : live s
    · rw [List.cons_append, after, after, if_pos hs, ih, if_pos hs]
    · rw [List.cons_append, after_ended live next hs, after_ended live next hs, if_neg hs]

section Stream

variable {live next} {results : Nat → Bool} {s : σ}

theorem after_firsts_succ {n : Nat} (hlive : live (after live next (firsts results n) s)) :
    after live next (firsts results (n + 1)) s =
      next (results n) (after live next (firsts results n) s) := by
  rw [firsts_succ, after_concat, if_pos hlive]

theorem live_of_le {n m : Nat} (hle : n ≤ m)
    (hlive : live (after live next (firsts results m) s)) :
    live (after live next (firsts results n) s) := by
  induction hle with
  | refl => exact hlive
  | @step m hle ih =>
    apply ih
    by_contra hended
    rw [firsts_succ, after_concat, if_neg hended] at hlive
    exact hended hlive

theorem live_of_failures (hfail : ∀ s, live s → live (next false s)) {n : Nat}
    (hlive : live (after live next (firsts results n) s))
    (hresults : ∀ m, n ≤ m → results m = false) (m : Nat) :
    live (after live next (firsts results m) s) := by
  have hlater : ∀ k, live (after live next (firsts results (n + k)) s) := by
    intro k
    induction k with
    | zero => exact hlive
    | succ k ih =>
      rw [← Nat.add_assoc, after_firsts_succ ih, hresults (n + k) (by omega)]
      exact hfail _ ih
  exact live_of_le (Nat.le_add_left m n) (hlater m)

/-- The loop ends unless from some point on all its rounds fail. -/
theorem ends_iff (measure : σ → Nat) (hfail : ∀ s, live s → live (next false s))
    (hle : ∀ s, live s → measure (next false s) ≤ measure s)
    (hlt : ∀ s, live s → measure (next true s) < measure s) :
    (∃ n, ¬ live (after live next (firsts results n) s)) ↔
      ∀ n, live (after live next (firsts results n) s) → ∃ m, n ≤ m ∧ results m = true := by
  constructor
  · rintro ⟨n, hended⟩ k hlive
    by_contra hnone
    apply hended
    apply live_of_failures hfail hlive
    intro m hm
    apply Bool.eq_false_iff.mpr
    intro hsuccess
    exact hnone ⟨m, hm, hsuccess⟩
  · intro hsuccess
    by_contra hlive
    simp only [not_exists, not_not] at hlive
    let left n := measure (after live next (firsts results n) s)
    have hstep : ∀ n, left (n + 1) ≤ left n := by
      intro n
      simp only [left, after_firsts_succ (hlive n)]
      cases results n with
      | false => exact hle _ (hlive n)
      | true => exact (hlt _ (hlive n)).le
    have hbound : ∀ k n, left n < k → False := by
      intro k
      induction k with
      | zero => exact fun n hn => absurd hn (Nat.not_lt_zero _)
      | succ k ih =>
        intro n hn
        obtain ⟨m, hm, hresult⟩ := hsuccess n (hlive n)
        have hdrop : left (m + 1) < left m := by
          simp only [left, after_firsts_succ (hlive m), hresult]
          exact hlt _ (hlive m)
        have hless : left m ≤ left n := antitone_nat_of_succ_le hstep hm
        exact ih (m + 1) (by omega)
    exact hbound _ 0 (Nat.lt_succ_self _)

end Stream

/-- Where each success lowers a bound by one and each failure keeps it, the loop goes on
as long as the successes have not reached the bound. -/
theorem live_after_iff {live : σ → Prop} [DecidablePred live] {next : Bool → σ → σ}
    (I : σ → Prop) (bound : σ → Nat) (hlive : ∀ s, I s → (live s ↔ 0 < bound s))
    (hnext : ∀ r s, I s → live s → I (next r s) ∧ bound (next r s) + r.toNat = bound s)
    {rs : List Bool} {s : σ} (hs : I s) :
    live (after live next rs s) ↔ rs.count true < bound s := by
  induction rs generalizing s with
  | nil => exact hlive s hs
  | cons r rs ih =>
    by_cases hgoes : live s
    · obtain ⟨hkept, hbound⟩ := hnext r s hs hgoes
      rw [after, if_pos hgoes, ih hkept, ← hbound]
      cases r with
      | false | true => simp
    · have hzero : bound s = 0 := Nat.eq_zero_of_not_pos (mt (hlive s hs).mpr hgoes)
      rw [after_ended live next hgoes, hzero]
      simp [hgoes]

end Zmq4.RetryLoops
