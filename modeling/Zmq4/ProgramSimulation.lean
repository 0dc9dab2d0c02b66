import Zmq4.ProgramEffects

namespace Zmq4.ProgramSimulation

open DuplexProgram

variable {σ τ α β : Type}

def Tracks (R : σ → σ → Prop) (x : Program σ α) (Q : σ → σ → Prop) : Prop :=
  ∀ s t, R s t → ∀ a s', x.run s = .ok a s' → ∃ t', x.run t = .ok a t' ∧ Q s' t'

namespace Tracks

variable {R Q Q' : σ → σ → Prop}

theorem pure (a : α) : Tracks R (Pure.pure a) R := by
  intro s t hst b s' hrun
  cases hrun
  exact ⟨t, rfl, hst⟩

theorem throw (stop : Stop) : Tracks R (MonadExcept.throw stop : Program σ α) Q := by
  intro s t hst a s' hrun
  cases hrun

theorem failWith (err : Err) : Tracks R (failWith err : Program σ α) Q :=
  throw (.fail err)

theorem fromExcept (result : Except Stop α) : Tracks R (fromExcept result) R := by
  cases result with
  | error stop => exact throw stop
  | ok a => exact pure a

theorem bind {x : Program σ α} {f : α → Program σ β} (hx : Tracks R x Q)
    (hf : ∀ a, Tracks Q (f a) Q') : Tracks R (x >>= f) Q' := by
  intro s t hst b s'' hrun
  obtain ⟨a, s', hfirst, hsecond⟩ := bind_eq_ok_iff.mp hrun
  obtain ⟨t', hfirst', hst'⟩ := hx s t hst a s' hfirst
  obtain ⟨t'', hsecond', hst''⟩ := hf a s' t' hst' b s'' hsecond
  exact ⟨t'', bind_eq_ok_iff.mpr ⟨a, t', hfirst', hsecond'⟩, hst''⟩

/-- What a program does with the state it reads depends on related parts
only. -/
theorem get_bind {f : σ → Program σ β} (hf : ∀ s t, R s t → f s = f t)
    (hx : ∀ s, Tracks R (f s) Q) : Tracks R (get >>= f) Q := by
  intro s t hst a s' hrun
  obtain ⟨t', hrun', hst'⟩ := hx s s t hst a s' hrun
  refine ⟨t', ?_, hst'⟩
  rw [bind_ok (EStateM.run_get t), ← hf s t hst]
  exact hrun'

theorem wrapping {message : String} {x : Program σ α} (hx : Tracks R x Q) :
    Tracks R (wrapping message x) Q := by
  intro s t hst a s' hrun
  obtain ⟨t', hrun', hst'⟩ := hx s t hst a s' (wrapping_eq_ok hrun)
  exact ⟨t', wrapping_ok hrun', hst'⟩

theorem require {condition : Prop} [Decidable condition] (err : Err) :
    Tracks R (require condition err) R := by
  intro s t hst a s' hrun
  obtain ⟨hcondition, rfl⟩ := require_eq_ok_iff.mp hrun
  exact ⟨t, require_ok t hcondition, hst⟩

theorem orFail (result : Option α) (err : Err) : Tracks R (orFail result err) R := by
  intro s t hst a s' hrun
  obtain ⟨hresult, rfl⟩ := orFail_eq_ok_iff.mp hrun
  exact ⟨t, orFail_eq_ok_iff.mpr ⟨hresult, rfl⟩, hst⟩

theorem zoom_same {get : σ → τ} {set : σ → τ → σ} {x : Program τ α}
    (hget : ∀ s t, R s t → get s = get t) (hset : ∀ s t part, R s t → Q (set s part) (set t part)) :
    Tracks R (zoom get set x) Q := by
  intro s t hst a s' hrun
  obtain ⟨part, hpart, rfl⟩ := zoom_eq_ok_iff.mp hrun
  rw [hget s t hst] at hpart
  exact ⟨set t part, zoom_ok hpart, hset s t part hst⟩

theorem both {x : Program σ α} (hx : Tracks R x Q) {s t : σ} (hst : R s t) (hts : R t s) :
    (∃ a s' t', x.run s = .ok a s' ∧ x.run t = .ok a t' ∧ Q s' t') ∨
      ∃ stop stop' s' t', x.run s = .error stop s' ∧ x.run t = .error stop' t' := by
  cases hs : x.run s with
  | ok a s' =>
    obtain ⟨t', ht, hst'⟩ := hx s t hst a s' hs
    exact .inl ⟨a, s', t', rfl, ht, hst'⟩
  | error stop s' =>
    cases ht : x.run t with
    | ok b t' =>
      obtain ⟨s'', hs', -⟩ := hx t s hts b t' ht
      rw [hs] at hs'
      cases hs'
    | error stop' t' => exact .inr ⟨stop, stop', s', t', rfl, rfl⟩

end Tracks

end Zmq4.ProgramSimulation
