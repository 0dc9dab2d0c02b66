import Mathlib.Data.List.Perm.Basic
import Zmq4.ActionRuns
import Zmq4.DuplexProgram

namespace Zmq4.TaskInterleaving

open ActionRuns DuplexProgram

variable {κ τ σ : Type}

/-- Calls that are carried out one atomic step after the other.  `whole` is what a task
does when it is not interrupted. -/
structure Stepped (κ τ σ : Type) where
  task : κ → τ
  next : τ → Program σ τ
  finished : τ → Bool
  whole : τ → Program σ Unit
  whole_finished : ∀ task, finished task = true → whole task = pure ()
  whole_next : ∀ task, finished task = false → whole task = next task >>= whole

inductive Status (τ : Type) where
  | fresh
  | going (left : τ)
  /-- The call has returned an error or panicked. -/
  | gone

structure Running (κ τ : Type) where
  call : κ
  status : Status τ

/-- `order` has the calls in the order of their first steps. -/
structure Pool (κ τ σ : Type) where
  shared : σ
  running : List (Running κ τ) := []
  order : List κ := []

inductive Action (κ : Type) where
  | spawn (call : κ)
  | advance (i : Nat)

def Running.begun (r : Running κ τ) : Bool :=
  match r.status with
  | .fresh => false
  | .going _ | .gone => true

variable (M : Stepped κ τ σ)

def Running.left (r : Running κ τ) : Option τ :=
  match r.status with
  | .fresh => some (M.task r.call)
  | .going left => some left
  | .gone => none

def Pool.moved (p : Pool κ τ σ) (i : Nat) (r : Running κ τ) (status : Status τ) (w : σ) :
    Pool κ τ σ where
  shared := w
  running := p.running.set i { r with status }
  order := if r.begun then p.order else p.order ++ [r.call]

/-- A task that waits takes no step. -/
def step (p : Pool κ τ σ) : Action κ → Option (Pool κ τ σ)
  | .spawn call => some { p with running := p.running ++ [⟨call, .fresh⟩] }
  | .advance i =>
    p.running[i]?.bind fun r =>
      (r.left M).bind fun left =>
        if M.finished left then none
        else
          match (M.next left).run p.shared with
          | .ok rest w => some (p.moved i r (.going rest) w)
          | .error .blocked _ => none
          | .error _ w => some (p.moved i r .gone w)

def Running.inMiddle (r : Running κ τ) : Bool :=
  match r.status with
  | .going left => !M.finished left
  | .fresh | .gone => false

def Pool.QuietBut (p : Pool κ τ σ) (i : Nat) : Prop :=
  ∀ j r, j ≠ i → p.running[j]? = some r → r.inMiddle M = false

def Pool.Quiet (p : Pool κ τ σ) : Prop :=
  ∀ r ∈ p.running, r.inMiddle M = false

/-- No task takes a step while another one is in the middle. -/
def Apart (p : Pool κ τ σ) : Action κ → Prop
  | .spawn _ => True
  | .advance i => p.QuietBut M i

def settled : EStateM.Result Stop σ Unit → Option σ
  | .ok _ w => some w
  | .error .blocked _ => none
  | .error _ w => some w

/-- A call that is carried out in one step. -/
def atomic (w : σ) (call : κ) : Option σ :=
  settled ((M.whole (M.task call)).run w)

/-- At most one task is in the middle, and the calls that have begun, carried out one
after the other, leave what it will leave. -/
inductive Serial (start : σ) (p : Pool κ τ σ) : Prop where
  | quiet : p.Quiet M → run (atomic M) start p.order = some p.shared → Serial start p
  | middle (i : Nat) (call : κ) (left : τ) : p.running[i]? = some ⟨call, .going left⟩ →
      p.QuietBut M i →
      run (atomic M) start p.order = settled ((M.whole left).run p.shared) → Serial start p

variable {M} {start : σ} {p p' : Pool κ τ σ} {r : Running κ τ} {left : τ} {i : Nat}
  {action : Action κ} {actions : List (Action κ)}

theorem step_cases (hstep : step M p action = some p') :
    (∃ call, action = .spawn call ∧ p' = { p with running := p.running ++ [⟨call, .fresh⟩] }) ∨
    ∃ i r left, action = .advance i ∧ p.running[i]? = some r ∧ r.left M = some left ∧
      M.finished left = false ∧
      ((∃ rest w, (M.next left).run p.shared = .ok rest w ∧ p' = p.moved i r (.going rest) w) ∨
        ∃ stop w, stop ≠ .blocked ∧ (M.next left).run p.shared = .error stop w ∧
          p' = p.moved i r .gone w) := by
  cases action with
  | spawn call => exact .inl ⟨call, rfl, (Option.some_inj.mp hstep).symm⟩
  | advance i =>
    obtain ⟨r, hr, hstep⟩ := Option.bind_eq_some_iff.mp hstep
    obtain ⟨left, hleft, hstep⟩ := Option.bind_eq_some_iff.mp hstep
    obtain ⟨hfinished, hstep⟩ := Option.ite_none_left_eq_some.mp hstep
    refine .inr ⟨i, r, left, rfl, hr, hleft, Bool.eq_false_iff.mpr hfinished, ?_⟩
    split at hstep
    · rename_i rest w hnext
      exact .inl ⟨rest, w, hnext, (Option.some_inj.mp hstep).symm⟩
    · cases hstep
    · rename_i stop w hblocked hnext
      exact .inr ⟨stop, w, hblocked, hnext, (Option.some_inj.mp hstep).symm⟩

theorem settled_error {stop : Stop} (hstop : stop ≠ .blocked) (w : σ) :
    settled (.error stop w) = some w := by
  cases stop with
  | blocked => exact absurd rfl hstop
  | panicked | fail => rfl

theorem settled_whole_finished (hdone : M.finished left = true) (w : σ) :
    settled ((M.whole left).run w) = some w := by
  rw [M.whole_finished left hdone]
  rfl

section Serial

theorem QuietBut.moved (hothers : p.QuietBut M i) (status : Status τ) (w : σ) :
    (p.moved i r status w).QuietBut M i := by
  intro j other hj hother
  rw [Pool.moved, List.getElem?_set_ne (Ne.symm hj)] at hother
  exact hothers j other hj hother

theorem quiet_of_gone (hothers : p.QuietBut M i) (w : σ) : (p.moved i r .gone w).Quiet M := by
  intro other hother
  obtain ⟨j, hj⟩ := List.mem_iff_getElem?.mp hother
  rcases eq_or_ne j i with rfl | hne
  · rw [Pool.moved, List.getElem?_set_self'] at hj
    obtain ⟨_, -, rfl⟩ := Option.map_eq_some_iff.mp hj
    rfl
  · exact QuietBut.moved hothers .gone w j other hne hj

theorem Serial.run_order (hp : Serial M start p) (hothers : p.QuietBut M i)
    (hr : p.running[i]? = some r) (hfresh : r.status = .fresh) :
    run (atomic M) start p.order = some p.shared := by
  rcases hp with ⟨-, hrun⟩ | ⟨j, call, left, hj, -, hrun⟩
  · exact hrun
  · have hji : j ≠ i := by
      rintro rfl
      cases hr.symm.trans hj
      cases hfresh
    have hdone : M.finished left = true := by
      simpa [Running.inMiddle] using hothers j _ hji hj
    rw [hrun, settled_whole_finished hdone]

theorem Serial.run_moved (hp : Serial M start p) (hothers : p.QuietBut M i)
    (hr : p.running[i]? = some r) (hleft : r.left M = some left)
    (hfinished : M.finished left = false) (status : Status τ) (w : σ) :
    run (atomic M) start (p.moved i r status w).order =
      settled ((M.whole left).run p.shared) := by
  obtain ⟨call, _ | rest | _⟩ := r
  · have hrun := hp.run_order hothers hr rfl
    obtain rfl := Option.some_inj.mp hleft
    change run (atomic M) start (p.order ++ [call]) = _
    rw [run_append, hrun]
    exact bind_pure (m := Option) _
  · obtain rfl := Option.some_inj.mp hleft
    rcases hp with ⟨hquiet, -⟩ | ⟨j, other, left', hj, hquiet, hrun⟩
    · have hmiddle := hquiet _ (List.mem_of_getElem? hr)
      simp [Running.inMiddle, hfinished] at hmiddle
    · have hij : i = j := by
        by_contra hij
        have hmiddle := hquiet i _ hij hr
        simp [Running.inMiddle, hfinished] at hmiddle
      subst hij
      cases hr.symm.trans hj
      exact hrun
  · cases hleft

theorem serial_step (hp : Serial M start p) (hapart : Apart M p action)
    (hstep : step M p action = some p') : Serial M start p' := by
  obtain ⟨call, rfl, rfl⟩ | ⟨i, r, left, rfl, hr, hleft, hfinished, hnext⟩ := step_cases hstep
  · rcases hp with ⟨hquiet, hrun⟩ | ⟨i, other, left, hi, hquiet, hrun⟩
    · exact .quiet (List.forall_mem_append.mpr ⟨hquiet, List.forall_mem_singleton.mpr rfl⟩) hrun
    · obtain ⟨hlt, -⟩ := List.getElem?_eq_some_iff.mp hi
      refine .middle i other left ((List.getElem?_append_left hlt).trans hi) ?_ hrun
      intro j r hj hr
      rw [List.getElem?_append] at hr
      split at hr
      · exact hquiet j r hj hr
      · obtain rfl := List.mem_singleton.mp (List.mem_of_getElem? hr)
        rfl
  · have hrun := hp.run_moved hapart hr hleft hfinished
    rw [M.whole_next left hfinished] at hrun
    obtain ⟨hlt, -⟩ := List.getElem?_eq_some_iff.mp hr
    obtain ⟨rest, w, hok, rfl⟩ | ⟨stop, w, hstop, herror, rfl⟩ := hnext
    · refine .middle i r.call rest ?_ (QuietBut.moved hapart _ w) ?_
      · simp [Pool.moved, hlt]
      · rw [hrun, bind_ok hok]
        rfl
    · refine .quiet (quiet_of_gone hapart w) ?_
      rw [hrun, bind_error herror, settled_error hstop]
      rfl

/-- Calls that keep apart might as well be carried out one after the other. -/
theorem run_atomic_of_apart (hapart : Throughout (step M) (Apart M) { shared := start } actions)
    (hrun : run (step M) { shared := start } actions = some p) (hquiet : p.Quiet M) :
    run (atomic M) start p.order = some p.shared := by
  have hp : Serial M start p :=
    run_keeps_of_throughout (fun _ _ _ hp hC hstep => serial_step hp hC hstep) hapart
      (.quiet nofun rfl) hrun
  rcases hp with ⟨-, hserial⟩ | ⟨i, call, left, hi, -, hserial⟩
  · exact hserial
  · have hdone : M.finished left = true := by
      simpa [Running.inMiddle] using hquiet _ (List.mem_of_getElem? hi)
    rw [hserial, settled_whole_finished hdone]

end Serial

section Order

def Pool.begun (p : Pool κ τ σ) : List κ :=
  (p.running.filter Running.begun).map Running.call

theorem begun_moved (hr : p.running[i]? = some r) (hp : p.order.Perm p.begun) (status : Status τ)
    (hstatus : status ≠ .fresh) (w : σ) :
    (p.moved i r status w).order.Perm (p.moved i r status w).begun := by
  obtain ⟨hlt, hget⟩ := List.getElem?_eq_some_iff.mp hr
  have hbegun : Running.begun { r with status } = true := by
    cases status with
    | fresh => exact absurd rfl hstatus
    | going | gone => rfl
  have hset : (p.moved i r status w).begun.Perm
      (r.call :: ((p.running.eraseIdx i).filter Running.begun).map Running.call) := by
    have hperm := ((List.set_perm_cons_eraseIdx hlt { r with status }).filter Running.begun).map
      Running.call
    rwa [List.filter_cons_of_pos hbegun] at hperm
  have hold : p.begun.Perm
      (((r :: p.running.eraseIdx i).filter Running.begun).map Running.call) := by
    have hperm := List.getElem_cons_eraseIdx_perm hlt
    rw [hget] at hperm
    exact (hperm.symm.filter Running.begun).map Running.call
  refine List.Perm.trans ?_ hset.symm
  cases hfirst : r.begun with
  | true =>
    rw [List.filter_cons_of_pos hfirst] at hold
    simpa [Pool.moved, hfirst] using hp.trans hold
  | false =>
    rw [List.filter_cons_of_neg (by simp [hfirst])] at hold
    simpa [Pool.moved, hfirst] using (List.perm_append_singleton _ _).trans ((hp.trans hold).cons _)

/-- Each call that has begun is in the order once. -/
theorem order_perm_begun (hrun : run (step M) { shared := start } actions = some p) :
    p.order.Perm p.begun := by
  refine run_keeps (I := fun p : Pool κ τ σ => p.order.Perm p.begun) ?_ (.refl []) hrun
  intro p action p' hp hstep
  obtain ⟨call, -, rfl⟩ | ⟨i, r, left, -, hr, -, -, hnext⟩ := step_cases hstep
  · simpa [Pool.begun, Running.begun] using hp
  · obtain ⟨rest, w, -, rfl⟩ | ⟨stop, w, -, -, rfl⟩ := hnext
    · exact begun_moved hr hp (.going rest) nofun w
    · exact begun_moved hr hp .gone nofun w

theorem unfinished_of_mem_order (hrun : run (step M) { shared := start } actions = some p) :
    ∀ call ∈ p.order, M.finished (M.task call) = false := by
  refine run_keeps (I := fun p => ∀ call ∈ p.order, M.finished (M.task call) = false) ?_
    (by simp) hrun
  intro p action p' hp hstep
  obtain ⟨call, -, rfl⟩ | ⟨i, ⟨call, status⟩, left, -, -, hleft, hfinished, hnext⟩ :=
    step_cases hstep
  · exact hp
  · have horder : ∀ other ∈ if Running.begun ⟨call, status⟩ then p.order else p.order ++ [call],
        M.finished (M.task other) = false := by
      cases status with
      | fresh =>
        obtain rfl := Option.some_inj.mp hleft
        exact List.forall_mem_append.mpr ⟨hp, List.forall_mem_singleton.mpr hfinished⟩
      | going | gone => exact hp
    obtain ⟨rest, w, -, rfl⟩ | ⟨stop, w, -, -, rfl⟩ := hnext
    · exact horder
    · exact horder

theorem spawned_of_mem_running (hrun : run (step M) p actions = some p') (hr : r ∈ p'.running) :
    (∃ old ∈ p.running, old.call = r.call) ∨ .spawn r.call ∈ actions := by
  induction actions generalizing p with
  | nil =>
    obtain rfl : p = p' := by simpa using hrun
    exact .inl ⟨r, hr, rfl⟩
  | cons action actions ih =>
    obtain ⟨q, hstep, hrest⟩ := run_cons_eq_some_iff.mp hrun
    rcases ih hrest with ⟨old, hold, hcall⟩ | hspawn
    · have hmoved : ∀ i r' status w, p.running[i]? = some r' → q = p.moved i r' status w →
          ∃ old ∈ p.running, old.call = r.call := by
        rintro i r' status w hr' rfl
        rcases List.mem_or_eq_of_mem_set hold with hold | rfl
        · exact ⟨old, hold, hcall⟩
        · exact ⟨r', List.mem_of_getElem? hr', hcall⟩
      obtain ⟨call, rfl, rfl⟩ | ⟨i, r', left, -, hr', -, -, hnext⟩ := step_cases hstep
      · rcases List.mem_append.mp hold with hold | hnew
        · exact .inl ⟨old, hold, hcall⟩
        · obtain rfl := List.mem_singleton.mp hnew
          exact .inr (hcall ▸ List.mem_cons_self)
      · obtain ⟨rest, w, -, hq⟩ | ⟨stop, w, -, -, hq⟩ := hnext
        · exact .inl (hmoved i r' _ w hr' hq)
        · exact .inl (hmoved i r' _ w hr' hq)
    · exact .inr (List.mem_cons_of_mem action hspawn)

theorem spawned_of_mem_order (hrun : run (step M) { shared := start } actions = some p) {call : κ}
    (hcall : call ∈ p.order) : .spawn call ∈ actions := by
  obtain ⟨r, hr, rfl⟩ := List.mem_map.mp ((order_perm_begun hrun).mem_iff.mp hcall)
  rcases spawned_of_mem_running hrun (List.mem_of_mem_filter hr) with ⟨_, ⟨⟩, -⟩ | hspawn
  exact hspawn

end Order

end Zmq4.TaskInterleaving
