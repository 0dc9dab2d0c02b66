import Zmq4.DuplexProgram

namespace Zmq4.ProgramEffects

open DuplexProgram

variable {σ τ α β γ δ ε : Type}

def finalState (result : EStateM.Result Stop σ α) : σ :=
  match result with
  | .ok _ s => s
  | .error _ s => s

theorem finalState_wrapping (message : String) (x : Program σ α) (s : σ) :
    finalState ((wrapping message x).run s) = finalState (x.run s) := by
  cases hrun : x.run s with
  | ok a s' => rw [wrapping_ok hrun]
  | error stop s' =>
    cases stop with
    | fail err =>
      rw [wrapping, rescue_fail hrun]
      rfl
    | blocked => rw [wrapping, rescue_blocked hrun]
    | panicked text => rw [wrapping, rescue_panicked hrun]

def Keeps (f : σ → γ) (x : Program σ α) : Prop :=
  ∀ s, f (finalState (x.run s)) = f s

variable {s : σ} {g : α → Program σ β} {handle : Err → Program σ α}

namespace Keeps

variable {f : σ → γ}

variable {x : Program σ α} {set : σ → τ → σ}

theorem of_ok (hx : Keeps f x) {s' : σ} {a : α} (hrun : x.run s = .ok a s') : f s' = f s := by
  have hfinal := hx s
  rwa [hrun] at hfinal

theorem of_error (hx : Keeps f x) {s' : σ} {stop : Stop} (hrun : x.run s = .error stop s') :
    f s' = f s := by
  have hfinal := hx s
  rwa [hrun] at hfinal

theorem pure (a : α) : Keeps f (Pure.pure a : Program σ α) :=
  fun _ => rfl

theorem throw (stop : Stop) : Keeps f (MonadExcept.throw stop : Program σ α) :=
  fun _ => rfl

theorem failWith (err : Err) : Keeps f (failWith err : Program σ α) :=
  fun _ => rfl

theorem get : Keeps f (MonadState.get : Program σ σ) :=
  fun _ => rfl

theorem modify {g : σ → σ} (hg : ∀ s, f (g s) = f s) :
    Keeps f (modify g : Program σ PUnit) :=
  hg

theorem bind (hx : Keeps f x) (hg : ∀ a, Keeps f (g a)) : Keeps f (x >>= g) := by
  intro s
  cases hrun : x.run s with
  | ok a s' =>
    rw [bind_ok hrun, hg a s']
    exact hx.of_ok hrun
  | error stop s' =>
    rw [bind_error hrun]
    exact hx.of_error hrun

theorem bind_stuck (hx : Keeps f x) (hstuck : ∀ a s', x.run s ≠ .ok a s') :
    f (finalState ((x >>= g).run s)) = f s ∧ ∀ b s', (x >>= g).run s ≠ .ok b s' := by
  cases hrun : x.run s with
  | ok a s' => exact absurd hrun (hstuck a s')
  | error stop s' =>
    rw [bind_error hrun]
    exact ⟨hx.of_error hrun, fun b s'' heq => by cases heq⟩

theorem rescue (hx : Keeps f x) (hhandle : ∀ err, Keeps f
    (handle err)) : Keeps f (rescue x handle) := by
  intro s
  cases hrun : x.run s with
  | ok a s' =>
    rw [rescue_ok hrun]
    exact hx.of_ok hrun
  | error stop s' =>
    have hs' := hx.of_error hrun
    cases stop with
    | fail err =>
      rw [rescue_fail hrun, hhandle err s']
      exact hs'
    | blocked =>
      rw [rescue_blocked hrun]
      exact hs'
    | panicked message =>
      rw [rescue_panicked hrun]
      exact hs'

theorem wrapping {message : String} (hx : Keeps f x) : Keeps f (wrapping message x) :=
  rescue hx fun _ => failWith _

theorem require {condition : Prop} [Decidable condition] (err : Err) :
    Keeps f (require condition err : Program σ Unit) := by
  unfold DuplexProgram.require
  split
  · exact pure ()
  · exact failWith err

theorem orFail (result : Option α) (err : Err) : Keeps f (orFail result err : Program σ α) := by
  cases result with
  | none => exact failWith err
  | some a => exact pure a

theorem fromExcept (result : Except Stop α) : Keeps f (fromExcept result : Program σ α) := by
  cases result with
  | error stop => exact throw stop
  | ok a => exact pure a

theorem zoom {get : σ → τ} {g : τ → δ} {x : Program τ α} (hx : Keeps g x)
    (hset : ∀ s t, g t = g (get s) → f (set s t) = f s) : Keeps f (zoom get set x) := by
  intro s
  cases hrun : x.run (get s) with
  | ok a t =>
    rw [zoom_ok hrun]
    exact hset s t (hx.of_ok hrun)
  | error stop t =>
    rw [zoom_error hrun]
    exact hset s t (hx.of_error hrun)

theorem zoom_within {get : σ → τ} {x : Program τ α} (hself : ∀ s, set s (get s) = s)
    (hx : ∀ s, Keeps (fun t => f (set s t)) x) :
    Keeps f (DuplexProgram.zoom get set x) := by
  intro s
  have hpart : f (set s (finalState (x.run (get s)))) = f s :=
    (hx s (get s)).trans (congrArg f (hself s))
  cases hrun : x.run (get s) with
  | ok a t =>
    rw [hrun] at hpart
    rwa [zoom_ok hrun]
  | error stop t =>
    rw [hrun] at hpart
    rwa [zoom_error hrun]

theorem zoom_other {get : σ → τ} {x : Program τ α} (hset : ∀ s t, f (set s t) = f s) :
    Keeps f (DuplexProgram.zoom get set x) :=
  zoom (g := fun _ => ()) (fun _ => rfl) fun s t _ => hset s t

end Keeps

theorem readFull_keeps (size : Nat) : Keeps (fun rw => rw.output) (readFull size) := by
  intro rw
  simp only [readFull, EStateM.run]
  split
  · rfl
  · split <;> rfl

def Emits (m : σ → List ε) (es : List ε) (x : Program σ α) : Prop :=
  ∀ s a s', x.run s = .ok a s' → m s' = m s ++ es

namespace Emits

variable {m : σ → List ε} {es fs : List ε}

variable {x : Program σ α} {g : α → Program σ β}

theorem of_keeps (hx : Keeps m x) : Emits m [] x := by
  intro s a s' hrun
  rw [hx.of_ok hrun, List.append_nil]

theorem bind (hx : Emits m es x) (hg : ∀ a, Emits m fs (g a)) : Emits m (es ++ fs) (x >>= g) := by
  intro s b s'' hrun
  obtain ⟨a, s', hfirst, hsecond⟩ := bind_eq_ok_iff.mp hrun
  rw [hg a s' b s'' hsecond, hx s a s' hfirst, List.append_assoc]

theorem keeps_bind (hx : Keeps m x) (hg : ∀ a, Emits m es (g a)) : Emits m es (x >>= g) :=
  bind (of_keeps hx) hg

theorem bind_keeps (hx : Emits m es x) (hg : ∀ a, Keeps m (g a)) : Emits m es (x >>= g) := by
  have hbind := bind hx fun a => of_keeps (hg a)
  rwa [List.append_nil] at hbind

theorem wrapping {message : String} (hx : Emits m es x) : Emits m es (wrapping message x) :=
  fun s a s' hrun => hx s a s' (wrapping_eq_ok hrun)

end Emits

def Panics (result : EStateM.Result Stop σ α) : Prop :=
  ∃ message s, result = .error (.panicked message) s

def NeverPanics (x : Program σ α) : Prop :=
  ∀ s, ¬ Panics (x.run s)

namespace NeverPanics

variable {x : Program σ α}

theorem of_ok {s' : σ} {a : α} (hrun : x.run s = .ok a s') : ¬ Panics (x.run s) := by
  rw [hrun]
  rintro ⟨message, t, heq⟩
  cases heq

theorem pure (a : α) : NeverPanics (Pure.pure a : Program σ α) :=
  fun _ => of_ok rfl

theorem failWith (err : Err) : NeverPanics (failWith err : Program σ α) := by
  rintro s ⟨message, t, heq⟩
  cases heq

theorem get : NeverPanics (MonadState.get : Program σ σ) :=
  fun s => of_ok (EStateM.run_get s)

theorem modify (g : σ → σ) : NeverPanics (modify g : Program σ PUnit) :=
  fun _ => of_ok rfl

theorem bind (hx : NeverPanics x) (hg : ∀ a, NeverPanics (g a)) : NeverPanics (x >>= g) := by
  intro s
  have hfirst := hx s
  cases hrun : x.run s with
  | ok a s' =>
    rw [bind_ok hrun]
    exact hg a s'
  | error stop s' =>
    rw [bind_error hrun]
    rw [hrun] at hfirst
    rintro ⟨message, t, heq⟩
    cases heq
    exact hfirst ⟨message, s', rfl⟩

theorem rescue (hx : NeverPanics x) (hhandle : ∀ err, NeverPanics (handle err)) :
    NeverPanics (rescue x handle) := by
  intro s
  have hfirst := hx s
  cases hrun : x.run s with
  | ok a s' => exact of_ok (rescue_ok hrun)
  | error stop s' =>
    cases stop with
    | fail err =>
      rw [rescue_fail hrun]
      exact hhandle err s'
    | blocked =>
      rw [rescue_blocked hrun]
      rintro ⟨message, t, heq⟩
      cases heq
    | panicked message =>
      rw [hrun] at hfirst
      exact absurd ⟨message, s', rfl⟩ hfirst

theorem zoom {get : σ → τ} {set : σ → τ → σ} {x : Program τ α} (hx : NeverPanics x) :
    NeverPanics (zoom get set x) := by
  intro s
  have hpart := hx (get s)
  cases hrun : x.run (get s) with
  | ok a t => exact of_ok (zoom_ok hrun)
  | error stop t =>
    rw [zoom_error hrun]
    rw [hrun] at hpart
    rintro ⟨message, t', heq⟩
    cases heq
    exact hpart ⟨message, t, rfl⟩

end NeverPanics

end Zmq4.ProgramEffects
