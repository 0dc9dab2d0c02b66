import Zmq4.ProgramEffects

namespace Zmq4.ProgramStreams

open ByteCodec DuplexProgram ProgramEffects

variable {σ τ α β : Type}

/-- How more input reaches a state, and what has been written in it. -/
structure Feed (σ : Type) where
  feed : Bytes → σ → σ
  written : σ → List Bytes
  written_feed : ∀ more s, written (feed more s) = written s

attribute [simp] Feed.written_feed

/-- Nothing arrives behind the end of a stream. -/
def duplexFeed : Feed Duplex where
  feed more rw := if rw.closedByPeer then rw else { rw with input := rw.input ++ more }
  written rw := rw.output
  written_feed more rw := by
    split <;> rfl

def mapState (f : σ → σ) : EStateM.Result Stop σ α → EStateM.Result Stop σ α
  | .ok a s => .ok a (f s)
  | .error stop s => .error stop (f s)

def Waiting (result : EStateM.Result Stop σ α) : Prop :=
  ∃ s, result = .error .blocked s

structure Streams (F : Feed σ) (x : Program σ α) : Prop where
  grows : ∀ s, F.written s <+: F.written (finalState (x.run s))
  settles : ∀ s more, Waiting (x.run s) ∨ x.run (F.feed more s) = mapState (F.feed more) (x.run s)
  continues : ∀ s more,
    F.written (finalState (x.run s)) <+: F.written (finalState (x.run (F.feed more s)))

namespace Streams

variable {F : Feed σ} {x : Program σ α}

theorem of_settles (hgrows : ∀ s, F.written s <+: F.written (finalState (x.run s)))
    (hsettles : ∀ s more, x.run (F.feed more s) = mapState (F.feed more) (x.run s)) :
    Streams F x where
  grows := hgrows
  settles s more := Or.inr (hsettles s more)
  continues s more := by
    rw [hsettles]
    cases x.run s with
    | ok a t | error a t => simp only [mapState, finalState, F.written_feed, List.prefix_rfl]

theorem of_ok (hx : Streams F x) {s s' : σ} {a : α} (hrun : x.run s = .ok a s') (more : Bytes) :
    x.run (F.feed more s) = .ok a (F.feed more s') := by
  rcases hx.settles s more with ⟨t, hwait⟩ | hsettled
  · rw [hrun] at hwait
    cases hwait
  · rw [hsettled, hrun]
    rfl

theorem of_error (hx : Streams F x) {s s' : σ} {stop : Stop} (hrun : x.run s = .error stop s')
    (hstop : stop ≠ .blocked) (more : Bytes) :
    x.run (F.feed more s) = .error stop (F.feed more s') := by
  rcases hx.settles s more with ⟨t, hwait⟩ | hsettled
  · rw [hrun] at hwait
    cases hwait
    exact absurd rfl hstop
  · rw [hsettled, hrun]
    rfl

theorem pure (a : α) : Streams F (Pure.pure a) :=
  of_settles (fun _ => List.prefix_refl _) fun _ _ => rfl

theorem throw (stop : Stop) : Streams F (MonadExcept.throw stop : Program σ α) :=
  of_settles (fun _ => List.prefix_refl _) fun _ _ => rfl

theorem failWith (err : Err) : Streams F (failWith err : Program σ α) :=
  throw (.fail err)

theorem panicWith (message : String) : Streams F (panicWith message : Program σ α) :=
  throw (.panicked message)

theorem fromExcept (result : Except Stop α) : Streams F (fromExcept result) := by
  cases result with
  | error stop => exact throw stop
  | ok a => exact pure a

theorem require {condition : Prop} [Decidable condition] (err : Err) :
    Streams F (require condition err) := by
  unfold DuplexProgram.require
  split
  · exact pure ()
  · exact failWith err

theorem modify {g : σ → σ} (hfeed : ∀ more s, g (F.feed more s) = F.feed more (g s))
    (hwritten : ∀ s, F.written (g s) = F.written s) : Streams F (modify g : Program σ PUnit) := by
  apply of_settles
  · intro s
    change F.written s <+: F.written (g s)
    simp only [hwritten, List.prefix_rfl]
  · intro s more
    change EStateM.Result.ok _ (g (F.feed more s)) = _
    rw [hfeed]
    rfl

variable {g : α → Program σ β}

theorem bind_grows (hg : ∀ a, Streams F (g a)) (s : σ) :
    F.written (finalState (x.run s)) <+: F.written (finalState ((x >>= g).run s)) := by
  cases hrun : x.run s with
  | ok a s' =>
    rw [bind_ok hrun]
    exact (hg a).grows s'
  | error stop s' => rw [bind_error hrun]; exact List.prefix_refl _

theorem bind (hx : Streams F x) (hg : ∀ a, Streams F (g a)) : Streams F (x >>= g) where
  grows s := (hx.grows s).trans (bind_grows hg s)
  settles s more := by
    cases hrun : x.run s with
    | ok a s' =>
      rw [bind_ok hrun, bind_ok (hx.of_ok hrun more)]
      exact (hg a).settles s' more
    | error stop s' =>
      rw [bind_error hrun]
      by_cases hstop : stop = .blocked
      · subst hstop
        exact Or.inl ⟨s', rfl⟩
      · rw [bind_error (hx.of_error hrun hstop more)]
        exact Or.inr rfl
  continues s more := by
    cases hrun : x.run s with
    | ok a s' =>
      rw [bind_ok hrun, bind_ok (hx.of_ok hrun more)]
      exact (hg a).continues s' more
    | error stop s' =>
      have hfirst := hx.continues s more
      rw [hrun] at hfirst
      rw [bind_error hrun]
      exact hfirst.trans (bind_grows hg _)

theorem get_bind {f : σ → Program σ β} (hf : ∀ more s, f (F.feed more s) = f s)
    (hx : ∀ s, Streams F (f s)) : Streams F (get >>= f) where
  grows s := (hx s).grows s
  settles s more := by
    rw [bind_ok (EStateM.run_get s), bind_ok (EStateM.run_get (F.feed more s)), hf]
    exact (hx s).settles s more
  continues s more := by
    rw [bind_ok (EStateM.run_get s), bind_ok (EStateM.run_get (F.feed more s)), hf]
    exact (hx s).continues s more

variable {handle : Err → Program σ α}

theorem rescue_grows (hhandle : ∀ err, Streams F (handle err)) (s : σ) :
    F.written (finalState (x.run s)) <+: F.written (finalState ((rescue x handle).run s)) := by
  cases hrun : x.run s with
  | ok a s' => simp only [rescue_ok hrun, List.prefix_rfl]
  | error stop s' =>
    cases stop with
    | fail err =>
      rw [rescue_fail hrun]
      exact (hhandle err).grows s'
    | blocked => simp only [rescue_blocked hrun, List.prefix_rfl]
    | panicked message => simp only [rescue_panicked hrun, List.prefix_rfl]

theorem rescue (hx : Streams F x) (hhandle : ∀ err, Streams F (handle err)) :
    Streams F (rescue x handle) where
  grows s := (hx.grows s).trans (rescue_grows hhandle s)
  settles s more := by
    cases hrun : x.run s with
    | ok a s' =>
      rw [rescue_ok hrun, rescue_ok (hx.of_ok hrun more)]
      exact Or.inr rfl
    | error stop s' =>
      cases stop with
      | fail err =>
        rw [rescue_fail hrun, rescue_fail (hx.of_error hrun (by simp) more)]
        exact (hhandle err).settles s' more
      | blocked =>
        rw [rescue_blocked hrun]
        exact Or.inl ⟨s', rfl⟩
      | panicked message =>
        rw [rescue_panicked hrun, rescue_panicked (hx.of_error hrun (by simp) more)]
        exact Or.inr rfl
  continues s more := by
    have hfirst := hx.continues s more
    cases hrun : x.run s with
    | ok a s' =>
      rw [hrun] at hfirst
      rw [rescue_ok hrun]
      exact hfirst.trans (rescue_grows hhandle _)
    | error stop s' =>
      rw [hrun] at hfirst
      cases stop with
      | fail err =>
        rw [rescue_fail hrun, rescue_fail (hx.of_error hrun (by simp) more)]
        exact (hhandle err).continues s' more
      | blocked =>
        rw [rescue_blocked hrun]
        exact hfirst.trans (rescue_grows hhandle _)
      | panicked message =>
        rw [rescue_panicked hrun]
        exact hfirst.trans (rescue_grows hhandle _)

theorem wrapping {message : String} (hx : Streams F x) : Streams F (wrapping message x) :=
  rescue hx fun _ => failWith _

variable {set : σ → τ → σ}

theorem zoom_other {get : σ → τ} (x : Program τ α) (hget : ∀ more s, get (F.feed more s) = get s)
    (hset : ∀ more s t, set (F.feed more s) t = F.feed more (set s t))
    (hwritten : ∀ s t, F.written (set s t) = F.written s) : Streams F (zoom get set x) := by
  apply of_settles
  · intro s
    cases hrun : x.run (get s) with
    | ok a t => rw [zoom_ok hrun]; exact (hwritten s t).symm ▸ List.prefix_refl _
    | error stop t => rw [zoom_error hrun]; exact (hwritten s t).symm ▸ List.prefix_refl _
  · intro s more
    cases hrun : x.run (get s) with
    | ok a t =>
      rw [zoom_ok hrun, zoom_ok (s := F.feed more s) (by rw [hget, hrun]), hset]
      rfl
    | error stop t =>
      rw [zoom_error hrun, zoom_error (s := F.feed more s) (by rw [hget, hrun]), hset]
      rfl

theorem zoom {G : Feed τ} {get : σ → τ} {x : Program τ α} (hx : Streams G x)
    (hget : ∀ more s, get (F.feed more s) = G.feed more (get s))
    (hset : ∀ more s t, set (F.feed more s) (G.feed more t) = F.feed more (set s t))
    (hself : ∀ s, F.written s = G.written (get s))
    (hwritten : ∀ s t, F.written (set s t) = G.written t) : Streams F (zoom get set x) where
  grows s := by
    have hpart := hx.grows (get s)
    rw [← hself] at hpart
    cases hrun : x.run (get s) with
    | ok a t =>
      rw [hrun] at hpart
      rw [zoom_ok hrun]
      exact (hwritten s t).symm ▸ hpart
    | error stop t =>
      rw [hrun] at hpart
      rw [zoom_error hrun]
      exact (hwritten s t).symm ▸ hpart
  settles s more := by
    cases hrun : x.run (get s) with
    | ok a t =>
      have hmore := hx.of_ok hrun more
      rw [← hget] at hmore
      rw [zoom_ok hrun, zoom_ok hmore, hset]
      exact Or.inr rfl
    | error stop t =>
      rw [zoom_error hrun]
      by_cases hstop : stop = .blocked
      · subst hstop
        exact Or.inl ⟨_, rfl⟩
      · have hmore := hx.of_error hrun hstop more
        rw [← hget] at hmore
        rw [zoom_error hmore, hset]
        exact Or.inr rfl
  continues s more := by
    have hfinal : ∀ s, F.written (finalState ((DuplexProgram.zoom get set x).run s)) =
        G.written (finalState (x.run (get s))) := by
      intro s
      cases hrun : x.run (get s) with
      | ok a t => rw [zoom_ok hrun]; exact hwritten s t
      | error stop t => rw [zoom_error hrun]; exact hwritten s t
    rw [hfinal, hfinal, hget]
    exact hx.continues (get s) more

end Streams

section Duplex

theorem readFull_streams (size : Nat) : Streams duplexFeed (readFull size) := by
  have hwritten : ∀ rw, duplexFeed.written (finalState ((readFull size).run rw)) =
      duplexFeed.written rw := readFull_keeps size
  refine ⟨fun rw => by simp [hwritten], ?_, fun rw more => by simp [hwritten]⟩
  intro rw more
  by_cases hsize : size ≤ rw.input.length
  · right
    by_cases hclosed : rw.closedByPeer = true
    · simp [readFull, EStateM.run, duplexFeed, mapState, hsize, hclosed]
    · have hmore : size ≤ rw.input.length + more.length := by omega
      simp [readFull, EStateM.run, duplexFeed, mapState, hsize, hclosed, hmore,
        List.take_append_of_le_length, List.drop_append_of_le_length]
  · by_cases hclosed : rw.closedByPeer = true
    · right
      simp [readFull, EStateM.run, duplexFeed, mapState, hsize, hclosed]
    · left
      exact ⟨rw, by simp [readFull, EStateM.run, hsize, hclosed]⟩

theorem write_streams (buffer : Bytes) : Streams duplexFeed (write buffer) := by
  apply Streams.of_settles
  · intro rw
    cases hwrite : rw.writeErr with
    | none => simp [write, EStateM.run, hwrite, finalState, duplexFeed]
    | some err => simp [write, EStateM.run, hwrite, finalState]
  · intro rw more
    cases hclosed : rw.closedByPeer <;> cases hwrite : rw.writeErr <;>
      simp [write, EStateM.run, duplexFeed, mapState, hclosed, hwrite]

end Duplex

end Zmq4.ProgramStreams
