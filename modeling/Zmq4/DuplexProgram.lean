import Zmq4.ByteCodec

namespace Zmq4.DuplexProgram

open ByteCodec

/-- Error values.  Sentinel errors are told apart by their text. -/
inductive Err where
  | eof
  | unexpectedEof
  | net (timeout : Bool)
  | text (message : String)
  | wrap (message : String) (inner : Err)
  deriving DecidableEq

def Err.isEof : Err → Bool
  | .eof => true
  | .wrap _ inner => inner.isEof
  | _ => false

def Err.netTimeout : Err → Option Bool
  | .net timeout => some timeout
  | .wrap _ inner => inner.netTimeout
  | _ => none

inductive Stop where
  | blocked
  | panicked (message : String)
  | fail (err : Err)
  deriving DecidableEq

abbrev Program (σ α : Type) := EStateM Stop σ α

section Rules

variable {σ τ α β : Type}

variable {x : Program σ α} {f : α → Program σ β} {s s' : σ} {a : α} {condition : Prop} {err : Err}
  {handle : Err → Program σ α} {message : String} {get : σ → τ} {set : σ → τ → σ}

theorem bind_ok (hx : x.run s = .ok a s') : (x >>= f).run s = (f a).run s' := by
  rw [EStateM.run_bind, hx]

theorem bind_error {stop : Stop} (hx : x.run s = .error stop s') :
    (x >>= f).run s = .error stop s' := by
  rw [EStateM.run_bind, hx]

theorem bind_eq_ok_iff {s'' : σ} {b : β} :
    (x >>= f).run s = .ok b s'' ↔
      ∃ a s', x.run s = .ok a s' ∧ (f a).run s' = .ok b s'' := by
  rw [EStateM.run_bind]
  cases x.run s with
  | ok | error => simp

theorem bind_eq_error_iff {s'' : σ} {stop : Stop} :
    (x >>= f).run s = .error stop s'' ↔
      x.run s = .error stop s'' ∨ ∃ a s', x.run s = .ok a s' ∧ (f a).run s' = .error stop s'' := by
  rw [EStateM.run_bind]
  cases x.run s with
  | ok | error => simp

theorem tail_eq_ok {s'' : σ} {b : β} (hbind : (x >>= f).run s = .ok b s'') :
    ∃ a s', (f a).run s' = .ok b s'' := by
  obtain ⟨a, s', -, htail⟩ := bind_eq_ok_iff.mp hbind
  exact ⟨a, s', htail⟩

def failWith (err : Err) : Program σ α :=
  throw (.fail err)

def panicWith (message : String) : Program σ α :=
  throw (.panicked message)

@[simp] theorem failWith_run (err : Err) (s : σ) :
    (failWith err : Program σ α).run s = .error (.fail err) s := rfl

def require (condition : Prop) [Decidable condition] (err : Err) : Program σ Unit :=
  if condition then pure () else failWith err

theorem require_ok [Decidable condition] (s : σ) (hcondition : condition) :
    (require condition err).run s = .ok () s := by
  simp [require, hcondition]

theorem require_eq_ok_iff [Decidable condition] {u : Unit} :
    (require condition err).run s = .ok u s' ↔ condition ∧ s' = s := by
  unfold require
  split
  · simp [eq_comm, *]
  · simp [*]

theorem require_bind_eq_ok_iff [Decidable condition] {f : Unit → Program σ β} {b : β} :
    (require condition err >>= f).run s = .ok b s' ↔ condition ∧ (f ()).run s = .ok b s' := by
  rw [bind_eq_ok_iff]
  constructor
  · rintro ⟨_, s₁, hrequire, hrest⟩
    obtain ⟨hcondition, rfl⟩ := require_eq_ok_iff.mp hrequire
    exact ⟨hcondition, hrest⟩
  · rintro ⟨hcondition, hrest⟩
    exact ⟨(), s, require_ok s hcondition, hrest⟩

def orFail (result : Option α) (err : Err) : Program σ α :=
  match result with
  | some a => pure a
  | none => failWith err

theorem orFail_eq_ok_iff {result : Option α} :
    (orFail result err).run s = .ok a s' ↔ result = some a ∧ s' = s := by
  cases result <;> simp [orFail, eq_comm]

def fromExcept (result : Except Stop α) : Program σ α :=
  match result with
  | .ok a => pure a
  | .error stop => throw stop

theorem fromExcept_ok {result : Except Stop α} (s : σ) (hresult : result = .ok a) :
    (fromExcept result).run s = .ok a s := by
  subst hresult
  rfl

/-- Run `handle` on an error of `x`.  Waiting and panics pass through. -/
def rescue (x : Program σ α) (handle : Err → Program σ α) : Program σ α := fun s =>
  match x.run s with
  | .error (.fail err) s' => (handle err).run s'
  | result => result

theorem rescue_ok (hx : x.run s = .ok a s') : (rescue x handle).run s = .ok a s' := by
  simp only [rescue, EStateM.run] at hx ⊢
  rw [hx]

theorem rescue_fail (hx : x.run s = .error (.fail err) s') :
    (rescue x handle).run s = (handle err).run s' := by
  simp only [rescue, EStateM.run] at hx ⊢
  rw [hx]

theorem rescue_blocked (hx : x.run s = .error .blocked s') :
    (rescue x handle).run s = .error .blocked s' := by
  simp only [rescue, EStateM.run] at hx ⊢
  rw [hx]

theorem rescue_panicked (hx : x.run s = .error (.panicked message) s') :
    (rescue x handle).run s = .error (.panicked message) s' := by
  simp only [rescue, EStateM.run] at hx ⊢
  rw [hx]

theorem rescue_eq_ok_iff :
    (rescue x handle).run s = .ok a s' ↔
      x.run s = .ok a s' ∨
        ∃ err t, x.run s = .error (.fail err) t ∧ (handle err).run t = .ok a s' := by
  cases hx : x.run s with
  | ok b t => simp [rescue_ok hx]
  | error stop t =>
    cases stop with
    | fail err => simp [rescue_fail hx]
    | blocked => simp [rescue_blocked hx]
    | panicked message => simp [rescue_panicked hx]

theorem rescue_eq_ok (hhandle : ∀ err t, (handle err).run t ≠ .ok a s')
    (hrescue : (rescue x handle).run s = .ok a s') : x.run s = .ok a s' := by
  rcases rescue_eq_ok_iff.mp hrescue with hok | ⟨err, t, -, hhandled⟩
  · exact hok
  · exact absurd hhandled (hhandle err t)

def wrapping (message : String) (x : Program σ α) : Program σ α :=
  rescue x fun err => failWith (.wrap message err)

theorem wrapping_ok (hx : x.run s = .ok a s') : (wrapping message x).run s = .ok a s' :=
  rescue_ok hx

theorem wrapping_eq_ok (hx : (wrapping message x).run s = .ok a s') : x.run s = .ok a s' :=
  rescue_eq_ok (fun _ _ => by simp) hx

theorem wrapping_ne_eof : (wrapping message x).run s ≠ .error (.fail .eof) s' := by
  intro heof
  cases hx : x.run s with
  | ok a t =>
    rw [wrapping_ok hx] at heof
    cases heof
  | error stop t =>
    cases stop with
    | fail err =>
      rw [wrapping, rescue_fail hx] at heof
      cases heof
    | blocked =>
      rw [wrapping, rescue_blocked hx] at heof
      cases heof
    | panicked text =>
      rw [wrapping, rescue_panicked hx] at heof
      cases heof

def zoom (get : σ → τ) (set : σ → τ → σ) (x : Program τ α) : Program σ α := fun s =>
  match x.run (get s) with
  | .ok a t => .ok a (set s t)
  | .error stop t => .error stop (set s t)

theorem zoom_ok {x : Program τ α} {t : τ} (hx : x.run (get s) = .ok a t) :
    (zoom get set x).run s = .ok a (set s t) := by
  simp only [zoom, EStateM.run] at hx ⊢
  rw [hx]

theorem zoom_error {x : Program τ α} {t : τ} {stop : Stop} (hx : x.run (get s) = .error stop t) :
    (zoom get set x).run s = .error stop (set s t) := by
  simp only [zoom, EStateM.run] at hx ⊢
  rw [hx]

theorem zoom_eq_ok_iff {x : Program τ α} :
    (zoom get set x).run s = .ok a s' ↔ ∃ t, x.run (get s) = .ok a t ∧ set s t = s' := by
  cases hx : x.run (get s) with
  | ok b t => simp [zoom_ok hx]
  | error stop t => simp [zoom_error hx]

/-- A handler that ends in an error can be moved to the parts of a sequence. -/
theorem rescue_bind {handle' : Err → Program σ β}
    (hrethrow : ∀ err (g : α → Program σ β), handle err >>= g = handle' err) :
    rescue (x >>= f) handle' = rescue x handle >>= fun a => rescue (f a) handle' := by
  funext s
  change (rescue (x >>= f) handle').run s = (rescue x handle >>= fun a => rescue (f a) handle').run s
  cases hx : x.run s with
  | ok a t =>
    rw [bind_ok (rescue_ok hx)]
    simp only [rescue, EStateM.run] at hx ⊢
    rw [show (x >>= f) s = f a t from bind_ok hx]
  | error stop t =>
    cases stop with
    | fail err =>
      rw [rescue_fail (bind_error hx), ← hrethrow err fun a => rescue (f a) handle']
      simp only [rescue, EStateM.run, bind, EStateM.bind] at hx ⊢
      rw [hx]
    | blocked => rw [rescue_blocked (bind_error hx), bind_error (rescue_blocked hx)]
    | panicked message => rw [rescue_panicked (bind_error hx), bind_error (rescue_panicked hx)]

theorem wrapping_bind (message : String) (x : Program σ α) (f : α → Program σ β) :
    wrapping message (x >>= f) = wrapping message x >>= fun a => wrapping message (f a) :=
  rescue_bind fun _ _ => rfl

theorem zoom_bind (hget : ∀ s t, get (set s t) = t) (hset : ∀ s t t', set (set s t) t' = set s t')
    (x : Program τ α) (f : α → Program τ β) :
    zoom get set (x >>= f) = zoom get set x >>= fun a => zoom get set (f a) := by
  funext s
  change (zoom get set (x >>= f)).run s = (zoom get set x >>= fun a => zoom get set (f a)).run s
  cases hx : x.run (get s) with
  | ok a t =>
    rw [bind_ok (zoom_ok hx)]
    simp only [zoom, EStateM.run, hget, hset] at hx ⊢
    rw [show (x >>= f) (get s) = f a t from bind_ok hx]
  | error stop t => rw [zoom_error (bind_error hx), bind_error (zoom_error hx)]

end Rules

/-- One end of a byte stream: the bytes that have arrived and are unread,
whether the other end is closed behind them, one entry for each write made,
and the error that every write now meets, if any. -/
structure Duplex where
  input : Bytes
  closedByPeer : Bool
  output : List Bytes
  writeErr : Option Err
  deriving DecidableEq

def readFull (size : Nat) : Program Duplex Bytes := fun rw =>
  if size ≤ rw.input.length then
    .ok (rw.input.take size) { rw with input := rw.input.drop size }
  else if rw.closedByPeer then
    .error (.fail (if rw.input = [] then .eof else .unexpectedEof)) { rw with input := [] }
  else .error .blocked rw

def write (buffer : Bytes) : Program Duplex Unit := fun rw =>
  match rw.writeErr with
  | none => .ok () { rw with output := rw.output ++ [buffer] }
  | some err => .error (.fail err) rw

def writeBuffers : List Bytes → Program Duplex Unit
  | [] => pure ()
  | buffer :: rest => do
      write buffer
      writeBuffers rest

variable {rw rw' : Duplex} {buffer : Bytes}

theorem readFull_append {size : Nat} {field rest : Bytes} (hinput : rw.input = field ++ rest)
    (hsize : field.length = size) :
    (readFull size).run rw = .ok field { rw with input := rest } := by
  subst hsize
  simp [readFull, EStateM.run, hinput]

theorem readFull_eq_ok_iff {size : Nat} {field : Bytes} :
    (readFull size).run rw = .ok field rw' ↔
      field.length = size ∧ rw.input = field ++ rw'.input ∧
        rw' = { rw with input := rw'.input } := by
  constructor
  · intro hread
    simp only [readFull, EStateM.run] at hread
    split at hread
    · rename_i hsize
      simp only [EStateM.Result.ok.injEq] at hread
      obtain ⟨rfl, rfl⟩ := hread
      exact ⟨by simpa using hsize, (List.take_append_drop _ _).symm, rfl⟩
    · split at hread <;> simp at hread
  · rintro ⟨hsize, hinput, hrw⟩
    rw [hrw]
    exact readFull_append hinput hsize

theorem write_ok (hwrite : rw.writeErr = none) :
    (write buffer).run rw = .ok () { rw with output := rw.output ++ [buffer] } := by
  simp [write, EStateM.run, hwrite]

theorem write_eq_ok {u : Unit} (hrun : (write buffer).run rw = .ok u rw') :
    rw' = { rw with output := rw.output ++ [buffer] } := by
  rcases hwrite : rw.writeErr with _ | err
  · rw [write_ok hwrite, EStateM.Result.ok.injEq] at hrun
    rw [← hrun.2, hwrite]
  · simp [write, EStateM.run, hwrite] at hrun

theorem writable_of_write {u : Unit} (hrun : (write buffer).run rw = .ok u rw') :
    rw.writeErr = none := by
  rcases hwrite : rw.writeErr with _ | err
  · rfl
  · simp [write, EStateM.run, hwrite] at hrun

theorem writeBuffers_ok (rw : Duplex) (buffers : List Bytes) (hwrite : rw.writeErr = none) :
    (writeBuffers buffers).run rw = .ok () { rw with output := rw.output ++ buffers } := by
  induction buffers generalizing rw with
  | nil => simp [writeBuffers]
  | cons buffer rest ih =>
    rw [writeBuffers, bind_ok (write_ok hwrite),
      ih { rw with output := rw.output ++ [buffer] } hwrite]
    simp

end Zmq4.DuplexProgram
