import Mathlib.Data.List.Induction
import Mathlib.Tactic.Ring

namespace Zmq4.RadixCodes

/-- The symbols of a positional number system and the digits they stand for. -/
structure Numerals (α : Type) where
  base : Nat
  symbol : Nat → α
  digit : α → Option Nat
  base_pos : 0 < base
  digit_eq_some_iff : ∀ {a d}, digit a = some d ↔ d < base ∧ symbol d = a

namespace Numerals

variable {α : Type} (N : Numerals α)

def write : Nat → Nat → List α
  | 0, _ => []
  | width + 1, value => write width (value / N.base) ++ [N.symbol (value % N.base)]

/-- Read symbols behind those whose number is `value`. -/
def readFrom (value : Nat) : List α → Option Nat
  | [] => some value
  | a :: rest => (N.digit a).bind fun d => readFrom (value * N.base + d) rest

def read (symbols : List α) : Option Nat :=
  N.readFrom 0 symbols

theorem readFrom_concat (value : Nat) (symbols : List α) (a : α) :
    N.readFrom value (symbols ++ [a]) =
      (N.readFrom value symbols).bind fun v => (N.digit a).map (v * N.base + ·) := by
  induction symbols generalizing value with
  | nil => cases hdigit : N.digit a <;> simp [readFrom, hdigit]
  | cons b symbols ih =>
    cases hdigit : N.digit b with
    | none => simp [readFrom, hdigit]
    | some d => simp [readFrom, hdigit, ih]

variable {value : Nat} {symbols : List α}

theorem read_concat_eq_some_iff {a : α} :
    N.read (symbols ++ [a]) = some value ↔
      ∃ v d, N.read symbols = some v ∧ N.digit a = some d ∧ v * N.base + d = value := by
  simp only [read, readFrom_concat, Option.bind_eq_some_iff, Option.map_eq_some_iff]
  constructor
  · rintro ⟨v, hv, d, hd, hvalue⟩
    exact ⟨v, d, hv, hd, hvalue⟩
  · rintro ⟨v, d, hv, hd, hvalue⟩
    exact ⟨v, hv, d, hd, hvalue⟩

theorem readFrom_isSome_iff :
    (N.readFrom value symbols).isSome ↔ ∀ a ∈ symbols, (N.digit a).isSome := by
  induction symbols generalizing value with
  | nil => simp [readFrom]
  | cons b symbols ih =>
    cases hdigit : N.digit b with
    | none => simp [readFrom, hdigit]
    | some d => simp [readFrom, hdigit, ih]

theorem read_write {width : Nat} (hvalue : value < N.base ^ width) :
    N.read (N.write width value) = some value := by
  induction width generalizing value with
  | zero =>
    have hzero : value = 0 := by simpa using hvalue
    subst value
    rfl
  | succ width ih =>
    have hquotient : value / N.base < N.base ^ width := by
      apply Nat.div_lt_of_lt_mul
      rwa [← pow_succ']
    rw [write, read_concat_eq_some_iff]
    refine ⟨_, _, ih hquotient,
      N.digit_eq_some_iff.mpr ⟨Nat.mod_lt _ N.base_pos, rfl⟩, ?_⟩
    rw [Nat.mul_comm]
    exact Nat.div_add_mod _ _

theorem read_lt (hread : N.read symbols = some value) : value < N.base ^ symbols.length := by
  induction symbols using List.reverseRecOn generalizing value with
  | nil =>
    obtain rfl := Option.some.inj hread
    simp
  | append_singleton symbols a ih =>
    obtain ⟨v, d, hv, hd, rfl⟩ := N.read_concat_eq_some_iff.mp hread
    have hdigit : d < N.base := (N.digit_eq_some_iff.mp hd).1
    calc
      v * N.base + d < (v + 1) * N.base := by
        rw [Nat.add_mul, Nat.one_mul]
        omega
      _ ≤ N.base ^ symbols.length * N.base := Nat.mul_le_mul_right _ (ih hv)
      _ = N.base ^ (symbols ++ [a]).length := by
        simp [pow_succ]

theorem write_of_read (hread : N.read symbols = some value) :
    N.write symbols.length value = symbols := by
  induction symbols using List.reverseRecOn generalizing value with
  | nil => rfl
  | append_singleton symbols a ih =>
    obtain ⟨v, d, hv, hd, rfl⟩ := N.read_concat_eq_some_iff.mp hread
    obtain ⟨hdigit, hsymbol⟩ := N.digit_eq_some_iff.mp hd
    have hquotient : (v * N.base + d) / N.base = v := by
      rw [Nat.mul_comm, Nat.mul_add_div N.base_pos, Nat.div_eq_of_lt hdigit, Nat.add_zero]
    have hremainder : (v * N.base + d) % N.base = d := by
      rw [Nat.mul_comm, Nat.mul_add_mod, Nat.mod_eq_of_lt hdigit]
    rw [List.length_append, List.length_singleton, write, hquotient, hremainder, ih hv, hsymbol]

end Numerals

end Zmq4.RadixCodes
