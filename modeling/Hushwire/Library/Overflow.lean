import Mathlib.Data.Nat.Basic
import Mathlib.Tactic

/-!
# Counters of a fixed width

Unsigned integers with `size` values, as natural numbers.  What an addition does that goes beyond
them depends on how the program is built: it stops the program, or it is taken modulo `size`.  `fit`
is what becomes of an exact value either way, and `fit_bind_add` is the rule for sums that are made
in several steps: the machine may fit after each of them or once at the end.
-/

/-- What an addition does that does not fit. -/
inductive OverflowMode
  | checked
  | wrapping
  deriving DecidableEq, Repr

namespace OverflowMode

/-- What becomes of the exact value; `none` stops the program. -/
def fit (size : ℕ) (mode : OverflowMode) (n : ℕ) : Option ℕ :=
  if n < size then some n
  else match mode with
    | checked => none
    | wrapping => some (n % size)

/-- Addition of two values that fit. -/
def add (size : ℕ) (mode : OverflowMode) (a b : ℕ) : Option ℕ := mode.fit size (a + b)

variable {size : ℕ} {mode : OverflowMode} {a b n : ℕ}

lemma fit_of_lt (h : n < size) : mode.fit size n = some n := if_pos h

lemma fit_checked (h : size ≤ n) : checked.fit size n = none := if_neg (not_lt.mpr h)

lemma fit_wrapping (n : ℕ) : wrapping.fit size n = some (n % size) := by
  rw [fit]
  split
  · rename_i hlt
    rw [Nat.mod_eq_of_lt hlt]
  · rfl

lemma lt_of_fit {k : ℕ} (hsize : 0 < size) (h : mode.fit size n = some k) : k < size := by
  by_cases hlt : n < size
  · rw [fit_of_lt hlt] at h
    obtain rfl := Option.some.inj h
    exact hlt
  · cases mode with
    | checked =>
        rw [fit_checked (not_lt.mp hlt)] at h
        cases h
    | wrapping =>
        rw [fit_wrapping] at h
        obtain rfl := Option.some.inj h
        exact Nat.mod_lt n hsize

/-- **Sums in steps.** -/
lemma fit_bind_add (mode : OverflowMode) (a b : ℕ) :
    (mode.fit size a).bind (fun a => mode.add size a b) = mode.fit size (a + b) := by
  cases mode with
  | checked =>
      by_cases ha : a < size
      · rw [fit_of_lt ha]
        rfl
      · have hle : size ≤ a := not_lt.mp ha
        rw [fit_checked hle, fit_checked (hle.trans (Nat.le_add_right a b))]
        rfl
  | wrapping =>
      rw [fit_wrapping, fit_wrapping, Option.bind_some, add, fit_wrapping, Nat.mod_add_mod]

/-- The exact value survives both ways of building exactly if it fits. -/
lemma isSome_fit_checked : (checked.fit size n).isSome ↔ n < size := by
  by_cases h : n < size
  · rw [fit_of_lt h]
    exact ⟨fun _ => h, fun _ => rfl⟩
  · rw [fit_checked (not_lt.mp h)]
    exact ⟨fun hsome => absurd hsome Bool.false_ne_true, fun hlt => absurd hlt h⟩

end OverflowMode
