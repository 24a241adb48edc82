import Mathlib.Tactic

/-!
# Key chains

A symmetric ratchet: a chain key is stepped forward, and every step yields one message key.
`step n` is the step that follows the first `n`, so that a derivation may bind its counter.

`chainKey` and `messageKey` name the keys of a chain by their position, whatever was done to
get there.
-/

namespace KeyChain

variable {C K : Type} (step : ℕ → C → C × K)

/-- The chain key after `n` steps from `base`. -/
def chainKey (base : C) : ℕ → C
  | 0 => base
  | n + 1 => (step n (chainKey base n)).1

/-- The message key of the step that follows the first `n`. -/
def messageKey (base : C) (n : ℕ) : K := (step n (chainKey step base n)).2

end KeyChain
