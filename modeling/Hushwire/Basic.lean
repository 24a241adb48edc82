import Mathlib.Data.Finmap
import Mathlib.Tactic

/-!
# Bytes, maps and errors

The data every layer shares.  A byte string is a list of bytes; Rust's `BTreeMap` and
`HashMap` are both `Map`, a finite map up to the order of its entries; a function that
walks a map takes the order as an argument or sorts the entries.  `CryptoError` carries the
variants the modelled functions return, with their payloads.

Counters and epochs (`u32`, `u64` in the source) are natural numbers: no chain reaches `2^32`
messages and no session `2^64` epochs.  A sender-key chain may start at any iteration, and
`Group/Overflow.lean` says how far that carries.  Where a sum or a cast goes beyond the width before
that (`chain.n + MAX_SKIP` on a long chain, `as u16` on a codeword index) the reduction is written
out, and a result that depends on it has the bound among its premises.
-/

namespace Hushwire

/-- A byte string (`Vec<u8>`, `&[u8]`). -/
abbrev Bytes := List UInt8

/-- A finite map (`BTreeMap`, `HashMap`). -/
abbrev Map (α β : Type) := Finmap (fun _ : α => β)

/-- The errors of the modelled functions (`CryptoError`). -/
inductive CryptoError
  | invalidKey
  | invalidSignature
  | encryptionFailed (cause : String)
  | decryptionFailed (cause : String)
  | invalidCiphertext
  | invalidSessionState
  | invalidPrekeyBundle (cause : String)
  | duplicateMessage
  | maxSkipExceeded (gap limit : ℕ)
  | expiredCertificate
  | invalidCertificate (cause : String)
  | serialization (cause : String)
  | missingSenderKey
  | invalidPadding
  | braidErasure (cause : String)
  | braidKem (cause : String)
  deriving DecidableEq, Repr

/-- The crate's `Result`. -/
abbrev Result (α : Type) := Except CryptoError α

/-- The bytes of an ASCII literal (`b"…"`). -/
def ascii (s : String) : Bytes := s.toList.map (fun c => UInt8.ofNat c.toNat)

/-- `to_be_bytes` of a `w`-byte integer. -/
def beBytes (w n : ℕ) : Bytes :=
  (List.range w).map (fun i => UInt8.ofNat (n / 256 ^ (w - 1 - i)))

@[simp] lemma length_beBytes (w n : ℕ) : (beBytes w n).length = w := by
  simp [beBytes]

lemma beBytes_succ (w n : ℕ) : beBytes (w + 1) n = beBytes w (n / 256) ++ [UInt8.ofNat n] := by
  rw [beBytes, List.range_succ, List.map_append]
  congr 1
  · refine List.map_congr_left (fun i hi => ?_)
    have hlt := List.mem_range.mp hi
    have hexp : w + 1 - 1 - i = w - 1 - i + 1 := by omega
    rw [hexp, Nat.pow_succ', Nat.div_div_eq_div_mul]
  · simp

/-- Bytes of a fixed number tell the integer. -/
lemma beBytes_inj {w : ℕ} : ∀ {n n' : ℕ}, n < 256 ^ w → n' < 256 ^ w → beBytes w n = beBytes w n' →
    n = n' := by
  induction w with
  | zero =>
      intro n n' hn hn' _
      rw [Nat.lt_one_iff.mp hn, Nat.lt_one_iff.mp hn']
  | succ w ih =>
      intro n n' hn hn' h
      rw [beBytes_succ, beBytes_succ] at h
      obtain ⟨hhigh, hlow⟩ := List.append_inj h (by simp)
      have hdiv : n / 256 = n' / 256 := by
        refine ih ?_ ?_ hhigh
        · exact Nat.div_lt_of_lt_mul (Nat.pow_succ' ▸ hn)
        · exact Nat.div_lt_of_lt_mul (Nat.pow_succ' ▸ hn')
      have hmod : n % 256 = n' % 256 := by
        simpa using congrArg UInt8.toNat (List.cons.inj hlow).1
      omega

/-- `x as u16`. -/
def u16 (n : ℕ) : ℕ := n % 2 ^ 16

lemma u16_of_lt {n : ℕ} (h : n < 65536) : u16 n = n := Nat.mod_eq_of_lt h

/-- A `u32` sum, as it comes out without overflow checks; with them the program stops instead. -/
def u32 (n : ℕ) : ℕ := n % 2 ^ 32

lemma u32_of_lt {n : ℕ} (h : n < 2 ^ 32) : u32 n = n := Nat.mod_eq_of_lt h

namespace Map

variable {α β : Type}

/-- The number of entries (`len`). -/
def len (m : Map α β) : ℕ := m.keys.card

variable [DecidableEq α]

lemma lookup_of_len_eq_zero {m : Map α β} (h : len m = 0) (a : α) : m.lookup a = none := by
  rw [Finmap.lookup_eq_none, ← Finmap.mem_keys, Finset.card_eq_zero.mp h]
  exact Finset.notMem_empty a

lemma lookup_insert_eq_ite (m : Map α β) (a : α) (b : β) (x : α) :
    (Finmap.insert a b m).lookup x = if x = a then some b else m.lookup x := by
  split
  · rename_i h
    rw [h, Finmap.lookup_insert]
  · rename_i h
    exact Finmap.lookup_insert_of_ne _ h

lemma lookup_erase_eq_ite (m : Map α β) (a x : α) :
    (m.erase a).lookup x = if x = a then none else m.lookup x := by
  split
  · rename_i h
    rw [h, Finmap.lookup_erase]
  · rename_i h
    exact Finmap.lookup_erase_ne h

lemma keys_insert (m : Map α β) (a : α) (b : β) :
    (Finmap.insert a b m).keys = insert a m.keys := by
  ext x
  simp [Finmap.mem_keys, Finmap.mem_insert]

lemma len_insert_of_notMem {m : Map α β} {a : α} (h : a ∉ m) (b : β) :
    len (Finmap.insert a b m) = len m + 1 := by
  rw [len, keys_insert, Finset.card_insert_of_notMem (by simpa [Finmap.mem_keys] using h), len]

lemma len_le_len_insert (m : Map α β) (a : α) (b : β) : len m ≤ len (Finmap.insert a b m) := by
  rw [len, len, keys_insert]
  exact Finset.card_le_card (Finset.subset_insert _ _)

/-- `entry(a).or_insert(b)`: the first writer wins. -/
def orInsert (m : Map α β) (a : α) (b : β) : Map α β :=
  if a ∈ m then m else Finmap.insert a b m

lemma orInsert_of_mem {m : Map α β} {a : α} (h : a ∈ m) (b : β) : orInsert m a b = m :=
  if_pos h

lemma mem_orInsert {m : Map α β} {a x : α} {b : β} : x ∈ orInsert m a b ↔ x = a ∨ x ∈ m := by
  unfold orInsert
  split
  · constructor
    · exact Or.inr
    · rintro (rfl | h)
      · assumption
      · exact h
  · exact Finmap.mem_insert

lemma keys_orInsert (m : Map α β) (a : α) (b : β) :
    (orInsert m a b).keys = insert a m.keys := by
  ext x
  simp [Finmap.mem_keys, mem_orInsert]

lemma lookup_orInsert {m : Map α β} {a x : α} {b c : β}
    (h : (orInsert m a b).lookup x = some c) :
    m.lookup x = some c ∨ (x = a ∧ c = b ∧ a ∉ m) := by
  unfold orInsert at h
  split at h
  · exact Or.inl h
  · rename_i ha
    by_cases hx : x = a
    · subst hx
      rw [Finmap.lookup_insert] at h
      exact Or.inr ⟨rfl, (Option.some.inj h).symm, ha⟩
    · rw [Finmap.lookup_insert_of_ne _ hx] at h
      exact Or.inl h

end Map

end Hushwire
