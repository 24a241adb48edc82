import Hushwire.Braid.Ideal
import Hushwire.Library.Secrecy
import Hushwire.Primitives.Aead

/-!
# The KDFs, symbolically

What secrecy results assume of HKDF and HMAC, and what an attacker can do with them.

`Hash.Free` is the symbolic reading: no two calls of HKDF, no two calls of HMAC and no call of the
one and the other have the same output.  Two calls of HKDF do not count as different if they differ
in the length asked for, since a longer output continues a shorter one, or in a missing salt, which
stands for the zero key.  `Hash.Computes` is the attacker: it calls both functions on keys it has,
with any info string, length and block.  Keying material that is no key has to be among the byte
strings `bytes` that it knows; the handshake's secret comes from such material.

`Free.needs_salt`, `Free.needs_ikm` and `Free.needs_hmac` say that there is no other way to an
output than through its inputs.

Where keying material is put together from keys, what the attacker can write down is `knownBytes`:
the 32-byte blocks it knows, in any order and number, and every shorter string.
-/

namespace Hushwire

open Secrecy

variable {Key : Type}

namespace Hash

/-- Distinct calls of HKDF and HMAC have distinct outputs. -/
structure Free (H : Hash Key) : Prop where
  hkdf_injective : ∀ ikm salt info len i ikm' salt' info' len' i',
    H.hkdf ikm salt info len i = H.hkdf ikm' salt' info' len' i' →
      ikm = ikm' ∧ salt.getD H.zero = salt'.getD H.zero ∧ info = info' ∧ i = i'
  hmac_injective : ∀ k m k' m', H.hmac k m = H.hmac k' m' → k = k' ∧ m = m'
  hkdf_ne_hmac : ∀ ikm salt info len i k m, H.hkdf ikm salt info len i ≠ H.hmac k m

/-- The keys among the inputs of HKDF. -/
def hkdfInputs (H : Hash Key) (ikm : Key ⊕ Bytes) (salt : Option Key) : List Key :=
  ikm.elim (fun k => [k]) (fun _ => []) ++ [salt.getD H.zero]

/-- One call of HKDF or HMAC by somebody who knows `bytes`. -/
inductive Computes (H : Hash Key) (bytes : Set Bytes) : List Key → Key → Prop
  | hkdf (ikm : Key ⊕ Bytes) (salt : Option Key) (info : Bytes) (len i : ℕ)
      (hbytes : ∀ b, ikm = .inr b → b ∈ bytes) :
      Computes H bytes (H.hkdfInputs ikm salt) (H.hkdf ikm salt info len i)
  | hmac (k : Key) (data : Bytes) : Computes H bytes [k] (H.hmac k data)

namespace Free

variable {H : Hash Key} {bytes : Set Bytes} {ikm ikm' : Key ⊕ Bytes} {salt salt' : Option Key}
  {info info' : Bytes} {len len' i i' : ℕ} {k : Key}

lemma hkdf_ne (hH : H.Free) (h : info ≠ info') :
    H.hkdf ikm salt info len i ≠ H.hkdf ikm' salt' info' len' i' :=
  fun heq => h (hH.hkdf_injective _ _ _ _ _ _ _ _ _ _ heq).2.2.1

/-- Whoever calls HKDF has what goes into it. -/
lemma of_computes_hkdf (hH : H.Free) {inputs : List Key}
    (h : H.Computes bytes inputs (H.hkdf ikm salt info len i)) :
    inputs = H.hkdfInputs ikm salt ∧ ∀ b, ikm = .inr b → b ∈ bytes := by
  generalize hout : H.hkdf ikm salt info len i = out at h
  cases h with
  | hkdf ikm' salt' info' len' i' hbytes =>
      obtain ⟨rfl, hsalt, -⟩ := hH.hkdf_injective _ _ _ _ _ _ _ _ _ _ hout
      exact ⟨by rw [hkdfInputs, hkdfInputs, hsalt], hbytes⟩
  | hmac k data => exact absurd hout (hH.hkdf_ne_hmac _ _ _ _ _ _ _)

lemma needs_salt (hH : H.Free) : Needs (H.Computes bytes) k (H.hkdf ikm (some k) info len i) := by
  intro inputs h
  rw [(hH.of_computes_hkdf h).1]
  exact List.mem_append_right _ (by simp)

lemma needs_ikm (hH : H.Free) : Needs (H.Computes bytes) k (H.hkdf (.inl k) salt info len i) := by
  intro inputs h
  rw [(hH.of_computes_hkdf h).1]
  exact List.mem_append_left _ (by simp)

lemma needs_hmac (hH : H.Free) {data : Bytes} : Needs (H.Computes bytes) k (H.hmac k data) := by
  intro inputs h
  generalize hout : H.hmac k data = out at h
  cases h with
  | hkdf ikm salt info len i _ => exact absurd hout.symm (hH.hkdf_ne_hmac _ _ _ _ _ _ _)
  | hmac k' data' => simp [(hH.hmac_injective _ _ _ _ hout).1]

/-- What HKDF makes of byte strings that nobody else knows cannot be computed. -/
lemma not_computes_of_secret (hH : H.Free) {b : Bytes} (hb : b ∉ bytes) (inputs : List Key) :
    ¬ H.Computes bytes inputs (H.hkdf (.inr b) salt info len i) := by
  intro h
  exact hb ((hH.of_computes_hkdf h).2 b rfl)

/-- An output of HKDF that is not known itself can be computed from its keying material. -/
lemma derives_hkdf_iff (hH : H.Free) {known : Set Key} {salt : Key}
    (hnew : H.hkdf (.inl k) (some salt) info len i ∉ known)
    (hsalt : Derives (H.Computes bytes) known salt) :
    Derives (H.Computes bytes) known (H.hkdf (.inl k) (some salt) info len i) ↔
      Derives (H.Computes bytes) known k := by
  constructor
  · intro h
    cases h with
    | known hmem => exact absurd hmem hnew
    | compute hcomp hinputs => exact hinputs k (hH.needs_ikm _ hcomp)
  · intro h
    refine .compute (.hkdf (.inl k) (some salt) info len i (by simp)) ?_
    rintro k' hk'
    rcases List.mem_cons.mp hk' with rfl | hk'
    · exact h
    · obtain rfl := List.mem_singleton.mp hk'
      exact hsalt

/-- The same where the keying material is a byte string. -/
lemma derives_hkdf_bytes_iff (hH : H.Free) {known : Set Key} {salt : Key} {b : Bytes}
    (hnew : H.hkdf (.inr b) (some salt) info len i ∉ known)
    (hsalt : Derives (H.Computes bytes) known salt) :
    Derives (H.Computes bytes) known (H.hkdf (.inr b) (some salt) info len i) ↔ b ∈ bytes := by
  constructor
  · intro h
    by_contra hb
    cases h with
    | known hmem => exact hnew hmem
    | compute hcomp _ => exact hH.not_computes_of_secret hb _ hcomp
  · intro hb
    refine .compute (.hkdf (.inr b) (some salt) info len i ?_) ?_
    · intro b' hb'
      obtain rfl := Sum.inr.inj hb'
      exact hb
    · rintro k' hk'
      obtain rfl := List.mem_singleton.mp hk'
      exact hsalt

end Free

end Hash

/-! ## Byte strings made of blocks -/

/-- What somebody can write down who knows these blocks, and every string shorter than a block.
Among the blocks may be the bytes of any keys, also of those that can be computed. -/
def knownBytes (blocks : Set Bytes) : Set Bytes :=
  {b | b.length < 32 ∨ ∃ l : List Bytes, (∀ x ∈ l, x ∈ blocks) ∧ b = l.flatten}

lemma beBytes_mem_knownBytes (blocks : Set Bytes) (n : ℕ) : beBytes 4 n ∈ knownBytes blocks := by
  refine .inl ?_
  rw [length_beBytes]
  decide

/-- Blocks of one length can be told apart. -/
lemma flatten_inj {n : ℕ} (hn : 0 < n) {l l' : List Bytes} (hl : ∀ x ∈ l, x.length = n)
    (hl' : ∀ x ∈ l', x.length = n) (h : l.flatten = l'.flatten) : l = l' := by
  induction l generalizing l' with
  | nil =>
      cases l' with
      | nil => rfl
      | cons x' l' =>
          have hempty : x' = [] := (List.append_eq_nil_iff.mp h.symm).1
          have hlength := hl' x' List.mem_cons_self
          rw [hempty, List.length_nil] at hlength
          omega
  | cons x l ih =>
      cases l' with
      | nil =>
          have hempty : x = [] := (List.append_eq_nil_iff.mp h).1
          have hlength := hl x List.mem_cons_self
          rw [hempty, List.length_nil] at hlength
          omega
      | cons x' l' =>
          have hlength : x.length = x'.length :=
            (hl x List.mem_cons_self).trans (hl' x' List.mem_cons_self).symm
          obtain ⟨rfl, hrest⟩ := List.append_inj h hlength
          rw [ih (fun y hy => hl y (List.mem_cons_of_mem _ hy))
            (fun y hy => hl' y (List.mem_cons_of_mem _ hy)) hrest]

/-- Who can write blocks one after the other knows each of them. -/
lemma flatten_mem_knownBytes {blocks : Set Bytes} (hblocks : ∀ b ∈ blocks, b.length = 32)
    {x : Bytes} {l : List Bytes} (hl : ∀ y ∈ x :: l, y.length = 32) :
    (x :: l).flatten ∈ knownBytes blocks ↔ ∀ y ∈ x :: l, y ∈ blocks := by
  constructor
  · rintro (hshort | ⟨l', hl', heq⟩)
    · have hx := hl x List.mem_cons_self
      rw [List.flatten_cons, List.length_append] at hshort
      omega
    · have hsame := flatten_inj (by decide) hl (fun y hy => hblocks y (hl' y hy)) heq
      rw [hsame]
      exact hl'
  · intro h
    exact .inr ⟨x :: l, h, rfl⟩

/-! ## An instance -/

namespace Ideal

/-- Outputs of HKDF are odd, outputs of HMAC are even, and neither 0 nor 1 is one. -/
def freeHash : Hash ℕ where
  asBytes := hash.asBytes
  zero := 0
  hkdf ikm salt info len i :=
    2 * Encodable.encode (ikm.map id toNats, salt, toNats info, len, i) + 3
  hmac k m := 2 * Encodable.encode (k, toNats m) + 2
  asBytes_length := hash.asBytes_length

lemma freeHash_free : freeHash.Free where
  hkdf_injective := by
    intro ikm salt info len i ikm' salt' info' len' i' h
    have hcode : hash.hkdf ikm salt info len i = hash.hkdf ikm' salt' info' len' i' := by
      simp only [freeHash] at h
      exact Nat.eq_of_mul_eq_mul_left Nat.two_pos (Nat.add_right_cancel h)
    obtain ⟨hikm, hsalt, hinfo, hi⟩ := hkdf_injective hcode
    exact ⟨hikm, congrArg (Option.getD · 0) hsalt, hinfo, hi⟩
  hmac_injective := by
    intro k m k' m' h
    have hcode : Encodable.encode (k, toNats m) = Encodable.encode (k', toNats m') := by
      simp only [freeHash] at h
      omega
    obtain ⟨hk, hm⟩ := Prod.mk.inj (Encodable.encode_injective hcode)
    exact ⟨hk, toNats_injective hm⟩
  hkdf_ne_hmac := by
    intro ikm salt info len i k m h
    simp only [freeHash] at h
    omega

/-- The longer the label, the larger the output. -/
lemma le_freeHash_hkdf (ikm : ℕ ⊕ Bytes) (salt : Option ℕ) (info : Bytes) (len i : ℕ) :
    2 * info.length + 3 ≤ freeHash.hkdf ikm salt info len i := by
  have hlabel : info.length ≤ Encodable.encode (toNats info) := by
    refine le_trans ?_ (Encodable.length_le_encode _)
    simp [toNats]
  have hinfo : Encodable.encode (toNats info) ≤
      Encodable.encode (ikm.map id toNats, salt, toNats info, len, i) := by
    simp only [Encodable.encode_prod_val]
    exact (Nat.left_le_pair _ _).trans ((Nat.right_le_pair _ _).trans (Nat.right_le_pair _ _))
  simp only [freeHash]
  omega

/-- The last byte tells an output of HKDF from an even number. -/
lemma asBytes_ne_freeHash_hkdf {n : ℕ} (hn : n % 2 = 0) (ikm : ℕ ⊕ Bytes) (salt : Option ℕ)
    (info : Bytes) (len i : ℕ) :
    freeHash.asBytes n ≠ freeHash.asBytes (freeHash.hkdf ikm salt info len i) := by
  intro h
  simp only [freeHash] at h
  generalize Encodable.encode (ikm.map id toNats, salt, toNats info, len, i) = code at h
  have hbytes : beBytes (31 + 1) n = beBytes (31 + 1) (2 * code + 3) := h
  rw [beBytes_succ 31 n, beBytes_succ 31 (2 * code + 3)] at hbytes
  have hlast : n % 256 = (2 * code + 3) % 256 := by
    simpa using congrArg UInt8.toNat (List.cons.inj (List.append_inj hbytes (by simp)).2).1
  omega

lemma freeHash_not_computes {k : ℕ} (hk : k < 2) (bytes : Set Bytes) (inputs : List ℕ) :
    ¬ freeHash.Computes bytes inputs k := by
  intro h
  cases h with
  | hkdf ikm salt info len i _ =>
      have := le_freeHash_hkdf ikm salt info len i
      omega
  | hmac k data =>
      simp only [freeHash] at hk
      omega

end Ideal

end Hushwire
