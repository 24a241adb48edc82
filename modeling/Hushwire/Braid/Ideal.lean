import Mathlib.FieldTheory.Finite.GaloisField
import Mathlib.Data.FinEnum
import Hushwire.Braid.Exchange
import Hushwire.Library.ErasureCode

/-!
# Ideal primitives

The results about the braid rest on assumptions about the libraries: KEM correctness, a
maximum-distance-separable codec, KDFs without collisions.  An assumption that nothing meets
would make them empty, so here are primitives that meet all of them at once:

* keys are natural numbers and a KDF pairs its inputs up into one, so that it is injective;
* the codec is the interpolation code of `ErasureCode` over the field with `2^256` elements,
  one shard a field element;
* the KEM sends its randomness in the clear.

They are of no use to anyone who wants to keep a secret.  What matters is that every theorem
about `Prims` has an instance, and that a run in which something goes wrong goes wrong for
primitives that do nothing wrong.
-/

namespace Hushwire

namespace Ideal

/-! ## Keys -/

/-- Bytes as numbers, which `Encodable` knows. -/
def toNats (b : Bytes) : List ℕ := b.map UInt8.toNat

lemma toNats_injective : Function.Injective toNats :=
  List.map_injective_iff.mpr (fun _ _ => UInt8.toNat_inj.mp)

/-- A KDF that pairs its inputs up. -/
def hash : Hash ℕ where
  asBytes k := beBytes 32 k
  zero := 0
  hkdf ikm salt info len i := Encodable.encode (ikm.map id toNats, salt, toNats info, len, i)
  hmac k m := Encodable.encode (k, toNats m)
  asBytes_length k := by simp [beBytes]

/-- Calls of this KDF with the same output are the same. -/
lemma hkdf_injective {ikm ikm' : ℕ ⊕ Bytes} {salt salt' : Option ℕ} {info info' : Bytes}
    {len len' i i' : ℕ} (h : hash.hkdf ikm salt info len i = hash.hkdf ikm' salt' info' len' i') :
    ikm = ikm' ∧ salt = salt' ∧ info = info' ∧ i = i' := by
  have h' := Encodable.encode_injective h
  simp only [Prod.mk.injEq] at h'
  obtain ⟨hikm, hsalt, hinfo, -, hi⟩ := h'
  exact ⟨Sum.map_injective.mpr ⟨Function.injective_id, toNats_injective⟩ hikm, hsalt,
    toNats_injective hinfo, hi⟩

lemma hash_kdfAuthInjective : Auth.KdfAuthInjective hash := by
  intro epoch rootKey rootKey' updateKey updateKey' h
  obtain ⟨hikm, hsalt, -⟩ := hkdf_injective h
  exact ⟨Option.some.inj hsalt, Sum.inl.inj hikm⟩

/-! ## The codec -/

/-- The field with `2^256` elements. -/
abbrev F256 : Type := GaloisField 2 256

lemma card_F256 : Nat.card F256 = 2 ^ 256 := GaloisField.card 2 256 (by norm_num)

/-- Shards and field elements are equally many. -/
lemma nonempty_equiv : Nonempty (List.Vector UInt8 chunkBytes ≃ F256) := by
  refine Finite.card_eq.mp ?_
  have hbyte : Fintype.card UInt8 = 256 := by
    rw [← Fintype.card_fin 256]
    exact Fintype.card_congr ⟨UInt8.toFin, UInt8.ofFin, fun _ => rfl, fun _ => rfl⟩
  rw [card_F256, Nat.card_eq_fintype_card, card_vector, hbyte, chunkBytes]
  norm_num

noncomputable def shardEquiv : List.Vector UInt8 chunkBytes ≃ F256 := nonempty_equiv.some

/-- Shards as field elements. -/
noncomputable def alphabet : ErasureCode.Alphabet Bytes F256 where
  Valid b := b.length = chunkBytes
  toField b := if h : b.length = chunkBytes then shardEquiv ⟨b, h⟩ else 0
  ofField x := (shardEquiv.symm x).toList
  valid_ofField x := (shardEquiv.symm x).toList_length
  toField_ofField x := by
    have hlen := (shardEquiv.symm x).toList_length
    rw [dif_pos hlen]
    exact shardEquiv.apply_symm_apply x
  ofField_toField b hb := by
    rw [dif_pos hb]
    exact congrArg List.Vector.toList (shardEquiv.symm_apply_apply ⟨b, hb⟩)

/-- Distinct nodes for as many shards as the codec supports. -/
noncomputable def nodes (i : ℕ) : F256 :=
  if h : i < Nat.card F256 then (Finite.equivFin F256).symm ⟨i, h⟩ else 0

lemma nodes_injOn {n : ℕ} (hn : n ≤ 65536) : Set.InjOn nodes (Finset.range n) := by
  have hlt : ∀ i ∈ Finset.range n, i < Nat.card F256 := by
    intro i hi
    rw [card_F256]
    exact (Finset.mem_range.mp hi).trans_le (hn.trans (by norm_num))
  intro i hi j hj hij
  rw [nodes, nodes, dif_pos (hlt i hi), dif_pos (hlt j hj)] at hij
  exact congrArg Fin.val ((Finite.equivFin F256).symm.injective hij)

/-- The interpolation code on shards. -/
noncomputable def codec : ReedSolomon where
  encode k r originals :=
    if k + r ≤ 65536 ∧ ∀ s ∈ originals, s.length = chunkBytes then
      .ok (ErasureCode.recovery alphabet nodes k r originals)
    else .error "unsupported shards"
  decode k r original recovered :=
    .ok (fun i => some (ErasureCode.restore alphabet nodes k r original recovered i))

lemma codec_correct : codec.Correct where
  encode_ok k r originals _ hk _ hr _ hsize := ⟨_, if_pos ⟨by omega, hsize⟩⟩
  encode_shape k r originals recovery _ henc := by
    simp only [codec] at henc
    split at henc
    · have hrec := Except.ok.inj henc
      subst hrec
      refine ⟨by simp [ErasureCode.recovery], ?_⟩
      intro s hs
      simp only [ErasureCode.recovery, List.mem_map] at hs
      obtain ⟨j, -, rfl⟩ := hs
      exact alphabet.valid_ofField _
    · cases henc
  decode_ok k r originals recovery hlen henc original recovered horig hrec hcard := by
    simp only [codec] at henc
    split at henc
    · rename_i hsupported
      have heq := Except.ok.inj henc
      subst heq
      refine ⟨_, rfl, ?_⟩
      intro i hi _
      refine ErasureCode.restore_recovery (nodes_injOn hsupported.1) hlen hsupported.2 horig hrec
        ?_ hi
      rw [ErasureCode.card_known]
      exact hcard
    · cases henc

/-! ## The KEM -/

/-- The first `n` bytes of `b`, with zeros where there are none. -/
def fit (n : ℕ) (b : Bytes) : Bytes := (b ++ List.replicate n 0).take n

@[simp] lemma length_fit (n : ℕ) (b : Bytes) : (fit n b).length = n := by
  simp [fit]

lemma take_fit {n : ℕ} {b : Bytes} (h : b.length ≤ n) : (fit n b).take b.length = b := by
  simp [fit, List.take_take, h]

/-- A KEM whose ciphertext is its randomness, and whose public key is the seed. -/
def kem : Libcrux ℕ where
  keyPairLen := seedLen
  encapsStateLen := 0
  keyPairFromSeed seed := fit seedLen seed
  pk1 kp := fit pk1Len kp
  pk2 kp := fit pk2Len (fit pk1Len kp)
  validatePkBytes pk1 pk2 := if pk2 = fit pk2Len pk1 then .ok () else .error "invalid public key"
  encapsulate1 _ r := .ok (fit ct1Len r, [], Encodable.encode (toNats r))
  encapsulate2 _ _ := fit ct2Len []
  decapsulateIncrementalKey _ ct1 _ :=
    .ok (Encodable.encode (toNats (ct1.take encapsRandomnessLen)))
  keyPairFromSeed_length _ := length_fit _ _
  pk1_length _ := length_fit _ _
  pk2_length _ := length_fit _ _
  encapsulate1_length pk r ct1 st ss h := by
    cases h
    exact ⟨length_fit _ _, rfl⟩
  encapsulate2_length _ _ := length_fit _ _

lemma kem_correct : kem.Correct where
  validate_ok seed _ := if_pos rfl
  encapsulate1_ok seed r _ _ := ⟨_, rfl⟩
  decapsulate_ok seed r ct1 st ss _ hr h := by
    cases h
    have htake : (fit ct1Len r).take encapsRandomnessLen = r := by
      rw [← hr]
      exact take_fit (hr.trans_le (by decide))
    simp only [kem, htake]

lemma kem_binding : kem.Binding := by
  intro kp pk2 h
  simp only [kem] at h
  split at h
  · assumption
  · cases h

end Ideal

/-- All of them together. -/
noncomputable def idealPrims : Prims ℕ := ⟨Ideal.hash, Ideal.kem, Ideal.codec⟩

lemma idealPrims_correct : idealPrims.Correct := ⟨Ideal.kem_correct, Ideal.codec_correct⟩

lemma idealPrims_robust : idealPrims.Robust where
  decode_total := by
    intro k r original recovered _ _ _ _ _ _ _
    exact ⟨_, rfl, fun i _ _ => ⟨_, rfl, Ideal.alphabet.valid_ofField _⟩⟩
  decapsulate_total := by
    intro kp ct1 ct2 _ _ _
    exact ⟨_, rfl⟩

/-- A random number generator, for the runs that need one. -/
def zeroRng : Rng where
  fill n := List.replicate n 0
  fill_length _ := List.length_replicate

end Hushwire
