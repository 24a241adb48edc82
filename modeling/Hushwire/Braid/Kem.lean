import Hushwire.Basic

/-!
# The incremental KEM

`src/protocol/braid/kem.rs`: a thin wrapper over `libcrux-ml-kem`'s incremental ML-KEM-768.
The library is the parameter `Libcrux`, whose length fields are the array types of its API;
the wrappers add the length checks and the error conversion.  `Libcrux.Correct` is KEM
correctness for honestly generated keys.
-/

namespace Hushwire

variable {Key : Type}

/-- `kem::SEED_LEN`. -/
def seedLen : ℕ := 64

/-- `kem::ENCAPS_RANDOMNESS_LEN`. -/
def encapsRandomnessLen : ℕ := 32

/-- `kem::pk1_len()`. -/
def pk1Len : ℕ := 64

/-- `kem::pk2_len()`. -/
def pk2Len : ℕ := 1152

/-- `kem::ct1_len()`. -/
def ct1Len : ℕ := 960

/-- `kem::ct2_len()`. -/
def ct2Len : ℕ := 128

/-- The incremental API of `libcrux-ml-kem`.  Errors are carried as the text the wrapper
formats them to. -/
structure Libcrux (Key : Type) where
  keyPairLen : ℕ
  encapsStateLen : ℕ
  keyPairFromSeed : Bytes → Bytes
  pk1 : Bytes → Bytes
  pk2 : Bytes → Bytes
  validatePkBytes : Bytes → Bytes → Except String Unit
  /-- `ct1`, the carried encapsulation state, and the shared secret. -/
  encapsulate1 : Bytes → Bytes → Except String (Bytes × Bytes × Key)
  encapsulate2 : Bytes → Bytes → Bytes
  decapsulateIncrementalKey : Bytes → Bytes → Bytes → Except String Key
  keyPairFromSeed_length : ∀ seed, (keyPairFromSeed seed).length = keyPairLen
  pk1_length : ∀ kp, (pk1 kp).length = pk1Len
  pk2_length : ∀ kp, (pk2 kp).length = pk2Len
  encapsulate1_length : ∀ pk r ct1 st ss, encapsulate1 pk r = .ok (ct1, st, ss) →
    ct1.length = ct1Len ∧ st.length = encapsStateLen
  encapsulate2_length : ∀ st pk, (encapsulate2 st pk).length = ct2Len

/-- KEM correctness on honestly generated keys: every public operation succeeds and the two
parties derive the same secret. -/
structure Libcrux.Correct (K : Libcrux Key) : Prop where
  validate_ok : ∀ seed, seed.length = seedLen →
    K.validatePkBytes (K.pk1 (K.keyPairFromSeed seed)) (K.pk2 (K.keyPairFromSeed seed)) = .ok ()
  encapsulate1_ok : ∀ seed r, seed.length = seedLen → r.length = encapsRandomnessLen →
    ∃ out, K.encapsulate1 (K.pk1 (K.keyPairFromSeed seed)) r = .ok out
  decapsulate_ok : ∀ seed r ct1 st ss, seed.length = seedLen →
    r.length = encapsRandomnessLen →
    K.encapsulate1 (K.pk1 (K.keyPairFromSeed seed)) r = .ok (ct1, st, ss) →
    K.decapsulateIncrementalKey (K.keyPairFromSeed seed) ct1
      (K.encapsulate2 st (K.pk2 (K.keyPairFromSeed seed))) = .ok ss

/-- The header commits to the vector: validation accepts no other one for it. -/
def Libcrux.Binding (K : Libcrux Key) : Prop :=
  ∀ kp pk2, K.validatePkBytes (K.pk1 kp) pk2 = .ok () → pk2 = K.pk2 kp

namespace Kem

/-- `kem_err`. -/
def kemErr (e : String) : CryptoError := .braidKem e

/-- `size_err`. -/
def sizeErr (what : String) : CryptoError := .braidKem ("wrong byte length for " ++ what)

variable (K : Libcrux Key)

/-- `generate_keypair`. -/
def generateKeypair (seed : Bytes) : Bytes := K.keyPairFromSeed seed

/-- `public_key_parts`. -/
def publicKeyParts (keypair : Bytes) : Result (Bytes × Bytes) :=
  if keypair.length = K.keyPairLen then .ok (K.pk1 keypair, K.pk2 keypair)
  else .error (sizeErr "keypair")

/-- `validate_public_key`. -/
def validatePublicKey (pk1 pk2 : Bytes) : Result Unit :=
  (K.validatePkBytes pk1 pk2).mapError kemErr

/-- `encapsulate1`. -/
def encapsulate1 (pk1 randomness : Bytes) : Result (Bytes × Bytes × Key) :=
  (K.encapsulate1 pk1 randomness).mapError kemErr

/-- `encapsulate2`. -/
def encapsulate2 (state pk2 : Bytes) : Result Bytes :=
  if state.length ≠ K.encapsStateLen then .error (sizeErr "encaps state")
  else if pk2.length ≠ pk2Len then .error (sizeErr "pk2")
  else .ok (K.encapsulate2 state pk2)

/-- `decapsulate`. -/
def decapsulate (keypair ct1 ct2 : Bytes) : Result Key :=
  if ct1.length ≠ ct1Len then .error (sizeErr "ct1")
  else if ct2.length ≠ ct2Len then .error (sizeErr "ct2")
  else (K.decapsulateIncrementalKey keypair ct1 ct2).mapError kemErr

end Kem

end Hushwire
