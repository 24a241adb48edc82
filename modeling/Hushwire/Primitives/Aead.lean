import Hushwire.Braid.StateMachine

/-!
# Authenticated encryption

`src/primitives/aead.rs`: XChaCha20-Poly1305 with a key derived from the message key and a
random nonce in front of the ciphertext.  `XChaCha` is what the `chacha20poly1305` crate
supplies.
-/

namespace Hushwire

variable {Key : Type}

/-- XChaCha20-Poly1305: key, nonce, message, associated data. -/
structure XChaCha (Key : Type) where
  encrypt : Key → Bytes → Bytes → Bytes → Option Bytes
  decrypt : Key → Bytes → Bytes → Bytes → Option Bytes

/-- `NONCE_SIZE`. -/
def nonceSize : ℕ := 24

/-- The size of a Poly1305 tag. -/
def tagSize : ℕ := 16

/-- Decryption undoes encryption, and a ciphertext ends in a tag. -/
structure XChaCha.Correct (A : XChaCha Key) : Prop where
  decrypt_encrypt : ∀ key nonce msg ad ct, A.encrypt key nonce msg ad = some ct →
    A.decrypt key nonce ct ad = some msg
  tagSize_le : ∀ key nonce msg ad ct, A.encrypt key nonce msg ad = some ct → tagSize ≤ ct.length

/-- Whether a message is sealed does not depend on the key and the nonce. -/
def XChaCha.Uniform (A : XChaCha Key) : Prop :=
  ∀ key key' nonce nonce' msg ad,
    (A.encrypt key nonce msg ad).isSome = (A.encrypt key' nonce' msg ad).isSome

namespace Aead

variable (H : Hash Key) (A : XChaCha Key)

/-- `derive_enc_key`. -/
def deriveEncKey (messageKey : Key) : Key :=
  H.hkdf (.inl messageKey) (some H.zero) (ascii "HushwireMessageKey") 32 0

/-- `encrypt`: nonce, ciphertext, tag. -/
def encrypt (rng : Rng) (messageKey : Key) (plaintext ad : Bytes) : Result Bytes :=
  let nonce := rng.fill nonceSize
  match A.encrypt (deriveEncKey H messageKey) nonce plaintext ad with
  | none => .error (.encryptionFailed "AEAD encrypt failed")
  | some ciphertext => .ok (nonce ++ ciphertext)

/-- `decrypt`. -/
def decrypt (messageKey : Key) (encrypted ad : Bytes) : Result Bytes :=
  if encrypted.length < nonceSize + tagSize then .error .invalidCiphertext
  else
    match A.decrypt (deriveEncKey H messageKey) (encrypted.take nonceSize)
        (encrypted.drop nonceSize) ad with
    | none => .error (.decryptionFailed "AEAD decrypt failed")
    | some plaintext => .ok plaintext

lemma encrypt_eq_error {A : XChaCha Key} {rng : Rng} {messageKey : Key} {plaintext ad : Bytes}
    {e : CryptoError} (h : encrypt H A rng messageKey plaintext ad = .error e) :
    A.encrypt (deriveEncKey H messageKey) (rng.fill nonceSize) plaintext ad = none := by
  simp only [encrypt] at h
  split at h
  · assumption
  · cases h

lemma error_of_encrypt {A : XChaCha Key} {rng : Rng} {messageKey : Key} {plaintext ad : Bytes}
    {e : CryptoError} (h : encrypt H A rng messageKey plaintext ad = .error e) :
    e = .encryptionFailed "AEAD encrypt failed" := by
  simp only [encrypt, encrypt_eq_error H h] at h
  exact (Except.error.inj h).symm

lemma isSome_of_encrypt_eq_ok {A : XChaCha Key} {rng : Rng} {messageKey : Key}
    {plaintext ad encrypted : Bytes} (h : encrypt H A rng messageKey plaintext ad = .ok encrypted) :
    (A.encrypt (deriveEncKey H messageKey) (rng.fill nonceSize) plaintext ad).isSome = true := by
  simp only [encrypt] at h
  split at h
  · cases h
  · rename_i ct hct
    rw [hct, Option.isSome_some]

/-- What `encrypt` returns opens under the same key and associated data. -/
theorem decrypt_encrypt {A : XChaCha Key} (hA : A.Correct) {rng : Rng} {messageKey : Key}
    {plaintext ad encrypted : Bytes} (h : encrypt H A rng messageKey plaintext ad = .ok encrypted) :
    decrypt H A messageKey encrypted ad = .ok plaintext := by
  simp only [encrypt] at h
  split at h
  · cases h
  · rename_i ct hct
    obtain rfl := Except.ok.inj h
    have hnonce : (rng.fill nonceSize).length = nonceSize := rng.fill_length _
    have hlen : ¬ (rng.fill nonceSize ++ ct).length < nonceSize + tagSize := by
      have := hA.tagSize_le _ _ _ _ _ hct
      rw [List.length_append, hnonce]
      omega
    rw [decrypt, if_neg hlen, List.take_left' hnonce, List.drop_left' hnonce,
      hA.decrypt_encrypt _ _ _ _ _ hct]

end Aead

end Hushwire
