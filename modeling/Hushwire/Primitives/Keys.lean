import Hushwire.Basic

/-!
# Identity keys

`src/primitives/keys.rs`.  An identity is an Ed25519 key pair; the X25519 keys it takes part in
key agreements with are derived from it.  `Ed25519` and `X25519` are what `ed25519_dalek`,
`x25519_dalek` and `curve25519_dalek` supply.
-/

namespace Hushwire

variable {Key : Type}

/-- The Ed25519 encoding of an identity. -/
abbrev IdentityPublicKey := Bytes

/-- What `x25519_dalek` and the conversion of identity keys supply.  A secret is the bytes it
was made from; public keys and shared secrets are 32-byte blocks. -/
structure X25519 (Key : Type) where
  publicKey : Bytes → Key
  diffieHellman : Bytes → Key → Key
  ofIdentity : IdentityPublicKey → Key

/-- Both ends of a key agreement arrive at one secret. -/
def X25519.Commutes (X : X25519 Key) : Prop :=
  ∀ a b, X.diffieHellman a (X.publicKey b) = X.diffieHellman b (X.publicKey a)

/-- What `ed25519_dalek` supplies.  A signing key is its 32-byte seed. -/
structure Ed25519 where
  verifyingKey : Bytes → Bytes
  sign : Bytes → Bytes → Bytes
  /-- Whether `VerifyingKey::from_bytes` takes the bytes for a point. -/
  isPoint : Bytes → Bool
  verify : Bytes → Bytes → Bytes → Bool
  sign_length : ∀ seed data, (sign seed data).length = 64

/-- A signature verifies under the public half of the key that made it. -/
structure Ed25519.Correct (E : Ed25519) : Prop where
  isPoint_verifyingKey : ∀ seed, E.isPoint (E.verifyingKey seed) = true
  verify_sign : ∀ seed data, E.verify (E.verifyingKey seed) data (E.sign seed data) = true

/-! ## Key pairs -/

/-- The bits that an X25519 scalar has to have set and cleared. -/
def clamp (scalar : Bytes) : Bytes :=
  (scalar.modify 0 (· &&& 248)).modify 31 (fun b => (b &&& 127) ||| 64)

/-- `IdentityKeyPair`, known by its seed. -/
structure IdentityKeyPair where
  seed : Bytes

namespace IdentityKeyPair

/-- `IdentityKeyPair::public_key`. -/
def publicKey (E : Ed25519) (pair : IdentityKeyPair) : IdentityPublicKey := E.verifyingKey pair.seed

/-- `IdentityKeyPair::sign`. -/
def sign (E : Ed25519) (pair : IdentityKeyPair) (data : Bytes) : Bytes := E.sign pair.seed data

/-- `IdentityKeyPair::x25519_private_key`. -/
def x25519PrivateKey (sha512 : Bytes → Bytes) (pair : IdentityKeyPair) : Bytes :=
  clamp ((sha512 pair.seed).take 32)

end IdentityKeyPair

/-- The X25519 key of an identity is the public half of the one derived from its seed. -/
def X25519.OfIdentities (X : X25519 Key) (E : Ed25519) (sha512 : Bytes → Bytes) : Prop :=
  ∀ pair : IdentityKeyPair,
    X.ofIdentity (pair.publicKey E) = X.publicKey (pair.x25519PrivateKey sha512)

/-! ## Signatures -/

namespace IdentityPublicKey

variable (E : Ed25519)

/-- `IdentityPublicKey::from_bytes`. -/
def fromBytes (bytes : Bytes) : Result IdentityPublicKey :=
  if E.isPoint bytes then .ok bytes else .error .invalidKey

/-- `IdentityPublicKey::verify`. -/
def verify (key : IdentityPublicKey) (data signature : Bytes) : Result Unit :=
  if signature.length ≠ 64 then .error .invalidSignature
  else if E.verify key data signature then .ok ()
  else .error .invalidSignature

variable {E}

lemma fromBytes_verifyingKey (hE : E.Correct) (seed : Bytes) :
    fromBytes E (E.verifyingKey seed) = .ok (E.verifyingKey seed) :=
  if_pos (hE.isPoint_verifyingKey seed)

lemma verify_sign (hE : E.Correct) (seed data : Bytes) :
    verify E (E.verifyingKey seed) data (E.sign seed data) = .ok () := by
  have hlen : ¬ (E.sign seed data).length ≠ 64 := not_not.mpr (E.sign_length seed data)
  rw [verify, if_neg hlen, if_pos (hE.verify_sign seed data)]

end IdentityPublicKey

end Hushwire
