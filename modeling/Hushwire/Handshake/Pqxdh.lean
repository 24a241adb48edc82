import Hushwire.Ratchet.Session

/-!
# PQXDH

`src/protocol/pqxdh.rs` and `src/protocol/prekey.rs`: the key agreement that a session starts
from.  The initiator works on a bundle of public keys that the responder has published, the
responder on the initiator's first message.  Both put together three or four Diffie-Hellman secrets
and a KEM secret, each from its own halves of the keys.

* `processPrekeyBundle`, `processInitialMessage` — the two sides.
* `PreKeyBundle.For` — a bundle that belongs to an identity and to given private keys.
* `exists_agree` — both sides derive one secret.
-/

namespace Hushwire

variable {Key : Type}

/-! ## Libraries -/

/-- The size of an ML-KEM-1024 encapsulation key. -/
def encapsulationKeySize : ℕ := 1568

/-- The size of an ML-KEM-1024 ciphertext. -/
def kyberCiphertextSize : ℕ := 1568

/-- What the `ml_kem` crate supplies.  A decapsulation key is the 64-byte seed it is stored as. -/
structure MlKem1024 where
  encapsulationKey : Bytes → Bytes
  /-- Whether `EncapsulationKey::new` takes bytes of the right length. -/
  isKey : Bytes → Bool
  /-- Key and randomness; the ciphertext and the shared secret. -/
  encapsulate : Bytes → Bytes → Bytes × Bytes
  decapsulate : Bytes → Bytes → Bytes

/-- Decapsulation undoes encapsulation, and keys and ciphertexts have their sizes. -/
structure MlKem1024.Correct (M : MlKem1024) : Prop where
  encapsulationKey_length : ∀ seed, (M.encapsulationKey seed).length = encapsulationKeySize
  isKey_encapsulationKey : ∀ seed, M.isKey (M.encapsulationKey seed) = true
  encapsulate_length : ∀ ek rand, (M.encapsulate ek rand).1.length = kyberCiphertextSize
  decapsulate_encapsulate : ∀ seed rand,
    M.decapsulate seed (M.encapsulate (M.encapsulationKey seed) rand).1 =
      (M.encapsulate (M.encapsulationKey seed) rand).2

/-- What the handshake takes from other crates, on top of the session it starts. -/
structure HandshakeSuite (Key : Type) extends Suite Key where
  ed25519 : Ed25519
  sha512 : Bytes → Bytes
  mlKem : MlKem1024

/-! ## Bundles -/

/-- `OneTimePreKey`. -/
structure OneTimePreKey (Key : Type) where
  id : ℕ
  publicKey : Key

/-- `KyberPreKey`. -/
structure KyberPreKey where
  id : ℕ
  publicKey : Bytes
  signature : Bytes
  isLastResort : Bool

/-- `PreKeyBundle`. -/
structure PreKeyBundle (Key : Type) where
  registrationId : ℕ
  deviceId : ℕ
  identityKey : IdentityPublicKey
  signedPreKeyId : ℕ
  signedPreKeyPublic : Key
  signedPreKeySignature : Bytes
  oneTimePreKey : Option (OneTimePreKey Key)
  kyberPreKey : KyberPreKey

/-- `PqxdhOutput`. -/
structure PqxdhOutput (Key : Type) where
  sharedSecret : Key
  initialMessage : PqxdhInitialMessage Key

/-! ## The two sides -/

section Calls

variable (C : HandshakeSuite Key)

/-- `ek_from_bytes`. -/
def ekFromBytes (M : MlKem1024) (bytes : Bytes) : Result Bytes :=
  if bytes.length ≠ encapsulationKeySize then
    .error (.invalidPrekeyBundle "wrong ML-KEM-1024 key length")
  else if M.isKey bytes then .ok bytes
  else .error (.invalidPrekeyBundle "invalid ML-KEM-1024 public key")

/-- `PQXDH_INFO`. -/
def pqxdhInfo : Bytes := ascii "HushwireProtocol"

/-- `hkdf_sha256(&dh_material, Some(&salt), PQXDH_INFO, 32)`, on the material as both sides lay it
out. -/
def pqxdhSecret (dh1 dh2 dh3 : Key) (dh4 : Option Key) (ss : Bytes) : Key :=
  let dhMaterial := List.replicate 32 0xFF ++ C.hash.asBytes dh1 ++ C.hash.asBytes dh2 ++
    C.hash.asBytes dh3 ++ (dh4.map C.hash.asBytes).getD [] ++ ss
  C.hash.hkdf (.inr dhMaterial) (some C.hash.zero) pqxdhInfo 32 0

/-- The rest of `process_prekey_bundle` once the bundle is accepted: with the ephemeral key and
with what the KEM returned. -/
def agree (ourIdentity : IdentityKeyPair) (theirBundle : PreKeyBundle Key)
    (ephemeral ct ss : Bytes) :
    PqxdhOutput Key :=
  let ourX25519 := ourIdentity.x25519PrivateKey C.sha512
  let theirX25519 := C.x25519.ofIdentity theirBundle.identityKey
  let spkX25519 := theirBundle.signedPreKeyPublic
  let dh1 := C.x25519.diffieHellman ourX25519 spkX25519
  let dh2 := C.x25519.diffieHellman ephemeral theirX25519
  let dh3 := C.x25519.diffieHellman ephemeral spkX25519
  let dh4 := theirBundle.oneTimePreKey.map
    (fun opk => C.x25519.diffieHellman ephemeral opk.publicKey)
  { sharedSecret := pqxdhSecret C dh1 dh2 dh3 dh4 ss
    initialMessage :=
      { registrationId := 0
        ephemeralPublicKey := C.x25519.publicKey ephemeral
        signedPreKeyId := theirBundle.signedPreKeyId
        oneTimePreKeyId := theirBundle.oneTimePreKey.map (·.id)
        kyberPreKeyId := theirBundle.kyberPreKey.id
        kyberCiphertext := ct
        identityKey := ourIdentity.publicKey C.ed25519 } }

/-- `process_prekey_bundle`.  The ephemeral key and the randomness of the KEM are drawn
independently. -/
def processPrekeyBundle (rng kemRng : Rng) (ourIdentity : IdentityKeyPair)
    (theirBundle : PreKeyBundle Key) : Result (PqxdhOutput Key) := do
  IdentityPublicKey.verify C.ed25519 theirBundle.identityKey
    (C.hash.asBytes theirBundle.signedPreKeyPublic) theirBundle.signedPreKeySignature
  IdentityPublicKey.verify C.ed25519 theirBundle.identityKey theirBundle.kyberPreKey.publicKey
    theirBundle.kyberPreKey.signature
  let ek ← ekFromBytes C.mlKem theirBundle.kyberPreKey.publicKey
  let (ct, ss) := C.mlKem.encapsulate ek (kemRng.fill 32)
  .ok (agree C ourIdentity theirBundle (rng.fill 32) ct ss)

/-- The `dh4` of `process_initial_message`: whether there is one is decided by the message. -/
def responderDh4 (oneTimePreKeyPrivate : Option Bytes)
    (initialMessage : PqxdhInitialMessage Key) : Result (Option Key) :=
  if initialMessage.oneTimePreKeyId.isSome then
    match oneTimePreKeyPrivate with
    | none => .error (.invalidPrekeyBundle "missing one-time prekey private")
    | some opkPrivate =>
        .ok (some (C.x25519.diffieHellman opkPrivate initialMessage.ephemeralPublicKey))
  else .ok none

/-- `process_initial_message`. -/
def processInitialMessage (ourIdentity : IdentityKeyPair) (signedPreKeyPrivate : Bytes)
    (oneTimePreKeyPrivate : Option Bytes) (kyberDecapsulationKey : Bytes)
    (initialMessage : PqxdhInitialMessage Key) : Result Key := do
  let ourX25519 := ourIdentity.x25519PrivateKey C.sha512
  let theirX25519 := C.x25519.ofIdentity initialMessage.identityKey
  let ekX25519 := initialMessage.ephemeralPublicKey
  let dh1 := C.x25519.diffieHellman signedPreKeyPrivate theirX25519
  let dh2 := C.x25519.diffieHellman ourX25519 ekX25519
  let dh3 := C.x25519.diffieHellman signedPreKeyPrivate ekX25519
  let dh4 ← responderDh4 C oneTimePreKeyPrivate initialMessage
  if initialMessage.kyberCiphertext.length ≠ kyberCiphertextSize then .error .invalidCiphertext
  else
    let ss := C.mlKem.decapsulate kyberDecapsulationKey initialMessage.kyberCiphertext
    .ok (pqxdhSecret C dh1 dh2 dh3 dh4 ss)

end Calls

/-! ## Agreement -/

/-- A bundle that an identity has published for its private keys.  If there is no one-time prekey
in it, nothing is said about the responder's. -/
structure PreKeyBundle.For (C : HandshakeSuite Key) (identity : IdentityKeyPair)
    (signedPreKeyPrivate : Bytes) (oneTimePreKeyPrivate : Option Bytes) (kyberDkSeed : Bytes)
    (bundle : PreKeyBundle Key) : Prop where
  identityKey : bundle.identityKey = identity.publicKey C.ed25519
  signedPreKey : bundle.signedPreKeyPublic = C.x25519.publicKey signedPreKeyPrivate
  signedPreKeySigned : IdentityPublicKey.verify C.ed25519 bundle.identityKey
    (C.hash.asBytes bundle.signedPreKeyPublic) bundle.signedPreKeySignature = .ok ()
  oneTimePreKey : ∀ opk ∈ bundle.oneTimePreKey, ∃ opkPrivate ∈ oneTimePreKeyPrivate,
    opk.publicKey = C.x25519.publicKey opkPrivate
  kyberPreKey : bundle.kyberPreKey.publicKey = C.mlKem.encapsulationKey kyberDkSeed
  kyberPreKeySigned : IdentityPublicKey.verify C.ed25519 bundle.identityKey
    bundle.kyberPreKey.publicKey bundle.kyberPreKey.signature = .ok ()

section Agreement

variable {C : HandshakeSuite Key} {alice bob : IdentityKeyPair} {spk dkSeed : Bytes}
  {opk : Option Bytes} {bundle : PreKeyBundle Key}

lemma ekFromBytes_encapsulationKey (hM : C.mlKem.Correct) (seed : Bytes) :
    ekFromBytes C.mlKem (C.mlKem.encapsulationKey seed) = .ok (C.mlKem.encapsulationKey seed) := by
  rw [ekFromBytes, if_neg (not_not.mpr (hM.encapsulationKey_length seed)),
    if_pos (hM.isKey_encapsulationKey seed)]

/-- The fourth secret is there on both sides or on neither, and it is the same. -/
lemma responderDh4_eq (hX : C.x25519.Commutes) (hb : bundle.For C bob spk opk dkSeed)
    {ephemeral : Bytes} {initialMessage : PqxdhInitialMessage Key}
    (hid : initialMessage.oneTimePreKeyId = bundle.oneTimePreKey.map (·.id))
    (heph : initialMessage.ephemeralPublicKey = C.x25519.publicKey ephemeral) :
    responderDh4 C opk initialMessage =
      .ok (bundle.oneTimePreKey.map
        (fun k => C.x25519.diffieHellman ephemeral k.publicKey)) := by
  rcases hopk : bundle.oneTimePreKey with _ | k
  · rw [hopk] at hid
    simp only [responderDh4, hid, Option.map_none, Option.isSome_none, Bool.false_eq_true, if_false]
  · obtain ⟨opkPrivate, hprivate, hpublic⟩ := hb.oneTimePreKey k hopk
    rw [hopk] at hid
    simp only [responderDh4, hid, Option.map_some, Option.isSome_some, if_true,
      Option.mem_def.mp hprivate, heph, hpublic]
    rw [hX]

/-- The responder gets from the initial message the secret that the initiator has. -/
lemma processInitialMessage_agree (hX : C.x25519.Commutes)
    (hI : C.x25519.OfIdentities C.ed25519 C.sha512) (hb : bundle.For C bob spk opk dkSeed)
    (ephemeral : Bytes) {ct ss : Bytes} (hlen : ct.length = kyberCiphertextSize)
    (hss : C.mlKem.decapsulate dkSeed ct = ss) :
    processInitialMessage C bob spk opk dkSeed
        (agree C alice bundle ephemeral ct ss).initialMessage =
      .ok (agree C alice bundle ephemeral ct ss).sharedSecret := by
  have hdh4 : responderDh4 C opk (agree C alice bundle ephemeral ct ss).initialMessage = _ :=
    responderDh4_eq hX hb rfl rfl
  simp only [processInitialMessage, hdh4]
  show (if ct.length ≠ kyberCiphertextSize then _ else _) = _
  rw [if_neg (not_not.mpr hlen)]
  -- each secret is one of the initiator's with the halves exchanged
  have hdh1 : C.x25519.diffieHellman spk (C.x25519.ofIdentity (alice.publicKey C.ed25519)) =
      C.x25519.diffieHellman (alice.x25519PrivateKey C.sha512) bundle.signedPreKeyPublic := by
    rw [hI, hb.signedPreKey, hX]
  have hdh2 : C.x25519.diffieHellman (bob.x25519PrivateKey C.sha512)
      (C.x25519.publicKey ephemeral) =
        C.x25519.diffieHellman ephemeral (C.x25519.ofIdentity bundle.identityKey) := by
    rw [hb.identityKey, hI, hX]
  have hdh3 : C.x25519.diffieHellman spk (C.x25519.publicKey ephemeral) =
      C.x25519.diffieHellman ephemeral bundle.signedPreKeyPublic := by
    rw [hb.signedPreKey, hX]
  simp only [agree, hss, hdh1, hdh2, hdh3]

/-- **Both sides derive one secret.**  The initiator accepts the bundle, and the responder gets
from the initial message the secret that the initiator has. -/
theorem exists_agree (hX : C.x25519.Commutes)
    (hI : C.x25519.OfIdentities C.ed25519 C.sha512) (hM : C.mlKem.Correct)
    (hb : bundle.For C bob spk opk dkSeed) (alice : IdentityKeyPair) (rng kemRng : Rng) :
    ∃ out, processPrekeyBundle C rng kemRng alice bundle = .ok out ∧
      processInitialMessage C bob spk opk dkSeed out.initialMessage = .ok out.sharedSecret ∧
      out.initialMessage.identityKey = alice.publicKey C.ed25519 := by
  have hek : ekFromBytes C.mlKem bundle.kyberPreKey.publicKey =
      .ok (C.mlKem.encapsulationKey dkSeed) := by
    rw [hb.kyberPreKey]
    exact ekFromBytes_encapsulationKey hM dkSeed
  refine ⟨agree C alice bundle (rng.fill 32)
    (C.mlKem.encapsulate (C.mlKem.encapsulationKey dkSeed) (kemRng.fill 32)).1
    (C.mlKem.encapsulate (C.mlKem.encapsulationKey dkSeed) (kemRng.fill 32)).2, ?_, ?_, rfl⟩
  · simp only [processPrekeyBundle, hb.signedPreKeySigned, hb.kyberPreKeySigned, hek]
    rfl
  · exact processInitialMessage_agree hX hI hb _ (hM.encapsulate_length _ _)
      (hM.decapsulate_encapsulate _ _)

end Agreement

end Hushwire
