import Hushwire.Primitives.Aead
import Hushwire.Primitives.Serialization
import Hushwire.Ratchet.Ideal
import Hushwire.SealedSender.Certificate

/-!
# Sealed sender

`src/protocol/sealed_sender/mod.rs`.  An envelope hides who has sent it in two layers.  The first
is encrypted under a key agreed between an ephemeral key and the recipient's identity and holds the
sender's X25519 key; the second is encrypted under what follows of the first and of the agreement
between the two identities, and holds the sender's certificate and the content.  The recipient
works out the same keys from the other halves and then checks the certificate.

* `SealedSender.seal`, `SealedSender.unseal` — the two calls.
* `SealedSenderSuite.Correct` — what is assumed of the libraries.
* `unseal_seal` — the recipient gets the content and who the certificate says has sent it.
-/

namespace Hushwire

variable {Key : Type}

/-! ## Envelopes -/

/-- `SealedSenderEnvelope`. -/
structure SealedSenderEnvelope (Key : Type) where
  ephemeralPublic : Key
  encryptedStatic : Bytes
  certHash : Key
  encryptedMessage : Bytes

/-- `InnerMessage`. -/
structure InnerMessage where
  senderCertificate : SenderCertificate
  content : Bytes

/-- `UnsealedMessage`. -/
structure UnsealedMessage where
  senderUuid : SenderUuid
  senderDeviceId : UInt32
  senderIdentity : IdentityPublicKey
  content : Bytes

/-- What sealing takes from other crates. -/
structure SealedSenderSuite (Key : Type) where
  hash : Hash Key
  x25519 : X25519 Key
  xchacha : XChaCha Key
  ed25519 : Ed25519
  sha256 : Bytes → Key
  sha512 : Bytes → Bytes
  /-- The key with the given 32 bytes. -/
  fromArray : Bytes → Key
  envelope : Codec (SealedSenderEnvelope Key)
  inner : Codec InnerMessage
  certificate : Codec SenderCertificate

/-! ## The calls -/

/-- `SEALED_SENDER_STATIC_INFO`. -/
def sealedSenderStaticInfo : Bytes := ascii "HushwireSealedSender"

/-- `SEALED_SENDER_MESSAGE_INFO`. -/
def sealedSenderMessageInfo : Bytes := ascii "HushwireSealedSenderMessage"

/-- `derive_layer1_keys`: the chain key and the static cipher key. -/
def deriveLayer1Keys (H : Hash Key) (layer1Dh salt : Key) : Key × Key :=
  (H.hkdf (.inl layer1Dh) (some salt) sealedSenderStaticInfo 64 0,
    H.hkdf (.inl layer1Dh) (some salt) sealedSenderStaticInfo 64 1)

section Calls

variable (C : SealedSenderSuite Key)

/-- `bytes.try_into()` to an array of 32 bytes. -/
def tryIntoArray (bytes : Bytes) : Result Key :=
  if bytes.length = 32 then .ok (C.fromArray bytes) else .error .invalidKey

/-- `seal`.  The ephemeral key and the nonces of the two layers are drawn independently. -/
def SealedSender.seal (rng staticRng messageRng : Rng) (senderIdentity : IdentityKeyPair)
    (senderCert : SenderCertificate) (content : Bytes) (recipientIdentity : IdentityPublicKey) :
    Result Bytes := do
  let recipientX25519 := C.x25519.ofIdentity recipientIdentity
  let ephSecret := rng.fill 32
  let ephPublic := C.x25519.publicKey ephSecret
  -- layer 1: the sender's key
  let eA := C.x25519.diffieHellman ephSecret recipientX25519
  let salt := ephPublic
  let keys := deriveLayer1Keys C.hash eA salt
  let senderX25519Pub := C.x25519.ofIdentity (senderIdentity.publicKey C.ed25519)
  let encryptedStatic ← Aead.encrypt C.hash C.xchacha staticRng keys.2
    (C.hash.asBytes senderX25519Pub) (C.hash.asBytes ephPublic)
  -- layer 2: certificate and content
  let senderX25519Priv := senderIdentity.x25519PrivateKey C.sha512
  let eB := C.x25519.diffieHellman senderX25519Priv recipientX25519
  let layer2Input := C.hash.asBytes keys.1 ++ C.hash.asBytes eB
  let messageKey := C.hash.hkdf (.inr layer2Input) (some salt) sealedSenderMessageInfo 32 0
  let innerBytes ← C.inner.encode ⟨senderCert, content⟩
  let certBytes ← C.certificate.encode senderCert
  let certHash := C.sha256 certBytes
  let ad := C.hash.asBytes ephPublic ++ encryptedStatic ++ C.hash.asBytes certHash
  let encryptedMessage ← Aead.encrypt C.hash C.xchacha messageRng messageKey innerBytes ad
  C.envelope.encode
    { ephemeralPublic := ephPublic
      encryptedStatic
      certHash
      encryptedMessage }

variable [DecidableEq Key]

/-- What `unseal` checks once both layers are open: that the certificate is the one whose hash the
envelope carries, that it is valid, and that the key of the first layer is its identity's. -/
def checkSender (envelope : SealedSenderEnvelope Key) (senderX25519 : Key) (inner : InnerMessage)
    (trustRoot : Bytes) (now : UInt64) : Result UnsealedMessage := do
  let certBytes ← C.certificate.encode inner.senderCertificate
  let actualHash := C.sha256 certBytes
  if actualHash ≠ envelope.certHash then
    .error (.invalidCertificate "certificate hash mismatch")
  else
    inner.senderCertificate.validate C.ed25519 trustRoot now
    let certX25519 := C.x25519.ofIdentity inner.senderCertificate.identityKey
    if C.hash.asBytes certX25519 ≠ C.hash.asBytes senderX25519 then
      .error (.invalidCertificate "sender static key does not match certificate identity")
    else
      .ok
        { senderUuid := inner.senderCertificate.senderUuid
          senderDeviceId := inner.senderCertificate.senderDeviceId
          senderIdentity := inner.senderCertificate.identityKey
          content := inner.content }

/-- `unseal`. -/
def SealedSender.unseal (envelopeBytes : Bytes) (recipientIdentity : IdentityKeyPair)
    (trustRoot : Bytes) (now : UInt64) : Result UnsealedMessage := do
  let envelope ← C.envelope.decode envelopeBytes
  let ephPublic := envelope.ephemeralPublic
  let ourX25519 := recipientIdentity.x25519PrivateKey C.sha512
  -- layer 1
  let eA := C.x25519.diffieHellman ourX25519 ephPublic
  let salt := ephPublic
  let keys := deriveLayer1Keys C.hash eA salt
  let senderX25519Bytes ← Aead.decrypt C.hash C.xchacha keys.2 envelope.encryptedStatic
    (C.hash.asBytes ephPublic)
  let senderX25519 ← tryIntoArray C senderX25519Bytes
  -- layer 2
  let eB := C.x25519.diffieHellman ourX25519 senderX25519
  let layer2Input := C.hash.asBytes keys.1 ++ C.hash.asBytes eB
  let messageKey := C.hash.hkdf (.inr layer2Input) (some salt) sealedSenderMessageInfo 32 0
  let ad := C.hash.asBytes ephPublic ++ envelope.encryptedStatic ++
    C.hash.asBytes envelope.certHash
  let innerBytes ← Aead.decrypt C.hash C.xchacha messageKey envelope.encryptedMessage ad
  let inner ← C.inner.decode innerBytes
  checkSender C envelope senderX25519 inner trustRoot now

end Calls

/-! ## The round trip -/

/-- The libraries do what they are for.  `postcard` rejects an identity key that is not a point,
so a certificate is said to survive only if its key is one. -/
structure SealedSenderSuite.Correct (C : SealedSenderSuite Key) : Prop where
  x25519 : C.x25519.Commutes
  identities : C.x25519.OfIdentities C.ed25519 C.sha512
  xchacha : C.xchacha.Correct
  ed25519 : C.ed25519.Correct
  fromArray_asBytes : ∀ key, C.fromArray (C.hash.asBytes key) = key
  envelope : ∀ envelope, C.envelope.Survives envelope
  inner : ∀ inner, C.ed25519.isPoint inner.senderCertificate.identityKey = true →
    C.inner.Survives inner
  certificate : ∀ cert, C.ed25519.isPoint cert.identityKey = true → C.certificate.Survives cert

section RoundTrip

variable {C : SealedSenderSuite Key}

lemma tryIntoArray_asBytes (hC : C.Correct) (key : Key) :
    tryIntoArray C (C.hash.asBytes key) = .ok key := by
  rw [tryIntoArray, if_pos (C.hash.asBytes_length key), hC.fromArray_asBytes]

/-- Sealing succeeds where the AEAD refuses nothing. -/
lemma exists_seal (hC : C.Correct) (cert : SenderCertificate)
    (hpoint : C.ed25519.isPoint cert.identityKey = true)
    (hseals : ∀ rng key msg ad, ∃ ct, Aead.encrypt C.hash C.xchacha rng key msg ad = .ok ct)
    (rng staticRng messageRng : Rng) (sender : IdentityKeyPair) (content : Bytes)
    (recipient : IdentityPublicKey) :
    ∃ bytes, SealedSender.seal C rng staticRng messageRng sender cert content recipient =
      .ok bytes := by
  obtain ⟨innerBytes, hinner, -⟩ := hC.inner ⟨cert, content⟩ hpoint
  obtain ⟨certBytes, hcert, -⟩ := hC.certificate cert hpoint
  choose sealed hsealed using hseals
  simp only [SealedSender.seal, hinner, hcert, hsealed, bind, Except.bind]
  obtain ⟨bytes, hto, -⟩ := hC.envelope _
  exact ⟨bytes, hto⟩

variable [DecidableEq Key]

/-- The checks pass for a valid certificate of the identity whose key stands in the first layer. -/
lemma checkSender_of_valid {envelope : SealedSenderEnvelope Key} {cert : SenderCertificate}
    {content certBytes trustRoot : Bytes} {now : UInt64}
    (hencode : C.certificate.encode cert = .ok certBytes)
    (hhash : envelope.certHash = C.sha256 certBytes)
    (hvalid : cert.validate C.ed25519 trustRoot now = .ok ()) :
    checkSender C envelope (C.x25519.ofIdentity cert.identityKey) ⟨cert, content⟩ trustRoot now =
      .ok ⟨cert.senderUuid, cert.senderDeviceId, cert.identityKey, content⟩ := by
  simp only [checkSender, hencode, hhash, hvalid, bind, Except.bind, ne_eq, not_true_eq_false,
    if_false]

end RoundTrip

/-- **Sealed sender round trip.**  Take any two identities, a certificate that the holder of the
trust root has issued for the sender, any content and any time before the certificate expires.
Either the AEAD refuses to seal, or the recipient opens the envelope and gets the content, together
with the user, the device and the identity that the certificate names. -/
theorem unseal_seal [DecidableEq Key] {C : SealedSenderSuite Key} (hC : C.Correct)
    (sender recipient : IdentityKeyPair) (serverKey : Bytes) (keyId : UInt32) (uuid : SenderUuid)
    (deviceId : UInt32) {expiration now : UInt64} (hnow : now < expiration) (content : Bytes)
    (rng staticRng messageRng : Rng) :
    let cert := SenderCertificate.new C.ed25519 uuid deviceId (sender.publicKey C.ed25519)
      expiration serverKey (ServerCertificate.new C.ed25519 keyId serverKey)
    match SealedSender.seal C rng staticRng messageRng sender cert content
        (recipient.publicKey C.ed25519) with
    | .error e => e = .encryptionFailed "AEAD encrypt failed"
    | .ok bytes =>
        SealedSender.unseal C bytes recipient (C.ed25519.verifyingKey serverKey) now =
          .ok ⟨uuid, deviceId, sender.publicKey C.ed25519, content⟩ := by
  intro cert
  have hpoint : C.ed25519.isPoint cert.identityKey = true :=
    hC.ed25519.isPoint_verifyingKey sender.seed
  have hvalid : cert.validate C.ed25519 (C.ed25519.verifyingKey serverKey) now = .ok () :=
    SenderCertificate.validate_new hC.ed25519 uuid deviceId _ hnow keyId serverKey
  obtain ⟨innerBytes, hinnerTo, hinnerFrom⟩ := hC.inner ⟨cert, content⟩ hpoint
  obtain ⟨certBytes, hcertTo, -⟩ := hC.certificate cert hpoint
  -- both agreements, with the halves exchanged
  have hA : C.x25519.diffieHellman (recipient.x25519PrivateKey C.sha512)
      (C.x25519.publicKey (rng.fill 32)) =
        C.x25519.diffieHellman (rng.fill 32)
          (C.x25519.ofIdentity (recipient.publicKey C.ed25519)) := by
    rw [hC.identities, hC.x25519]
  have hB : C.x25519.diffieHellman (recipient.x25519PrivateKey C.sha512)
      (C.x25519.ofIdentity (sender.publicKey C.ed25519)) =
        C.x25519.diffieHellman (sender.x25519PrivateKey C.sha512)
          (C.x25519.ofIdentity (recipient.publicKey C.ed25519)) := by
    rw [hC.identities, hC.identities, hC.x25519]
  simp only [SealedSender.seal, hinnerTo, hcertTo, bind, Except.bind]
  rcases hstatic : Aead.encrypt _ _ staticRng _ _ _ with e | encryptedStatic
  · exact Aead.error_of_encrypt _ hstatic
  dsimp only
  rcases hmessage : Aead.encrypt _ _ messageRng _ _ _ with e | encryptedMessage
  · exact Aead.error_of_encrypt _ hmessage
  have hopenStatic := Aead.decrypt_encrypt C.hash hC.xchacha hstatic
  have hopenMessage := Aead.decrypt_encrypt C.hash hC.xchacha hmessage
  obtain ⟨bytes, hto, hfrom⟩ := hC.envelope ⟨C.x25519.publicKey (rng.fill 32), encryptedStatic,
    C.sha256 certBytes, encryptedMessage⟩
  simp only [hto, SealedSender.unseal, hfrom, bind, Except.bind, hA, hopenStatic,
    tryIntoArray_asBytes hC, hB, hopenMessage, hinnerFrom]
  exact checkSender_of_valid hcertTo rfl hvalid

/-! ## An instance -/

namespace Ideal

/-- A key as the 32 bytes it consists of. -/
abbrev Block := { bytes : Bytes // bytes.length = 32 }

def block (b : Bytes) : Block := ⟨fit 32 b, length_fit _ _⟩

def blockHash : Hash Block where
  asBytes k := k.val
  zero := block []
  hkdf ikm _ _ _ _ := block (ikm.elim Subtype.val id)
  hmac k m := block (k.val ++ m)
  asBytes_length k := k.property

/-- An agreement adds the keys up, byte by byte. -/
def blockX25519 : X25519 Block where
  publicKey b := block b
  diffieHellman a p := block (List.zipWith (· + ·) (fit 32 a) p.val)
  ofIdentity b := block ((⟨b⟩ : IdentityKeyPair).x25519PrivateKey id)

lemma blockX25519_commutes : blockX25519.Commutes := by
  intro a b
  refine congrArg block ?_
  exact List.zipWith_comm_of_comm (fun x y => UInt8.add_comm x y)

/-- A ciphertext is a tag, the key and the message. -/
def blockXchacha : XChaCha Block where
  encrypt key _ msg _ := some (List.replicate tagSize 0 ++ (key.val ++ msg))
  decrypt key _ ct _ :=
    if (ct.drop tagSize).take 32 = key.val then some ((ct.drop tagSize).drop 32) else none

lemma blockXchacha_correct : blockXchacha.Correct where
  decrypt_encrypt key nonce msg ad ct h := by
    obtain rfl := Option.some.inj h
    simp only [blockXchacha, drop_tag]
    rw [List.take_left' key.property, List.drop_left' key.property, if_pos rfl]
  tagSize_le key nonce msg ad ct h := by
    obtain rfl := Option.some.inj h
    rw [List.length_append, List.length_replicate]
    exact Nat.le_add_right _ _

deriving instance Countable for ServerCertificate, SenderCertificate, InnerMessage,
  SealedSenderEnvelope

end Ideal

/-- Libraries for sealing. -/
noncomputable def idealSealing : SealedSenderSuite Ideal.Block where
  hash := Ideal.blockHash
  x25519 := Ideal.blockX25519
  xchacha := Ideal.blockXchacha
  ed25519 := Ideal.ed25519
  sha256 := Ideal.block
  sha512 := id
  fromArray := Ideal.block
  envelope := Ideal.recordCodec _
  inner := Ideal.recordCodec _
  certificate := Ideal.recordCodec _

lemma idealSealing_correct : idealSealing.Correct where
  x25519 := Ideal.blockX25519_commutes
  identities _ := rfl
  xchacha := Ideal.blockXchacha_correct
  ed25519 := Ideal.ed25519_correct
  fromArray_asBytes key := by
    refine Subtype.ext ?_
    show (key.val ++ _).take 32 = key.val
    exact List.take_left' key.property
  envelope := (Ideal.recordCodec_correct _).survives
  inner inner _ := (Ideal.recordCodec_correct _).survives inner
  certificate cert _ := (Ideal.recordCodec_correct _).survives cert

/-- A certificate for the identity with seed 1, issued by key 7. -/
noncomputable def idealCertificate : SenderCertificate :=
  .new idealSealing.ed25519 ⟨List.replicate 16 0, rfl⟩ 5
    ((⟨[1]⟩ : IdentityKeyPair).publicKey idealSealing.ed25519) 100 [7]
    (.new idealSealing.ed25519 3 [7])

theorem unseal_seal_ideal :
    ∃ bytes, SealedSender.seal idealSealing (constRng 1) (constRng 2) (constRng 3) ⟨[1]⟩
        idealCertificate [42] ((⟨[2]⟩ : IdentityKeyPair).publicKey idealSealing.ed25519) =
          .ok bytes ∧
      SealedSender.unseal idealSealing bytes ⟨[2]⟩ (idealSealing.ed25519.verifyingKey [7]) 99 =
        .ok ⟨⟨List.replicate 16 0, rfl⟩, 5,
          (⟨[1]⟩ : IdentityKeyPair).publicKey idealSealing.ed25519, [42]⟩ := by
  obtain ⟨bytes, hseal⟩ := exists_seal idealSealing_correct idealCertificate
    (idealSealing_correct.ed25519.isPoint_verifyingKey [1]) (fun _ _ _ _ => ⟨_, rfl⟩)
    (constRng 1) (constRng 2) (constRng 3) ⟨[1]⟩ [42]
    ((⟨[2]⟩ : IdentityKeyPair).publicKey idealSealing.ed25519)
  have h := unseal_seal idealSealing_correct ⟨[1]⟩ ⟨[2]⟩ [7] 3 ⟨List.replicate 16 0, rfl⟩ 5
    (by decide : (99 : UInt64) < 100) [42] (constRng 1) (constRng 2) (constRng 3)
  dsimp only at h
  rw [← idealCertificate, hseal] at h
  exact ⟨bytes, hseal, h⟩

end Hushwire
