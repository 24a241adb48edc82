import Hushwire.Primitives.Symbolic
import Hushwire.SealedSender.Envelope

/-!
# Who can make an envelope

An envelope is encrypted under two agreements: one between an ephemeral key and the recipient's
identity, and one between the two identities.

* `envelope_key_derivable_iff` — to read who has sent it takes the first agreement, and to read or
  to make the content takes both.
* `recipient_key_forges` — the recipient's identity key gives both.  Whoever has it makes envelopes,
  with the certificate of anybody who has a valid one, that the recipient accepts as sent by them;
  and with the same randomness it makes the very bytes that the sender makes.  So an envelope
  convinces nobody but the recipient, and a stolen recipient key can be used to forge messages of
  others to that recipient, which the source's comment on `SealedSenderEnvelope` rules out.
* `envelope_as_sealed` — an attacker who lacks the agreement between the two identities, and forges
  no AEAD ciphertext under a key that it cannot compute, gets nothing accepted but what some call of
  `seal` has made, and not with any part changed.
-/

namespace Hushwire

open Secrecy

variable {Key : Type}

/-! ## Sealing, with the agreements given -/

section Parts

variable (C : SealedSenderSuite Key)

/-- The key of the second layer, from the two agreements and the ephemeral key. -/
def SealedSender.messageKey (eA eB salt : Key) : Key :=
  C.hash.hkdf (.inr (C.hash.asBytes (deriveLayer1Keys C.hash eA salt).1 ++ C.hash.asBytes eB))
    (some salt) sealedSenderMessageInfo 32 0

/-- The associated data of the second layer. -/
def SealedSenderEnvelope.ad (envelope : SealedSenderEnvelope Key) : Bytes :=
  C.hash.asBytes envelope.ephemeralPublic ++ envelope.encryptedStatic ++
    C.hash.asBytes envelope.certHash

/-- `seal`, for a sender who has these two public keys and the agreement between them. -/
def SealedSender.sealAgreed (rng staticRng messageRng : Rng) (senderX25519 recipientX25519 eB : Key)
    (senderCert : SenderCertificate) (content : Bytes) : Result Bytes := do
  let ephSecret := rng.fill 32
  let ephPublic := C.x25519.publicKey ephSecret
  let eA := C.x25519.diffieHellman ephSecret recipientX25519
  let encryptedStatic ← Aead.encrypt C.hash C.xchacha staticRng
    (deriveLayer1Keys C.hash eA ephPublic).2 (C.hash.asBytes senderX25519)
    (C.hash.asBytes ephPublic)
  let innerBytes ← C.inner.encode ⟨senderCert, content⟩
  let certBytes ← C.certificate.encode senderCert
  let certHash := C.sha256 certBytes
  let ad := C.hash.asBytes ephPublic ++ encryptedStatic ++ C.hash.asBytes certHash
  let encryptedMessage ← Aead.encrypt C.hash C.xchacha messageRng
    (SealedSender.messageKey C eA eB ephPublic) innerBytes ad
  C.envelope.encode ⟨ephPublic, encryptedStatic, certHash, encryptedMessage⟩

/-- What somebody does who has the recipient's key pair, but not the sender's. -/
def SealedSender.sealAsRecipient (rng staticRng messageRng : Rng) (recipient : IdentityKeyPair)
    (senderCert : SenderCertificate) (content : Bytes) : Result Bytes :=
  SealedSender.sealAgreed C rng staticRng messageRng (C.x25519.ofIdentity senderCert.identityKey)
    (C.x25519.ofIdentity (recipient.publicKey C.ed25519))
    (C.x25519.diffieHellman (recipient.x25519PrivateKey C.sha512)
      (C.x25519.ofIdentity senderCert.identityKey)) senderCert content

/-- An envelope as it is made under two agreements. -/
structure SealedSender.Makes (staticRng messageRng : Rng) (senderX25519 eA eB : Key)
    (cert : SenderCertificate) (content innerBytes : Bytes) (envelope : SealedSenderEnvelope Key) :
    Prop where
  static : Aead.encrypt C.hash C.xchacha staticRng
    (deriveLayer1Keys C.hash eA envelope.ephemeralPublic).2 (C.hash.asBytes senderX25519)
    (C.hash.asBytes envelope.ephemeralPublic) = .ok envelope.encryptedStatic
  inner : C.inner.encode ⟨cert, content⟩ = .ok innerBytes
  certHash : ∃ certBytes, C.certificate.encode cert = .ok certBytes ∧
    envelope.certHash = C.sha256 certBytes
  message : Aead.encrypt C.hash C.xchacha messageRng
    (SealedSender.messageKey C eA eB envelope.ephemeralPublic) innerBytes (envelope.ad C) =
      .ok envelope.encryptedMessage

end Parts

namespace SealedSender

variable {C : SealedSenderSuite Key} {rng staticRng messageRng : Rng}
  {senderX25519 recipientX25519 eA eB : Key} {cert : SenderCertificate} {content : Bytes}

lemma seal_eq_sealAgreed (sender : IdentityKeyPair) (recipient : IdentityPublicKey) :
    SealedSender.seal C rng staticRng messageRng sender cert content recipient =
      sealAgreed C rng staticRng messageRng (C.x25519.ofIdentity (sender.publicKey C.ed25519))
        (C.x25519.ofIdentity recipient)
        (C.x25519.diffieHellman (sender.x25519PrivateKey C.sha512) (C.x25519.ofIdentity recipient))
        cert content := rfl

/-- **What sealing makes.** -/
lemma sealAgreed_eq_ok {bytes : Bytes}
    (h : sealAgreed C rng staticRng messageRng senderX25519 recipientX25519 eB cert content =
      .ok bytes) :
    ∃ innerBytes envelope, envelope.ephemeralPublic = C.x25519.publicKey (rng.fill 32) ∧
      Makes C staticRng messageRng senderX25519
        (C.x25519.diffieHellman (rng.fill 32) recipientX25519) eB cert content innerBytes envelope ∧
      C.envelope.encode envelope = .ok bytes := by
  simp only [sealAgreed, bind, Except.bind] at h
  split at h
  · cases h
  rename_i encryptedStatic hstatic
  split at h
  · cases h
  rename_i innerBytes hinner
  split at h
  · cases h
  rename_i certBytes hcert
  split at h
  · cases h
  rename_i encryptedMessage hmessage
  exact ⟨innerBytes, ⟨C.x25519.publicKey (rng.fill 32), encryptedStatic, C.sha256 certBytes,
    encryptedMessage⟩, rfl, ⟨hstatic, hinner, ⟨certBytes, hcert, rfl⟩, hmessage⟩, h⟩

lemma exists_sealAgreed (hinner : C.inner.Survives ⟨cert, content⟩)
    (hcert : C.certificate.Survives cert) (henvelope : ∀ envelope, C.envelope.Survives envelope)
    (hseals : ∀ rng key msg ad, ∃ ct, Aead.encrypt C.hash C.xchacha rng key msg ad = .ok ct) :
    ∃ bytes, sealAgreed C rng staticRng messageRng senderX25519 recipientX25519 eB cert content =
      .ok bytes := by
  obtain ⟨innerBytes, hinner, -⟩ := hinner
  obtain ⟨certBytes, hcert, -⟩ := hcert
  choose sealed hsealed using hseals
  simp only [sealAgreed, hinner, hcert, hsealed, bind, Except.bind]
  obtain ⟨bytes, hto, -⟩ := henvelope _
  exact ⟨bytes, hto⟩

/-- Sealing fails in the AEAD only, where the codecs take the certificate. -/
lemma error_of_sealAgreed (hinner : C.inner.Survives ⟨cert, content⟩)
    (hcert : C.certificate.Survives cert) (henvelope : ∀ envelope, C.envelope.Survives envelope)
    {e : CryptoError}
    (h : sealAgreed C rng staticRng messageRng senderX25519 recipientX25519 eB cert content =
      .error e) : e = .encryptionFailed "AEAD encrypt failed" := by
  obtain ⟨innerBytes, hinner, -⟩ := hinner
  obtain ⟨certBytes, hcert, -⟩ := hcert
  simp only [sealAgreed, hinner, hcert, bind, Except.bind] at h
  split at h
  · rename_i hstatic
    cases h
    exact Aead.error_of_encrypt _ hstatic
  split at h
  · rename_i hmessage
    cases h
    exact Aead.error_of_encrypt _ hmessage
  · obtain ⟨bytes, hto, -⟩ := henvelope _
    rw [hto] at h
    cases h

/-! ## Opening -/

variable [DecidableEq Key]

/-- **What it takes for an envelope to be opened.** -/
lemma unseal_eq_ok {bytes trustRoot : Bytes} {recipient : IdentityKeyPair} {now : UInt64}
    {out : UnsealedMessage} (h : SealedSender.unseal C bytes recipient trustRoot now = .ok out) :
    ∃ envelope senderX25519 innerBytes inner, C.envelope.decode bytes = .ok envelope ∧
      Aead.decrypt C.hash C.xchacha (messageKey C
        (C.x25519.diffieHellman (recipient.x25519PrivateKey C.sha512) envelope.ephemeralPublic)
        (C.x25519.diffieHellman (recipient.x25519PrivateKey C.sha512) senderX25519)
        envelope.ephemeralPublic) envelope.encryptedMessage (envelope.ad C) = .ok innerBytes ∧
      C.inner.decode innerBytes = .ok inner ∧
      checkSender C envelope senderX25519 inner trustRoot now = .ok out := by
  simp only [SealedSender.unseal, bind, Except.bind] at h
  split at h
  · cases h
  rename_i envelope hdecode
  split at h
  · cases h
  split at h
  · cases h
  rename_i senderX25519 _
  split at h
  · cases h
  rename_i innerBytes hmessage
  split at h
  · cases h
  rename_i inner hinner
  exact ⟨envelope, senderX25519, innerBytes, inner, hdecode, hmessage, hinner, h⟩

/-- What the checks at the end establish. -/
lemma checkSender_eq_ok {envelope : SealedSenderEnvelope Key} {inner : InnerMessage}
    {trustRoot : Bytes} {now : UInt64} {out : UnsealedMessage}
    (h : checkSender C envelope senderX25519 inner trustRoot now = .ok out) :
    inner.senderCertificate.validate C.ed25519 trustRoot now = .ok () ∧
      C.hash.asBytes (C.x25519.ofIdentity inner.senderCertificate.identityKey) =
        C.hash.asBytes senderX25519 ∧
      out = ⟨inner.senderCertificate.senderUuid, inner.senderCertificate.senderDeviceId,
        inner.senderCertificate.identityKey, inner.content⟩ := by
  simp only [checkSender, bind, Except.bind] at h
  split at h
  · cases h
  split at h
  · cases h
  split at h
  · cases h
  rename_i hvalid
  split at h
  · cases h
  rename_i hsame
  exact ⟨hvalid, not_not.mp hsame, (Except.ok.inj h).symm⟩

/-- The recipient opens what was made under the two agreements it has itself. -/
lemma unseal_of_makes {recipient : IdentityKeyPair} {envelope : SealedSenderEnvelope Key}
    {bytes trustRoot innerBytes : Bytes} {now : UInt64} (hA : C.xchacha.Correct)
    (hmakes : Makes C staticRng messageRng (C.x25519.ofIdentity cert.identityKey)
      (C.x25519.diffieHellman (recipient.x25519PrivateKey C.sha512) envelope.ephemeralPublic)
      (C.x25519.diffieHellman (recipient.x25519PrivateKey C.sha512)
        (C.x25519.ofIdentity cert.identityKey)) cert content innerBytes envelope)
    (hdecode : C.envelope.decode bytes = .ok envelope)
    (hinner : C.inner.decode innerBytes = .ok ⟨cert, content⟩)
    (hkey : tryIntoArray C (C.hash.asBytes (C.x25519.ofIdentity cert.identityKey)) =
      .ok (C.x25519.ofIdentity cert.identityKey))
    (hvalid : cert.validate C.ed25519 trustRoot now = .ok ()) :
    SealedSender.unseal C bytes recipient trustRoot now =
      .ok ⟨cert.senderUuid, cert.senderDeviceId, cert.identityKey, content⟩ := by
  obtain ⟨certBytes, hcert, hhash⟩ := hmakes.certHash
  have hstatic := Aead.decrypt_encrypt C.hash hA hmakes.static
  have hmessage := Aead.decrypt_encrypt C.hash hA hmakes.message
  rw [messageKey, SealedSenderEnvelope.ad] at hmessage
  simp only [SealedSender.unseal, hdecode, bind, Except.bind, hstatic, hkey, hmessage, hinner]
  exact checkSender_of_valid hcert hhash hvalid

end SealedSender

/-! ## With the recipient's key -/

section Forging

variable {C : SealedSenderSuite Key}

/-- The sender's agreement with the ephemeral key is the recipient's own. -/
lemma agreement_eq (hC : C.Correct) (recipient : IdentityKeyPair) (rng : Rng) :
    C.x25519.diffieHellman (rng.fill 32) (C.x25519.ofIdentity (recipient.publicKey C.ed25519)) =
      C.x25519.diffieHellman (recipient.x25519PrivateKey C.sha512)
        (C.x25519.publicKey (rng.fill 32)) := by
  rw [hC.identities, hC.x25519]

end Forging

/-- **The recipient's key is enough to seal.**  Take any identity key pair, and a certificate that
is valid now, of whomever.  Without anything of the certificate's holder, an envelope is made that
the owner of the key pair opens and takes for a message with this content from the holder, unless
the AEAD refuses to seal.  If the holder's key pair is some `sender`, then it is the envelope that
`sender` makes with the same randomness, byte by byte. -/
theorem recipient_key_forges [DecidableEq Key] {C : SealedSenderSuite Key} (hC : C.Correct)
    (recipient : IdentityKeyPair) {cert : SenderCertificate}
    (hpoint : C.ed25519.isPoint cert.identityKey = true) {trustRoot : Bytes} {now : UInt64}
    (hvalid : cert.validate C.ed25519 trustRoot now = .ok ()) (content : Bytes)
    (rng staticRng messageRng : Rng) :
    (match SealedSender.sealAsRecipient C rng staticRng messageRng recipient cert content with
      | .error e => e = .encryptionFailed "AEAD encrypt failed"
      | .ok bytes => SealedSender.unseal C bytes recipient trustRoot now =
          .ok ⟨cert.senderUuid, cert.senderDeviceId, cert.identityKey, content⟩) ∧
      ∀ sender : IdentityKeyPair, cert.identityKey = sender.publicKey C.ed25519 →
        SealedSender.sealAsRecipient C rng staticRng messageRng recipient cert content =
          SealedSender.seal C rng staticRng messageRng sender cert content
            (recipient.publicKey C.ed25519) := by
  constructor
  · rcases hseal : SealedSender.sealAsRecipient C rng staticRng messageRng recipient cert
      content with
      e | bytes
    · exact SealedSender.error_of_sealAgreed (hC.inner ⟨cert, content⟩ hpoint)
        (hC.certificate cert hpoint) hC.envelope hseal
    · obtain ⟨innerBytes, envelope, heph, hmakes, hencode⟩ := SealedSender.sealAgreed_eq_ok hseal
      rw [agreement_eq hC, ← heph] at hmakes
      obtain ⟨bytes', hencode', hdecode⟩ := hC.envelope envelope
      obtain rfl := Except.ok.inj (hencode.symm.trans hencode')
      obtain ⟨innerBytes', hinner, hinnerDecode⟩ := hC.inner ⟨cert, content⟩ hpoint
      obtain rfl := Except.ok.inj (hmakes.inner.symm.trans hinner)
      exact SealedSender.unseal_of_makes hC.xchacha hmakes hdecode hinnerDecode
        (tryIntoArray_asBytes hC _) hvalid
  · intro sender hidentity
    have hB : C.x25519.diffieHellman (recipient.x25519PrivateKey C.sha512)
        (C.x25519.ofIdentity (sender.publicKey C.ed25519)) =
          C.x25519.diffieHellman (sender.x25519PrivateKey C.sha512)
            (C.x25519.ofIdentity (recipient.publicKey C.ed25519)) := by
      rw [hC.identities, hC.identities, hC.x25519]
    rw [SealedSender.seal_eq_sealAgreed, SealedSender.sealAsRecipient, hidentity, hB]

/-- The envelope that is sealed in the ideal instance, made with the recipient's key. -/
theorem recipient_key_forges_ideal :
    ∃ bytes, SealedSender.sealAsRecipient idealSealing (constRng 1) (constRng 2) (constRng 3) ⟨[2]⟩
        idealCertificate [42] = .ok bytes ∧
      SealedSender.unseal idealSealing bytes ⟨[2]⟩ (idealSealing.ed25519.verifyingKey [7]) 99 =
        .ok ⟨⟨List.replicate 16 0, rfl⟩, 5,
          (⟨[1]⟩ : IdentityKeyPair).publicKey idealSealing.ed25519, [42]⟩ := by
  have hpoint := idealSealing_correct.ed25519.isPoint_verifyingKey [1]
  obtain ⟨bytes, hseal⟩ := exists_seal idealSealing_correct idealCertificate hpoint
    (fun _ _ _ _ => ⟨_, rfl⟩) (constRng 1) (constRng 2) (constRng 3) ⟨[1]⟩ [42]
    ((⟨[2]⟩ : IdentityKeyPair).publicKey idealSealing.ed25519)
  obtain ⟨hopens, hsame⟩ := recipient_key_forges idealSealing_correct ⟨[2]⟩ hpoint
    (SenderCertificate.validate_new idealSealing_correct.ed25519 _ _ _
      (by decide : (99 : UInt64) < 100) 3 [7]) [42] (constRng 1) (constRng 2) (constRng 3)
  have hforged := (hsame ⟨[1]⟩ rfl).trans hseal
  rw [hforged] at hopens
  exact ⟨bytes, hforged, hopens⟩

/-! ## Without it -/

/-- Two keys one after the other can be written down by whoever knows the bytes of both. -/
lemma asBytes_append_mem_iff {H : Hash Key} {blocks : Set Bytes}
    (hblocks : ∀ b ∈ blocks, b.length = 32) (k k' : Key) :
    H.asBytes k ++ H.asBytes k' ∈ knownBytes blocks ↔
      H.asBytes k ∈ blocks ∧ H.asBytes k' ∈ blocks := by
  have hparts : H.asBytes k ++ H.asBytes k' = [H.asBytes k, H.asBytes k'].flatten := by simp
  rw [hparts, flatten_mem_knownBytes hblocks]
  · simp
  · simp [H.asBytes_length]

/-- A call of `seal`. -/
structure SealCall where
  rng : Rng
  staticRng : Rng
  messageRng : Rng
  sender : IdentityKeyPair
  cert : SenderCertificate
  content : Bytes
  recipient : IdentityPublicKey

namespace SealCall

variable (C : SealedSenderSuite Key) (call : SealCall)

/-- What it returns. -/
def result : Result Bytes :=
  SealedSender.seal C call.rng call.staticRng call.messageRng call.sender call.cert call.content
    call.recipient

/-- The agreement with the ephemeral key. -/
def eA : Key := C.x25519.diffieHellman (call.rng.fill 32) (C.x25519.ofIdentity call.recipient)

/-- The agreement between the identities. -/
def eB : Key :=
  C.x25519.diffieHellman (call.sender.x25519PrivateKey C.sha512)
    (C.x25519.ofIdentity call.recipient)

/-- The chain key and the key of the first layer. -/
def layer1Keys : Key × Key :=
  deriveLayer1Keys C.hash (call.eA C) (C.x25519.publicKey (call.rng.fill 32))

/-- The key of the second layer. -/
def messageKey : Key :=
  SealedSender.messageKey C (call.eA C) (call.eB C) (C.x25519.publicKey (call.rng.fill 32))

/-- The envelope that the call makes, and the bytes inside. -/
def Made (innerBytes : Bytes) (envelope : SealedSenderEnvelope Key) : Prop :=
  envelope.ephemeralPublic = C.x25519.publicKey (call.rng.fill 32) ∧
    SealedSender.Makes C call.staticRng call.messageRng
      (C.x25519.ofIdentity (call.sender.publicKey C.ed25519)) (call.eA C) (call.eB C) call.cert
      call.content innerBytes envelope

variable {C call} {innerBytes : Bytes} {made : SealedSenderEnvelope Key}

lemma Made.result_eq (h : call.Made C innerBytes made) :
    call.result C = C.envelope.encode made := by
  obtain ⟨heph, hmakes⟩ := h
  obtain ⟨certBytes, hcert, hhash⟩ := hmakes.certHash
  have hstatic := hmakes.static
  have hmessage := hmakes.message
  rw [SealedSenderEnvelope.ad, hhash] at hmessage
  rw [heph] at hstatic hmessage
  rw [eA] at hstatic hmessage
  rw [result, SealedSender.seal_eq_sealAgreed, ← eB]
  simp only [SealedSender.sealAgreed, hstatic, hmakes.inner, hcert, hmessage, bind, Except.bind]
  rw [← heph, ← hhash]

/-- What the call returns are the bytes of the envelope that it makes. -/
lemma exists_made {bytes : Bytes} (h : call.result C = .ok bytes) :
    ∃ innerBytes made, call.Made C innerBytes made ∧ C.envelope.encode made = .ok bytes := by
  rw [result, SealedSender.seal_eq_sealAgreed] at h
  obtain ⟨innerBytes, made, heph, hmakes, hencode⟩ := SealedSender.sealAgreed_eq_ok h
  exact ⟨innerBytes, made, ⟨heph, hmakes⟩, hencode⟩

end SealCall

/-- **What it takes to open an envelope.**  Take an envelope that `seal` returns.  Its keys are not
known from elsewhere, and the bytes of its chain key are known exactly if that key can be computed.
Then the AEAD key of the first layer, which holds who has sent the envelope, can be computed exactly
from the agreement with the ephemeral key.  For the AEAD key of the second layer, which holds the
certificate and the content, it takes that agreement and the one between the identities. -/
theorem envelope_key_derivable_iff {C : SealedSenderSuite Key} (hH : C.hash.Free)
    {blocks : Set Bytes} (hblocks : ∀ b ∈ blocks, b.length = 32) {known : Set Key} {call : SealCall}
    {bytes : Bytes} (hsealed : call.result C = .ok bytes) (hzero : C.hash.zero ∈ known)
    (hsalt : C.x25519.publicKey (call.rng.fill 32) ∈ known)
    (hchain : C.hash.asBytes (call.layer1Keys C).1 ∈ blocks ↔
      Derives (C.hash.Computes (knownBytes blocks)) known (call.layer1Keys C).1)
    (hnew : ∀ k ∈ [(call.layer1Keys C).1, (call.layer1Keys C).2,
      Aead.deriveEncKey C.hash (call.layer1Keys C).2, call.messageKey C,
      Aead.deriveEncKey C.hash (call.messageKey C)], k ∉ known) :
    ∃ innerBytes envelope, C.inner.encode ⟨call.cert, call.content⟩ = .ok innerBytes ∧
      C.envelope.encode envelope = .ok bytes ∧
      Aead.encrypt C.hash C.xchacha call.staticRng (call.layer1Keys C).2
        (C.hash.asBytes (C.x25519.ofIdentity (call.sender.publicKey C.ed25519)))
        (C.hash.asBytes envelope.ephemeralPublic) = .ok envelope.encryptedStatic ∧
      Aead.encrypt C.hash C.xchacha call.messageRng (call.messageKey C) innerBytes (envelope.ad C) =
        .ok envelope.encryptedMessage ∧
      (Derives (C.hash.Computes (knownBytes blocks)) known
          (Aead.deriveEncKey C.hash (call.layer1Keys C).2) ↔
        Derives (C.hash.Computes (knownBytes blocks)) known (call.eA C)) ∧
      (Derives (C.hash.Computes (knownBytes blocks)) known
          (Aead.deriveEncKey C.hash (call.messageKey C)) ↔
        Derives (C.hash.Computes (knownBytes blocks)) known (call.eA C) ∧
          C.hash.asBytes (call.eB C) ∈ blocks) := by
  obtain ⟨innerBytes, envelope, ⟨heph, hmakes⟩, hencode⟩ := SealCall.exists_made hsealed
  have hstatic := hmakes.static
  have hmessage := hmakes.message
  simp only [List.forall_mem_cons] at hnew
  obtain ⟨hnewChain, hnewStatic, hnewStaticEnc, hnewMessage, hnewMessageEnc, -⟩ := hnew
  refine ⟨innerBytes, envelope, hmakes.inner, hencode, ?_, ?_, ?_, ?_⟩
  · rwa [SealCall.layer1Keys, ← heph]
  · rwa [SealCall.messageKey, ← heph]
  · rw [Aead.deriveEncKey, hH.derives_hkdf_iff hnewStaticEnc (.known hzero)]
    exact hH.derives_hkdf_iff hnewStatic (.known hsalt)
  · have hfirst : Derives (C.hash.Computes (knownBytes blocks)) known (call.layer1Keys C).1 ↔
        Derives (C.hash.Computes (knownBytes blocks)) known (call.eA C) :=
      hH.derives_hkdf_iff hnewChain (.known hsalt)
    rw [Aead.deriveEncKey, hH.derives_hkdf_iff hnewMessageEnc (.known hzero), ← hfirst, ← hchain,
      ← asBytes_append_mem_iff hblocks]
    exact hH.derives_hkdf_bytes_iff hnewMessage (.known hsalt)

/-! ### An instance -/

/-- Libraries for sealing with symbolic KDFs.  Curve points are numbers here, and agreements are
sums. -/
noncomputable def freeSealing : SealedSenderSuite ℕ where
  hash := Ideal.freeHash
  x25519 :=
    { publicKey := List.length
      diffieHellman := fun a p => a.length + p
      ofIdentity := List.length }
  xchacha := Ideal.xchacha
  ed25519 := Ideal.ed25519
  sha256 := List.length
  sha512 := id
  fromArray := fun b => b.foldl (fun n x => 256 * n + x.toNat) 0
  envelope := Ideal.recordCodec _
  inner := Ideal.recordCodec _
  certificate := Ideal.recordCodec _

/-- The certificate of a sender. -/
noncomputable def freeCertificate : SenderCertificate :=
  .new freeSealing.ed25519 ⟨List.replicate 16 1, rfl⟩ 5
    ((⟨[1]⟩ : IdentityKeyPair).publicKey freeSealing.ed25519) 100 [7]
    (.new freeSealing.ed25519 3 [7])

/-- One envelope for the recipient with seed 2. -/
noncomputable def freeCall : SealCall :=
  ⟨constRng 1, constRng 2, constRng 3, ⟨[1]⟩, freeCertificate, [42],
    (⟨[2]⟩ : IdentityKeyPair).publicKey freeSealing.ed25519⟩

/-- Every call returns an envelope. -/
lemma freeSealing_seals (call : SealCall) : ∃ bytes, call.result freeSealing = .ok bytes := by
  rw [SealCall.result, SealedSender.seal_eq_sealAgreed]
  exact SealedSender.exists_sealAgreed ((Ideal.recordCodec_correct _).survives _)
    ((Ideal.recordCodec_correct _).survives _) (Ideal.recordCodec_correct _).survives
    (fun _ _ _ _ => ⟨_, rfl⟩)

/-- A KDF with a label of 18 letters gives none of the small numbers. -/
lemma freeSealing_hkdf_notMem {known : Set ℕ} (hknown : ∀ k ∈ known, k < 39) (ikm : ℕ ⊕ Bytes)
    (salt : Option ℕ) {info : Bytes} (hinfo : 18 ≤ info.length) (len i : ℕ) :
    freeSealing.hash.hkdf ikm salt info len i ∉ known := by
  intro hmem
  have hlarge : 2 * info.length + 3 ≤ freeSealing.hash.hkdf ikm salt info len i :=
    Ideal.le_freeHash_hkdf _ _ _ _ _
  have hsmall := hknown _ hmem
  omega

/-- So none of an envelope's keys is among them. -/
lemma freeSealing_keys_notMem {known : Set ℕ} (hknown : ∀ k ∈ known, k < 39) (eA eB salt : ℕ) :
    ∀ k ∈ [(deriveLayer1Keys freeSealing.hash eA salt).1,
      (deriveLayer1Keys freeSealing.hash eA salt).2,
      Aead.deriveEncKey freeSealing.hash (deriveLayer1Keys freeSealing.hash eA salt).2,
      SealedSender.messageKey freeSealing eA eB salt,
      Aead.deriveEncKey freeSealing.hash (SealedSender.messageKey freeSealing eA eB salt)],
        k ∉ known := by
  have hkdf := fun ikm salt => @freeSealing_hkdf_notMem known hknown ikm salt
  simp only [List.forall_mem_cons, deriveLayer1Keys, Aead.deriveEncKey, SealedSender.messageKey]
  exact ⟨hkdf _ _ (by decide) _ _, hkdf _ _ (by decide) _ _, hkdf _ _ (by decide) _ _,
    hkdf _ _ (by decide) _ _, hkdf _ _ (by decide) _ _, List.forall_mem_nil _⟩

/-- Who has the agreement with the ephemeral key can read who has sent the envelope, but not what is
in it. -/
theorem envelope_key_derivable_iff_first :
    ∃ bytes, freeCall.result freeSealing = .ok bytes ∧
      let blocks : Set Bytes := {freeSealing.hash.asBytes (freeCall.layer1Keys freeSealing).1}
      let known : Set ℕ := {0, 32, freeCall.eA freeSealing}
      Derives (freeSealing.hash.Computes (knownBytes blocks)) known
          (Aead.deriveEncKey freeSealing.hash (freeCall.layer1Keys freeSealing).2) ∧
        ¬ Derives (freeSealing.hash.Computes (knownBytes blocks)) known
          (Aead.deriveEncKey freeSealing.hash (freeCall.messageKey freeSealing)) := by
  obtain ⟨bytes, hbytes⟩ := freeSealing_seals freeCall
  refine ⟨bytes, hbytes, ?_⟩
  intro blocks known
  have hsmall : ∀ k ∈ known, k < 39 := by
    rintro k (rfl | rfl | rfl) <;> decide
  have hnew := freeSealing_keys_notMem hsmall (freeCall.eA freeSealing) (freeCall.eB freeSealing) 32
  have heA : Derives (freeSealing.hash.Computes (knownBytes blocks)) known
      (freeCall.eA freeSealing) := .known (.inr (.inr rfl))
  have hchain : Derives (freeSealing.hash.Computes (knownBytes blocks)) known
      (freeCall.layer1Keys freeSealing).1 :=
    (Hash.Free.derives_hkdf_iff (H := freeSealing.hash) Ideal.freeHash_free
      (List.forall_mem_cons.mp hnew).1 (.known (.inr (.inl rfl)))).mpr heA
  have hlength : ∀ b ∈ blocks, b.length = 32 := by
    rintro b rfl
    exact freeSealing.hash.asBytes_length _
  obtain ⟨_, _, -, -, -, -, hfirst, hsecond⟩ := envelope_key_derivable_iff (C := freeSealing)
    Ideal.freeHash_free hlength hbytes (.inl rfl) (.inr (.inl rfl)) (iff_of_true rfl hchain) hnew
  refine ⟨hfirst.mpr heA, fun hderives => ?_⟩
  -- the agreement between the identities is 2, and no chain key has the bytes of that
  exact Ideal.asBytes_ne_freeHash_hkdf (n := 2) rfl _ _ _ _ _ (hsecond.mp hderives).2

/-! ## What is accepted -/

/-- If the second layer of an envelope opens under a key that the attacker cannot compute, then one
of the calls has sealed it, under that key and associated data. -/
def EnvelopeUnforged (C : SealedSenderSuite Key) (bytes : Set Bytes) (known : Set Key)
    (calls : List SealCall) (envelope : SealedSenderEnvelope Key) : Prop :=
  ∀ key ad innerBytes,
    Aead.decrypt C.hash C.xchacha key envelope.encryptedMessage ad = .ok innerBytes →
    ¬ Derives (C.hash.Computes bytes) known (Aead.deriveEncKey C.hash key) →
    ∃ call ∈ calls, ∃ made, call.Made C innerBytes made ∧
      made.encryptedMessage = envelope.encryptedMessage ∧ made.ad C = ad ∧
      Aead.deriveEncKey C.hash (SealedSender.messageKey C (call.eA C) (call.eB C)
        made.ephemeralPublic) = Aead.deriveEncKey C.hash key

/-- The parts of the associated data can be told apart. -/
lemma SealedSenderEnvelope.ad_inj {C : SealedSenderSuite Key}
    {envelope envelope' : SealedSenderEnvelope Key} (h : envelope.ad C = envelope'.ad C) :
    C.hash.asBytes envelope.ephemeralPublic = C.hash.asBytes envelope'.ephemeralPublic ∧
      envelope.encryptedStatic = envelope'.encryptedStatic ∧
      C.hash.asBytes envelope.certHash = C.hash.asBytes envelope'.certHash := by
  have hlen : ∀ k k' : Key, (C.hash.asBytes k).length = (C.hash.asBytes k').length :=
    fun k k' => (C.hash.asBytes_length k).trans (C.hash.asBytes_length k').symm
  unfold SealedSenderEnvelope.ad at h
  obtain ⟨hrest, hhash⟩ := List.append_inj' h (hlen _ _)
  obtain ⟨heph, hstatic⟩ := List.append_inj hrest (hlen _ _)
  exact ⟨heph, hstatic, hhash⟩

/-- Without the agreement between the identities the key of the second layer cannot be computed. -/
lemma not_derives_messageKey {C : SealedSenderSuite Key} (hH : C.hash.Free) {blocks : Set Bytes}
    (hblocks : ∀ b ∈ blocks, b.length = 32) {known : Set Key} {eA eB salt : Key}
    (hmessage : SealedSender.messageKey C eA eB salt ∉ known)
    (henc : Aead.deriveEncKey C.hash (SealedSender.messageKey C eA eB salt) ∉ known)
    (heB : C.hash.asBytes eB ∉ blocks) :
    ¬ Derives (C.hash.Computes (knownBytes blocks)) known
      (Aead.deriveEncKey C.hash (SealedSender.messageKey C eA eB salt)) := by
  have hmaterial : C.hash.asBytes (deriveLayer1Keys C.hash eA salt).1 ++ C.hash.asBytes eB ∉
      knownBytes blocks := fun hmem => heB ((asBytes_append_mem_iff hblocks _ _).mp hmem).2
  have hguarded : Guarded (C.hash.Computes (knownBytes blocks))
      {k | k = SealedSender.messageKey C eA eB salt ∨
        k = Aead.deriveEncKey C.hash (SealedSender.messageKey C eA eB salt)} := by
    refine guarded_of_needs ?_
    rintro k (rfl | rfl)
    · exact .inl (hH.not_computes_of_secret hmaterial)
    · exact .inr ⟨_, .inl rfl, hH.needs_ikm⟩
  refine hguarded.not_derives ?_ (.inr rfl)
  rintro k hk (rfl | rfl)
  · exact hmessage hk
  · exact henc hk

/-- **Envelopes are accepted as they were sealed.**  Let `calls` be all calls of `seal` by anyone.
A recipient accepts some bytes as a message from an identity, and the attacker does not know the
agreement between the two identities and has forged no AEAD ciphertext.  Then the envelope is one
that a call has returned, with no part of it changed.  The message is the certificate and the
content of that call, the certificate is valid, and the call's sender and recipient have the
agreement that this recipient has with the identity in the certificate. -/
theorem envelope_as_sealed [DecidableEq Key] {C : SealedSenderSuite Key} (hH : C.hash.Free)
    {blocks : Set Bytes} (hblocks : ∀ b ∈ blocks, b.length = 32) {known : Set Key}
    (hknown : ∀ eA eB salt, SealedSender.messageKey C eA eB salt ∉ known ∧
      Aead.deriveEncKey C.hash (SealedSender.messageKey C eA eB salt) ∉ known)
    {calls : List SealCall} (hcalls : ∀ call ∈ calls, C.inner.Survives ⟨call.cert, call.content⟩)
    {bytes trustRoot : Bytes} {recipient : IdentityKeyPair} {now : UInt64} {out : UnsealedMessage}
    (haccepted : SealedSender.unseal C bytes recipient trustRoot now = .ok out)
    {envelope : SealedSenderEnvelope Key} (hdecode : C.envelope.decode bytes = .ok envelope)
    (hforged : EnvelopeUnforged C (knownBytes blocks) known calls envelope)
    (hsecret : ∀ key, C.hash.asBytes key = C.hash.asBytes (C.x25519.ofIdentity out.senderIdentity) →
      C.hash.asBytes (C.x25519.diffieHellman (recipient.x25519PrivateKey C.sha512) key) ∉ blocks) :
    ∃ call ∈ calls, ∃ innerBytes made, call.Made C innerBytes made ∧
      call.result C = C.envelope.encode made ∧
      (C.hash.asBytes made.ephemeralPublic = C.hash.asBytes envelope.ephemeralPublic ∧
        made.encryptedStatic = envelope.encryptedStatic ∧
        C.hash.asBytes made.certHash = C.hash.asBytes envelope.certHash ∧
        made.encryptedMessage = envelope.encryptedMessage) ∧
      out = ⟨call.cert.senderUuid, call.cert.senderDeviceId, call.cert.identityKey, call.content⟩ ∧
      call.cert.validate C.ed25519 trustRoot now = .ok () ∧
      ∃ key, C.hash.asBytes key = C.hash.asBytes (C.x25519.ofIdentity call.cert.identityKey) ∧
        C.hash.asBytes (call.eB C) =
          C.hash.asBytes (C.x25519.diffieHellman (recipient.x25519PrivateKey C.sha512) key) := by
  obtain ⟨envelope', senderX25519, innerBytes, inner, hdecode', hmessage, hinner, hcheck⟩ :=
    SealedSender.unseal_eq_ok haccepted
  obtain rfl := Except.ok.inj (hdecode.symm.trans hdecode')
  obtain ⟨hvalid, hsame, rfl⟩ := SealedSender.checkSender_eq_ok hcheck
  -- the attacker cannot compute the key that the envelope opened under
  have hnot : ¬ Derives (C.hash.Computes (knownBytes blocks)) known (Aead.deriveEncKey C.hash
      (SealedSender.messageKey C (C.x25519.diffieHellman (recipient.x25519PrivateKey C.sha512)
        envelope.ephemeralPublic) (C.x25519.diffieHellman (recipient.x25519PrivateKey C.sha512)
          senderX25519) envelope.ephemeralPublic)) :=
    not_derives_messageKey hH hblocks (hknown _ _ _).1 (hknown _ _ _).2
      (hsecret senderX25519 hsame.symm)
  obtain ⟨call, hcall, made, hmade, hsealed, had, hkey⟩ := hforged _ _ _ hmessage hnot
  -- so it was sealed, and inside are the bytes that a call has put there
  obtain ⟨innerBytes', hencode, hdecodeInner⟩ := hcalls call hcall
  obtain rfl := Except.ok.inj (hmade.2.inner.symm.trans hencode)
  obtain rfl := Except.ok.inj (hinner.symm.trans hdecodeInner)
  obtain ⟨heph, hstatic, hhash⟩ := SealedSenderEnvelope.ad_inj had
  have hmaterial : C.hash.asBytes (call.eB C) = C.hash.asBytes (C.x25519.diffieHellman
      (recipient.x25519PrivateKey C.sha512) senderX25519) := by
    have hmessageKey := Sum.inl.inj (hH.hkdf_injective _ _ _ _ _ _ _ _ _ _ hkey).1
    have hbytes := Sum.inr.inj (hH.hkdf_injective _ _ _ _ _ _ _ _ _ _ hmessageKey).1
    refine (List.append_inj' hbytes ?_).2
    rw [C.hash.asBytes_length, C.hash.asBytes_length]
  exact ⟨call, hcall, innerBytes, made, hmade, hmade.result_eq, ⟨heph, hstatic, hhash, hsealed⟩,
    rfl, hvalid, senderX25519, hsame.symm, hmaterial⟩

/-- What a call has made is not forged. -/
lemma envelopeUnforged_of_made {bytes : Set Bytes} {known : Set ℕ} {call : SealCall}
    {innerBytes : Bytes} {made : SealedSenderEnvelope ℕ}
    (hmade : call.Made freeSealing innerBytes made) :
    EnvelopeUnforged freeSealing bytes known [call] made := by
  intro key ad innerBytes' hdec _
  obtain ⟨hkey, hinner, had⟩ := Ideal.eq_of_aead_decrypt hmade.2.message hdec
  exact ⟨call, List.mem_singleton_self call, made, hinner ▸ hmade, rfl, had, hkey⟩

/-- A recipient who has the same agreements as the sender opens what the sender has sealed. -/
lemma freeSealing_accepts (call : SealCall) (recipient : IdentityKeyPair) {trustRoot : Bytes}
    {now : UInt64} (hidentity : call.cert.identityKey = call.sender.publicKey freeSealing.ed25519)
    (hA : call.eA freeSealing = freeSealing.x25519.diffieHellman
      (recipient.x25519PrivateKey freeSealing.sha512)
      (freeSealing.x25519.publicKey (call.rng.fill 32)))
    (hB : call.eB freeSealing = freeSealing.x25519.diffieHellman
      (recipient.x25519PrivateKey freeSealing.sha512)
      (freeSealing.x25519.ofIdentity call.cert.identityKey))
    (hkey : tryIntoArray freeSealing (freeSealing.hash.asBytes
      (freeSealing.x25519.ofIdentity call.cert.identityKey)) =
        .ok (freeSealing.x25519.ofIdentity call.cert.identityKey))
    (hvalid : call.cert.validate freeSealing.ed25519 trustRoot now = .ok ()) :
    ∃ bytes innerBytes made, call.result freeSealing = .ok bytes ∧
      call.Made freeSealing innerBytes made ∧ freeSealing.envelope.decode bytes = .ok made ∧
      SealedSender.unseal freeSealing bytes recipient trustRoot now =
        .ok ⟨call.cert.senderUuid, call.cert.senderDeviceId, call.cert.identityKey,
          call.content⟩ := by
  obtain ⟨innerBytes, hencodeInner, hdecodeInner⟩ : freeSealing.inner.Survives
      ⟨call.cert, call.content⟩ := (Ideal.recordCodec_correct _).survives _
  obtain ⟨bytes, hbytes⟩ := freeSealing_seals call
  obtain ⟨innerBytes', made, ⟨heph, hmakes⟩, hencode⟩ := SealCall.exists_made hbytes
  obtain rfl := Except.ok.inj (hmakes.inner.symm.trans hencodeInner)
  obtain ⟨bytes', hencode', hdecode⟩ : freeSealing.envelope.Survives made :=
    (Ideal.recordCodec_correct _).survives _
  obtain rfl := Except.ok.inj (hencode.symm.trans hencode')
  refine ⟨bytes, innerBytes', made, hbytes, ⟨heph, hmakes⟩, hdecode, ?_⟩
  rw [hA, hB, ← heph, ← hidentity] at hmakes
  exact SealedSender.unseal_of_makes Ideal.xchacha_correct hmakes hdecode hdecodeInner hkey hvalid

/-- The recipient accepts the envelope, as it was sealed. -/
theorem envelope_as_sealed_genuine :
    ∃ bytes out, freeCall.result freeSealing = .ok bytes ∧
      SealedSender.unseal freeSealing bytes ⟨[2]⟩ (freeSealing.ed25519.verifyingKey [7])
        99 = .ok out ∧
      ∃ call ∈ [freeCall], out = ⟨call.cert.senderUuid, call.cert.senderDeviceId,
        call.cert.identityKey, call.content⟩ := by
  have hkey : tryIntoArray freeSealing (freeSealing.hash.asBytes 1) = .ok 1 := by
    rw [tryIntoArray, if_pos (freeSealing.hash.asBytes_length 1)]
    rfl
  obtain ⟨bytes, innerBytes, made, hbytes, hmade, hdecode, hopens⟩ :=
    freeSealing_accepts freeCall ⟨[2]⟩
    rfl rfl rfl hkey
    (SenderCertificate.validate_new Ideal.ed25519_correct _ _ _
      (by decide : (99 : UInt64) < 100) 3 [7])
  have hinner : ∀ inner, freeSealing.inner.Survives inner := (Ideal.recordCodec_correct _).survives
  have hknown : ∀ eA eB salt, SealedSender.messageKey freeSealing eA eB salt ∉ ({0, 1} : Set ℕ) ∧
      Aead.deriveEncKey freeSealing.hash (SealedSender.messageKey freeSealing eA eB salt) ∉
        ({0, 1} : Set ℕ) := by
    intro eA eB salt
    have hsmall : ∀ k ∈ ({0, 1} : Set ℕ), k < 39 := by simp
    have hkeys := freeSealing_keys_notMem hsmall eA eB salt
    simp only [List.forall_mem_cons] at hkeys
    exact ⟨hkeys.2.2.2.1, hkeys.2.2.2.2.1⟩
  obtain ⟨call, hcall, -, -, -, -, -, hout, -⟩ := envelope_as_sealed (C := freeSealing)
    Ideal.freeHash_free (fun b hb => absurd hb (Set.notMem_empty b)) hknown (fun call _ => hinner _)
    hopens hdecode (envelopeUnforged_of_made hmade) (fun _ _ => Set.notMem_empty _)
  exact ⟨bytes, _, hbytes, hopens, call, hcall, hout⟩

end Hushwire
