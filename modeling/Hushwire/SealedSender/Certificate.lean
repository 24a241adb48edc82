import Hushwire.Primitives.Keys

/-!
# Sealed sender certificates

`src/protocol/sealed_sender/certificate.rs`.  The server certifies its own signing key, and it
certifies, with that key, which identity a user's device has and until when.  Both certificates
carry an Ed25519 signature over the concatenation of their fields.

The fields are signed as bytes of a fixed number, so they have their machine types here.

* `ServerCertificate.new`, `SenderCertificate.new` — what the server issues.
* `SenderCertificate.validate` — what a recipient checks.
* `SenderCertificate.validate_new` — what is issued under the trust root is valid until it expires.
-/

namespace Hushwire

/-- `SenderUuid`. -/
abbrev SenderUuid := { bytes : Bytes // bytes.length = 16 }

/-- `ServerCertificate`. -/
structure ServerCertificate where
  keyId : UInt32
  publicKey : Bytes
  signature : Bytes

/-- `SenderCertificate`. -/
structure SenderCertificate where
  senderUuid : SenderUuid
  senderDeviceId : UInt32
  identityKey : IdentityPublicKey
  expiration : UInt64
  serverCertificate : ServerCertificate
  serverSignature : Bytes

section Calls

variable (E : Ed25519)

/-- `verify_ed25519`. -/
def verifyEd25519 (key data signature : Bytes) : Result Unit :=
  if signature.length ≠ 64 then .error .invalidSignature
  else if E.verify key data signature then .ok ()
  else .error (.invalidCertificate "signature verification failed")

namespace ServerCertificate

/-- `ServerCertificate::new`. -/
def new (keyId : UInt32) (signingKey : Bytes) : ServerCertificate :=
  let publicKey := E.verifyingKey signingKey
  let data := beBytes 4 keyId.toNat ++ publicKey
  { keyId
    publicKey
    signature := E.sign signingKey data }

/-- `ServerCertificate::verify_self_signed`. -/
def verifySelfSigned (cert : ServerCertificate) : Result Unit :=
  if E.isPoint cert.publicKey then
    let data := beBytes 4 cert.keyId.toNat ++ cert.publicKey
    verifyEd25519 E cert.publicKey data cert.signature
  else .error (.invalidCertificate "invalid server public key")

end ServerCertificate

namespace SenderCertificate

/-- `SenderCertificate::signable_data`. -/
def signableData (senderUuid : SenderUuid) (senderDeviceId : UInt32)
    (identityKey : IdentityPublicKey) (expiration : UInt64) : Bytes :=
  senderUuid.val ++ beBytes 4 senderDeviceId.toNat ++ identityKey ++ beBytes 8 expiration.toNat

/-- `SenderCertificate::new`. -/
def new (senderUuid : SenderUuid) (senderDeviceId : UInt32) (identityKey : IdentityPublicKey)
    (expiration : UInt64) (serverSigningKey : Bytes) (serverCertificate : ServerCertificate) :
    SenderCertificate :=
  let certData := signableData senderUuid senderDeviceId identityKey expiration
  { senderUuid
    senderDeviceId
    identityKey
    expiration
    serverCertificate
    serverSignature := E.sign serverSigningKey certData }

/-- `SenderCertificate::validate`. -/
def validate (cert : SenderCertificate) (trustRoot : Bytes) (now : UInt64) : Result Unit :=
  if cert.expiration ≤ now then .error .expiredCertificate
  else do
    cert.serverCertificate.verifySelfSigned E
    let serverVk := cert.serverCertificate.publicKey
    if E.isPoint serverVk = false then .error (.invalidCertificate "invalid server key")
    else if serverVk ≠ trustRoot then
      .error (.invalidCertificate "server certificate not signed by trust root")
    else
      let certData :=
        signableData cert.senderUuid cert.senderDeviceId cert.identityKey cert.expiration
      verifyEd25519 E serverVk certData cert.serverSignature

end SenderCertificate

end Calls

/-! ## What is issued is valid -/

section Validity

variable {E : Ed25519}

lemma verifyEd25519_sign (hE : E.Correct) (seed data : Bytes) :
    verifyEd25519 E (E.verifyingKey seed) data (E.sign seed data) = .ok () := by
  have hlen : ¬ (E.sign seed data).length ≠ 64 := not_not.mpr (E.sign_length seed data)
  rw [verifyEd25519, if_neg hlen, if_pos (hE.verify_sign seed data)]

lemma ServerCertificate.verifySelfSigned_new (hE : E.Correct) (keyId : UInt32)
    (signingKey : Bytes) : (ServerCertificate.new E keyId signingKey).verifySelfSigned E =
      .ok () := by
  have hpoint : E.isPoint (ServerCertificate.new E keyId signingKey).publicKey = true :=
    hE.isPoint_verifyingKey signingKey
  rw [verifySelfSigned, if_pos hpoint]
  exact verifyEd25519_sign hE signingKey _

/-- **Certificates of the trust root.**  A certificate that the server has issued under its own
certificate is valid at any time before it expires. -/
lemma SenderCertificate.validate_new (hE : E.Correct) (senderUuid : SenderUuid)
    (senderDeviceId : UInt32) (identityKey : IdentityPublicKey) {expiration now : UInt64}
    (hnow : now < expiration) (keyId : UInt32) (signingKey : Bytes) :
    (SenderCertificate.new E senderUuid senderDeviceId identityKey expiration signingKey
      (ServerCertificate.new E keyId signingKey)).validate E (E.verifyingKey signingKey) now =
        .ok () := by
  have hfresh : ¬ expiration ≤ now := UInt64.not_le.mpr hnow
  have hself := ServerCertificate.verifySelfSigned_new hE keyId signingKey
  have hpoint : ¬ E.isPoint (E.verifyingKey signingKey) = false :=
    ne_false_of_eq_true (hE.isPoint_verifyingKey signingKey)
  have hsigned := verifyEd25519_sign hE signingKey
    (signableData senderUuid senderDeviceId identityKey expiration)
  simp only [validate, new, hself, bind, Except.bind]
  show (if expiration ≤ now then _ else if E.isPoint (E.verifyingKey signingKey) = false then _
    else if E.verifyingKey signingKey ≠ E.verifyingKey signingKey then _ else _) = _
  rw [if_neg hfresh, if_neg hpoint, if_neg (not_not.mpr rfl)]
  exact hsigned

end Validity

/-! ## What is valid has been checked -/

section Checks

variable {E : Ed25519}

lemma verify_of_verifyEd25519 {key data signature : Bytes}
    (h : verifyEd25519 E key data signature = .ok ()) : E.verify key data signature = true := by
  rw [verifyEd25519] at h
  split_ifs at h with hlength hverify
  exact hverify

lemma ServerCertificate.verify_of_verifySelfSigned {cert : ServerCertificate}
    (h : cert.verifySelfSigned E = .ok ()) :
    E.verify cert.publicKey (beBytes 4 cert.keyId.toNat ++ cert.publicKey) cert.signature =
      true := by
  rw [verifySelfSigned] at h
  split_ifs at h with hpoint
  exact verify_of_verifyEd25519 h

/-- A certificate is only valid before it expires, under the trust root, and signed by it. -/
lemma SenderCertificate.verify_of_validate {cert : SenderCertificate} {trustRoot : Bytes}
    {now : UInt64} (h : cert.validate E trustRoot now = .ok ()) :
    now < cert.expiration ∧
      E.verify trustRoot
        (signableData cert.senderUuid cert.senderDeviceId cert.identityKey cert.expiration)
        cert.serverSignature = true := by
  rw [validate] at h
  split_ifs at h with hexpired
  rcases hself : cert.serverCertificate.verifySelfSigned E with e | _
  · rw [hself] at h
    cases h
  · rw [hself] at h
    simp only [bind, Except.bind] at h
    split_ifs at h with hpoint hroot
    rw [not_not] at hroot
    rw [← hroot]
    exact ⟨UInt64.not_le.mp hexpired, verify_of_verifyEd25519 h⟩

end Checks

end Hushwire
