import Hushwire.SealedSender.Certificate

/-!
# What a valid certificate proves

The converse of `SenderCertificate.validate_new`.  The key behind the trust root signs two kinds of
message (`src/protocol/sealed_sender/certificate.rs`): the 36 bytes of a server certificate and the
60 bytes of a sender certificate.  Neither carries a tag that says which kind it is.  They are told
apart by their lengths, and the fields within each by their fixed widths.

`Issue` is a call that signs, and a list of them is all that was ever signed under the key.
`Ed25519.Unforgeable` says what is assumed of the signatures.  `certificates_as_issued` concludes
that a recipient only accepts what one call has issued, field by field, and that a signature made
for one kind of certificate is not accepted for the other.
-/

namespace Hushwire

variable {E : Ed25519} {seed : Bytes}

/-! ## Signing calls -/

/-- The calls that sign with the key of the trust root: `ServerCertificate::new` and
`SenderCertificate::new`. -/
inductive Issue
  | server (keyId : UInt32)
  | sender (senderUuid : SenderUuid) (senderDeviceId : UInt32) (identityKey : IdentityPublicKey)
      (expiration : UInt64) (serverCertificate : ServerCertificate)

namespace Issue

/-- The message that is signed. -/
def data (trustRoot : Bytes) : Issue → Bytes
  | server keyId => beBytes 4 keyId.toNat ++ trustRoot
  | sender senderUuid senderDeviceId identityKey expiration _ =>
      SenderCertificate.signableData senderUuid senderDeviceId identityKey expiration

/-- The signature in the certificate that is made. -/
def signature (E : Ed25519) (seed : Bytes) : Issue → Bytes
  | server keyId => (ServerCertificate.new E keyId seed).signature
  | sender senderUuid senderDeviceId identityKey expiration serverCertificate =>
      (SenderCertificate.new E senderUuid senderDeviceId identityKey expiration seed
        serverCertificate).serverSignature

lemma signature_eq (issue : Issue) :
    issue.signature E seed = E.sign seed (issue.data (E.verifyingKey seed)) := by
  cases issue with
  | server keyId => rfl
  | sender senderUuid senderDeviceId identityKey expiration serverCertificate => rfl

end Issue

/-- **Unforgeability** of the signatures under one key.  `signed` are the messages that were ever
signed with it, and `circulates` tells the signatures that anyone has.  These verify on signed
messages only, and a signature that was made for one message verifies on no other.

The signature on a message exists as a byte string whether or not it was ever made, so it is not
asked of every byte string that it verifies on signed messages only. -/
structure Ed25519.Unforgeable (E : Ed25519) (seed : Bytes) (circulates : Bytes → Prop)
    (signed : List Bytes) : Prop where
  mem_signed : ∀ data signature, circulates signature →
    E.verify (E.verifyingKey seed) data signature = true → data ∈ signed
  eq_of_verify : ∀ data ∈ signed, ∀ data',
    E.verify (E.verifyingKey seed) data' (E.sign seed data) = true → data' = data

/-! ## The messages, apart -/

lemma uint32_eq_of_beBytes {a b : UInt32} (h : beBytes 4 a.toNat = beBytes 4 b.toNat) : a = b :=
  UInt32.toNat_inj.mp (beBytes_inj a.toNat_lt b.toNat_lt h)

lemma uint64_eq_of_beBytes {a b : UInt64} (h : beBytes 8 a.toNat = beBytes 8 b.toNat) : a = b :=
  UInt64.toNat_inj.mp (beBytes_inj a.toNat_lt b.toNat_lt h)

namespace SenderCertificate

/-- The signed bytes determine the fields.  The identity key stands between fields of fixed width,
so this holds whatever its length. -/
lemma signableData_inj {uuid uuid' : SenderUuid} {device device' : UInt32}
    {key key' : IdentityPublicKey} {expiration expiration' : UInt64}
    (h : signableData uuid device key expiration = signableData uuid' device' key' expiration') :
    uuid = uuid' ∧ device = device' ∧ key = key' ∧ expiration = expiration' := by
  obtain ⟨hfront, hexpiration⟩ := List.append_inj' h (by rw [length_beBytes, length_beBytes])
  have hwidth : uuid.val.length = uuid'.val.length := uuid.property.trans uuid'.property.symm
  obtain ⟨hfront, hkey⟩ := List.append_inj hfront (by
    rw [List.length_append, List.length_append, hwidth, length_beBytes, length_beBytes])
  obtain ⟨huuid, hdevice⟩ := List.append_inj hfront hwidth
  exact ⟨Subtype.ext huuid, uint32_eq_of_beBytes hdevice, hkey, uint64_eq_of_beBytes hexpiration⟩

/-- The two kinds of message differ in length, 60 bytes against 36. -/
lemma signableData_ne {uuid : SenderUuid} {device : UInt32} {key : IdentityPublicKey}
    {expiration : UInt64} {keyId : UInt32} {trustRoot : Bytes} (hkey : key.length = 32)
    (hroot : trustRoot.length = 32) :
    signableData uuid device key expiration ≠ beBytes 4 keyId.toNat ++ trustRoot := by
  intro h
  have hlength := congrArg List.length h
  simp only [signableData, List.length_append, length_beBytes, uuid.property, hkey,
    hroot] at hlength
  omega

end SenderCertificate

/-! ## A scheme that is unforgeable -/

namespace Ideal

/-- Signatures for a log of messages: the signature on a message is its place in the log, and one
place is left for all others. -/
def logSigner (log : List Bytes) : Ed25519 where
  verifyingKey _ := List.replicate 32 0
  sign _ data := List.replicate 64 (UInt8.ofNat (log.idxOf data))
  isPoint _ := true
  verify _ data signature := decide (signature = List.replicate 64 (UInt8.ofNat (log.idxOf data)))
  sign_length _ _ := List.length_replicate

lemma logSigner_correct (log : List Bytes) : (logSigner log).Correct where
  isPoint_verifyingKey _ := rfl
  verify_sign _ _ := decide_eq_true rfl

/-- The signatures in circulation are those on the messages of the log. -/
lemma logSigner_unforgeable {log : List Bytes} (hlog : log.length < 256) (seed : Bytes) :
    (logSigner log).Unforgeable seed (fun s => ∃ data ∈ log, s = (logSigner log).sign seed data)
      log := by
  have hbyte : ∀ data, (UInt8.ofNat (log.idxOf data)).toNat = log.idxOf data := by
    intro data
    exact UInt8.toNat_ofNat_of_lt' (lt_of_le_of_lt List.idxOf_le_length hlog)
  have hbind : ∀ data ∈ log, ∀ data', (logSigner log).verify ((logSigner log).verifyingKey seed)
      data' ((logSigner log).sign seed data) = true → data' = data := by
    intro data hdata data' hverify
    have hplace := (List.replicate_right_inj (by decide)).mp (of_decide_eq_true hverify)
    have hidx : log.idxOf data = log.idxOf data' := by
      rw [← hbyte data, ← hbyte data', hplace]
    exact ((List.idxOf_inj hdata).mp hidx).symm
  refine ⟨?_, hbind⟩
  rintro data signature ⟨data', hdata', rfl⟩ hverify
  rwa [hbind data' hdata' data hverify]

end Ideal

/-! ## Certificates of the trust root -/

section Issued

variable {circulates : Bytes → Prop} {issued : List Issue}

/-- A valid certificate has the fields of one that the server has issued. -/
lemma SenderCertificate.mem_issued
    (hroot : (E.verifyingKey seed).length = 32)
    (hunforgeable :
      E.Unforgeable seed circulates (issued.map (Issue.data (E.verifyingKey seed))))
    {cert : SenderCertificate} {now : UInt64} (hkey : cert.identityKey.length = 32)
    (hcirculates : circulates cert.serverSignature)
    (hvalid : cert.validate E (E.verifyingKey seed) now = .ok ()) :
    ∃ serverCertificate,
      Issue.sender cert.senderUuid cert.senderDeviceId cert.identityKey cert.expiration
        serverCertificate ∈ issued := by
  obtain ⟨-, hverify⟩ := verify_of_validate hvalid
  have hsigned := hunforgeable.mem_signed _ _ hcirculates hverify
  obtain ⟨issue, hissue, hdata⟩ := List.mem_map.mp hsigned
  cases issue with
  | server keyId => exact absurd hdata.symm (signableData_ne hkey hroot)
  | sender senderUuid senderDeviceId identityKey expiration serverCertificate =>
      obtain ⟨rfl, rfl, rfl, rfl⟩ := signableData_inj hdata
      exact ⟨serverCertificate, hissue⟩

/-- A signature made by an issuing call verifies on the message of that call only. -/
lemma Ed25519.Unforgeable.eq_data
    (hunforgeable :
      E.Unforgeable seed circulates (issued.map (Issue.data (E.verifyingKey seed))))
    {issue : Issue} (hissue : issue ∈ issued) {data : Bytes}
    (hverify : E.verify (E.verifyingKey seed) data (issue.signature E seed) = true) :
    data = issue.data (E.verifyingKey seed) := by
  rw [issue.signature_eq] at hverify
  exact hunforgeable.eq_of_verify _ (List.mem_map_of_mem hissue) _ hverify

/-- **Certificates bind what was issued.**  Let `issued` be all that was ever signed with the key of
the trust root, and let signatures be unforgeable.  A certificate that validates has not expired and
has the fields of one call of `SenderCertificate::new`.  No signature of a server certificate makes
a sender certificate valid, and no signature of a sender certificate a server certificate. -/
theorem certificates_as_issued (hroot : (E.verifyingKey seed).length = 32)
    (hunforgeable :
      E.Unforgeable seed circulates (issued.map (Issue.data (E.verifyingKey seed)))) :
    (∀ (cert : SenderCertificate) (now : UInt64), cert.identityKey.length = 32 →
      circulates cert.serverSignature → cert.validate E (E.verifyingKey seed) now = .ok () →
        now < cert.expiration ∧ ∃ serverCertificate,
          Issue.sender cert.senderUuid cert.senderDeviceId cert.identityKey cert.expiration
            serverCertificate ∈ issued) ∧
    (∀ keyId, .server keyId ∈ issued → ∀ (cert : SenderCertificate) (now : UInt64),
      cert.identityKey.length = 32 →
        cert.serverSignature = (ServerCertificate.new E keyId seed).signature →
          cert.validate E (E.verifyingKey seed) now ≠ .ok ()) ∧
    ∀ senderUuid senderDeviceId identityKey expiration serverCertificate,
      .sender senderUuid senderDeviceId identityKey expiration serverCertificate ∈ issued →
        identityKey.length = 32 → ∀ cert : ServerCertificate,
          cert.publicKey = E.verifyingKey seed →
            cert.signature = (SenderCertificate.new E senderUuid senderDeviceId identityKey
                expiration seed serverCertificate).serverSignature →
              cert.verifySelfSigned E ≠ .ok () := by
  refine ⟨?_, ?_, ?_⟩
  · intro cert now hkey hcirculates hvalid
    obtain ⟨hfresh, -⟩ := SenderCertificate.verify_of_validate hvalid
    exact ⟨hfresh, SenderCertificate.mem_issued hroot hunforgeable hkey hcirculates hvalid⟩
  · intro keyId hissue cert now hkey hsignature hvalid
    obtain ⟨-, hverify⟩ := SenderCertificate.verify_of_validate hvalid
    rw [hsignature] at hverify
    exact SenderCertificate.signableData_ne hkey hroot (hunforgeable.eq_data hissue hverify)
  · intro senderUuid senderDeviceId identityKey expiration serverCertificate hissue hkey cert
      hpublic hsignature hself
    have hverify := ServerCertificate.verify_of_verifySelfSigned hself
    rw [hpublic, hsignature] at hverify
    exact SenderCertificate.signableData_ne hkey hroot (hunforgeable.eq_data hissue hverify).symm

end Issued

def ledgerUuid : SenderUuid := ⟨List.replicate 16 7, rfl⟩

/-- The messages of one server certificate and one sender certificate. -/
def ledgerMessages : List Bytes :=
  [beBytes 4 3 ++ List.replicate 32 0,
    SenderCertificate.signableData ledgerUuid 5 (List.replicate 32 1) 100]

/-- The calls that sign them. -/
def ledgerIssued : List Issue :=
  [.server 3,
    .sender ledgerUuid 5 (List.replicate 32 1) 100 (.new (Ideal.logSigner ledgerMessages) 3 [])]

/-- The sender certificate that is issued. -/
def ledgerCertificate : SenderCertificate :=
  .new (Ideal.logSigner ledgerMessages) ledgerUuid 5 (List.replicate 32 1) 100 []
    (.new (Ideal.logSigner ledgerMessages) 3 [])

theorem certificates_as_issued_ledger :
    ledgerCertificate.validate (Ideal.logSigner ledgerMessages) (List.replicate 32 0) 99 = .ok () ∧
      99 < ledgerCertificate.expiration ∧ ∃ serverCertificate,
        Issue.sender ledgerCertificate.senderUuid ledgerCertificate.senderDeviceId
          ledgerCertificate.identityKey ledgerCertificate.expiration serverCertificate ∈
            ledgerIssued := by
  have hunforgeable : (Ideal.logSigner ledgerMessages).Unforgeable [] _
      (ledgerIssued.map (Issue.data (List.replicate 32 0))) :=
    Ideal.logSigner_unforgeable (show ledgerMessages.length < 256 by decide) []
  have hvalid : ledgerCertificate.validate (Ideal.logSigner ledgerMessages)
    (List.replicate 32 0) 99 =
      .ok () :=
    SenderCertificate.validate_new (Ideal.logSigner_correct _) _ _ _ (by decide) 3 []
  obtain ⟨hissued, -⟩ := certificates_as_issued List.length_replicate hunforgeable
  exact ⟨hvalid, hissued ledgerCertificate 99 rfl
    ⟨_, List.mem_cons_of_mem _ List.mem_cons_self, rfl⟩
    hvalid⟩

end Hushwire
