import Hushwire.Handshake.PrekeySession
import Hushwire.Ratchet.ForwardSecrecy
import Hushwire.SealedSender.Issuance

/-!
# What the handshake's secret depends on

The secret of PQXDH is derived from three or four Diffie-Hellman outputs and a KEM secret, written
one after the other.  An attacker is described by the 32-byte blocks it knows: it can write them
down in any order and number, and besides it knows every shorter string (`knownBytes`).

* `pqxdh_secret_derivable_iff` — it can compute the secret exactly if it knows all the parts.  So
  breaking X25519 is not enough, nor is breaking the KEM.
* `hybrid_forward_secrecy` — an attacker who misses one part of the handshake, and later steals
  everything that one of the two sessions holds, cannot compute the key of a message from before.
* `bundle_accepted_iff` — of what the initiator works on, the signatures cover the signed prekey and
  the Kyber prekey, each by itself.  They do not cover the one-time prekey and the ids, with which
  whoever hands the bundle over can do what they like; by the first result they learn one part at
  most that way.
-/

namespace Hushwire

open Duplex Secrecy

variable {Key : Type}

/-! ## The parts of the secret -/

section Parts

variable (C : HandshakeSuite Key)

/-- What goes into the secret, after the fixed block. -/
def secretParts (dh1 dh2 dh3 : Key) (dh4 : Option Key) (ss : Bytes) : List Bytes :=
  [C.hash.asBytes dh1, C.hash.asBytes dh2, C.hash.asBytes dh3] ++
    (dh4.map C.hash.asBytes).toList ++ [ss]

/-- What the initiator puts into it. -/
def handshakeParts (rng kemRng : Rng) (ourIdentity : IdentityKeyPair)
    (theirBundle : PreKeyBundle Key) : List Bytes :=
  let ourX25519 := ourIdentity.x25519PrivateKey C.sha512
  let ephemeral := rng.fill 32
  secretParts C (C.x25519.diffieHellman ourX25519 theirBundle.signedPreKeyPublic)
    (C.x25519.diffieHellman ephemeral (C.x25519.ofIdentity theirBundle.identityKey))
    (C.x25519.diffieHellman ephemeral theirBundle.signedPreKeyPublic)
    (theirBundle.oneTimePreKey.map (fun opk => C.x25519.diffieHellman ephemeral opk.publicKey))
    (C.mlKem.encapsulate theirBundle.kyberPreKey.publicKey (kemRng.fill 32)).2

/-- The fixed block in front. -/
def fixedBlock : Bytes := List.replicate 32 0xFF

/-- KEM secrets have 32 bytes. -/
def MlKem1024.SecretSized (M : MlKem1024) : Prop :=
  ∀ ek rand, (M.encapsulate ek rand).2.length = 32

end Parts

section Handshake

variable {C : HandshakeSuite Key} {rng kemRng : Rng} {alice : IdentityKeyPair}
  {bundle : PreKeyBundle Key} {out : PqxdhOutput Key}

lemma pqxdhSecret_eq (dh1 dh2 dh3 : Key) (dh4 : Option Key) (ss : Bytes) :
    pqxdhSecret C dh1 dh2 dh3 dh4 ss = C.hash.hkdf
      (.inr (fixedBlock :: secretParts C dh1 dh2 dh3 dh4 ss).flatten) (some C.hash.zero) pqxdhInfo
        32 0 := by
  cases dh4 <;> simp [pqxdhSecret, secretParts, fixedBlock]

lemma length_of_mem_secretParts {dh1 dh2 dh3 : Key} {dh4 : Option Key} {ss : Bytes}
    (hss : ss.length = 32) : ∀ b ∈ secretParts C dh1 dh2 dh3 dh4 ss, b.length = 32 := by
  intro b hb
  cases dh4 with
  | none =>
      simp only [secretParts, Option.map_none, Option.toList_none, List.append_nil,
        List.cons_append, List.nil_append, List.mem_cons, List.not_mem_nil, or_false] at hb
      rcases hb with rfl | rfl | rfl | rfl
      · exact C.hash.asBytes_length dh1
      · exact C.hash.asBytes_length dh2
      · exact C.hash.asBytes_length dh3
      · exact hss
  | some dh4 =>
      simp only [secretParts, Option.map_some, Option.toList_some, List.cons_append,
        List.nil_append, List.mem_cons, List.not_mem_nil, or_false] at hb
      rcases hb with rfl | rfl | rfl | rfl | rfl
      · exact C.hash.asBytes_length dh1
      · exact C.hash.asBytes_length dh2
      · exact C.hash.asBytes_length dh3
      · exact C.hash.asBytes_length dh4
      · exact hss

/-- A key that is taken for an encapsulation key is not changed. -/
lemma ekFromBytes_eq_ok {M : MlKem1024} {bytes ek : Bytes} (h : ekFromBytes M bytes = .ok ek) :
    ek = bytes ∧ bytes.length = encapsulationKeySize := by
  rw [ekFromBytes] at h
  split at h
  · cases h
  rename_i hlength
  split at h
  · exact ⟨(Except.ok.inj h).symm, not_not.mp hlength⟩
  · cases h

/-- **A bundle that is accepted.**  Both signatures verify, and the output is that of the
agreement. -/
lemma processPrekeyBundle_eq_ok_iff : processPrekeyBundle C rng kemRng alice bundle = .ok out ↔
    IdentityPublicKey.verify C.ed25519 bundle.identityKey (C.hash.asBytes bundle.signedPreKeyPublic)
        bundle.signedPreKeySignature = .ok () ∧
      IdentityPublicKey.verify C.ed25519 bundle.identityKey bundle.kyberPreKey.publicKey
        bundle.kyberPreKey.signature = .ok () ∧
      ekFromBytes C.mlKem bundle.kyberPreKey.publicKey = .ok bundle.kyberPreKey.publicKey ∧
      out = agree C alice bundle (rng.fill 32)
        (C.mlKem.encapsulate bundle.kyberPreKey.publicKey (kemRng.fill 32)).1
        (C.mlKem.encapsulate bundle.kyberPreKey.publicKey (kemRng.fill 32)).2 := by
  rw [processPrekeyBundle]
  rcases IdentityPublicKey.verify C.ed25519 bundle.identityKey
      (C.hash.asBytes bundle.signedPreKeyPublic) bundle.signedPreKeySignature with e | _
  · exact ⟨fun h => (by cases h), fun h => (by cases h.1)⟩
  rcases IdentityPublicKey.verify C.ed25519 bundle.identityKey bundle.kyberPreKey.publicKey
      bundle.kyberPreKey.signature with e | _
  · exact ⟨fun h => (by cases h), fun h => (by cases h.2.1)⟩
  rcases hek : ekFromBytes C.mlKem bundle.kyberPreKey.publicKey with e | ek
  · exact ⟨fun h => (by cases h), fun h => (by cases h.2.2.1)⟩
  obtain rfl := (ekFromBytes_eq_ok hek).1
  constructor
  · intro h
    exact ⟨rfl, rfl, rfl, (Except.ok.inj h).symm⟩
  · rintro ⟨-, -, -, rfl⟩
    rfl

/-- The secret, by its parts. -/
lemma sharedSecret_eq (h : processPrekeyBundle C rng kemRng alice bundle = .ok out) :
    out.sharedSecret = C.hash.hkdf
      (.inr (fixedBlock :: handshakeParts C rng kemRng alice bundle).flatten) (some C.hash.zero)
        pqxdhInfo 32 0 := by
  obtain ⟨-, -, -, rfl⟩ := processPrekeyBundle_eq_ok_iff.mp h
  exact pqxdhSecret_eq _ _ _ _ _

/-- The material of the secret can be written down exactly if all parts are known. -/
lemma material_known_iff (hM : C.mlKem.SecretSized) {blocks : Set Bytes}
    (hblocks : ∀ b ∈ blocks, b.length = 32) (hfixed : fixedBlock ∈ blocks) :
    (fixedBlock :: handshakeParts C rng kemRng alice bundle).flatten ∈ knownBytes blocks ↔
      ∀ part ∈ handshakeParts C rng kemRng alice bundle, part ∈ blocks := by
  have hlength : ∀ y ∈ fixedBlock :: handshakeParts C rng kemRng alice bundle, y.length = 32 := by
    intro y hy
    rcases List.mem_cons.mp hy with rfl | hy
    · exact List.length_replicate
    · exact length_of_mem_secretParts (hM _ _) y hy
  rw [flatten_mem_knownBytes hblocks hlength]
  exact ⟨fun hall part hpart => hall part (List.mem_cons_of_mem _ hpart),
    fun hall => List.forall_mem_cons.mpr ⟨hfixed, hall⟩⟩

/-- Who misses a part cannot compute the secret from anything. -/
lemma not_computes_sharedSecret (hH : C.hash.Free) (hM : C.mlKem.SecretSized)
    (h : processPrekeyBundle C rng kemRng alice bundle = .ok out) {blocks : Set Bytes}
    (hblocks : ∀ b ∈ blocks, b.length = 32) (hfixed : fixedBlock ∈ blocks)
    (hmissing : ∃ part ∈ handshakeParts C rng kemRng alice bundle, part ∉ blocks)
    (inputs : List Key) : ¬ C.hash.Computes (knownBytes blocks) inputs out.sharedSecret := by
  rw [sharedSecret_eq h]
  apply hH.not_computes_of_secret
  intro hmem
  obtain ⟨part, hpart, hnot⟩ := hmissing
  exact hnot ((material_known_iff hM hblocks hfixed).mp hmem part hpart)

end Handshake

/-- **PQXDH combines its parts.**  The initiator has accepted a bundle, of whoever's making.
Somebody who does not have the shared secret itself, but any other keys, can compute it exactly if
they know each of the Diffie-Hellman outputs and the KEM secret that have gone into it. -/
theorem pqxdh_secret_derivable_iff {C : HandshakeSuite Key} (hH : C.hash.Free)
    (hM : C.mlKem.SecretSized) {rng kemRng : Rng} {alice : IdentityKeyPair}
    {bundle : PreKeyBundle Key} {out : PqxdhOutput Key}
    (h : processPrekeyBundle C rng kemRng alice bundle = .ok out) {blocks : Set Bytes}
    (hblocks : ∀ b ∈ blocks, b.length = 32) (hfixed : fixedBlock ∈ blocks) {known : Set Key}
    (hzero : C.hash.zero ∈ known) (hknown : out.sharedSecret ∉ known) :
    Derives (C.hash.Computes (knownBytes blocks)) known out.sharedSecret ↔
      ∀ part ∈ handshakeParts C rng kemRng alice bundle, part ∈ blocks := by
  rw [sharedSecret_eq h] at hknown ⊢
  rw [hH.derives_hkdf_bytes_iff hknown (.known hzero)]
  exact material_known_iff hM hblocks hfixed

/-! ### An instance -/

/-- The suite of the ideal handshake with symbolic KDFs. -/
noncomputable def freeHandshake : HandshakeSuite ℕ :=
  { idealHandshake with hash := Ideal.freeHash }

lemma freeHandshake_secretSized : freeHandshake.mlKem.SecretSized := by
  intro ek rand
  show ((Ideal.fit kyberCiphertextSize rand).take 32).length = 32
  rw [List.length_take, Ideal.length_fit]
  decide

/-- The responder's bundle under it. -/
noncomputable def freeBundle : PreKeyBundle ℕ where
  registrationId := 1
  deviceId := 1
  identityKey := idealBobIdentity.publicKey freeHandshake.ed25519
  signedPreKeyId := 1
  signedPreKeyPublic := freeHandshake.x25519.publicKey idealSecret
  signedPreKeySignature := idealBobIdentity.sign freeHandshake.ed25519
    (freeHandshake.hash.asBytes (freeHandshake.x25519.publicKey idealSecret))
  oneTimePreKey := none
  kyberPreKey :=
    { id := 1
      publicKey := freeHandshake.mlKem.encapsulationKey []
      signature := idealBobIdentity.sign freeHandshake.ed25519
        (freeHandshake.mlKem.encapsulationKey [])
      isLastResort := true }

lemma freeBundle_for : freeBundle.For freeHandshake idealBobIdentity idealSecret none [] where
  identityKey := rfl
  signedPreKey := rfl
  signedPreKeySigned := IdentityPublicKey.verify_sign Ideal.ed25519_correct _ _
  oneTimePreKey _ h := by cases h
  kyberPreKey := rfl
  kyberPreKeySigned := IdentityPublicKey.verify_sign Ideal.ed25519_correct _ _

/-- The initiator accepts the bundle. -/
lemma exists_freeOutput : ∃ out,
    processPrekeyBundle freeHandshake (constRng 1) (constRng 2) ⟨[]⟩ freeBundle = .ok out := by
  obtain ⟨out, hout, -⟩ := exists_agree (C := freeHandshake) Ideal.x25519_commutes (fun _ => rfl)
    Ideal.mlKem_correct freeBundle_for ⟨[]⟩ (constRng 1) (constRng 2)
  exact ⟨out, hout⟩

/-- All blocks but one. -/
def blocksBut (secret : Bytes) : Set Bytes := {b | b.length = 32 ∧ b ≠ secret}

/-- The KEM secret of that handshake. -/
def freeKemSecret : Bytes := (constRng 2).fill 32

lemma fixedBlock_mem_blocksBut : fixedBlock ∈ blocksBut freeKemSecret :=
  ⟨List.length_replicate, by decide⟩

lemma freeKemSecret_mem_parts :
    freeKemSecret ∈ handshakeParts freeHandshake (constRng 1) (constRng 2) ⟨[]⟩ freeBundle := by
  have hlength : freeKemSecret.length = 32 := (constRng 2).fill_length 32
  have hsecret : (Ideal.fit kyberCiphertextSize freeKemSecret).take freeKemSecret.length =
      freeKemSecret := Ideal.take_fit (by rw [hlength]; decide)
  rw [hlength] at hsecret
  exact List.mem_append_right _ (List.mem_singleton.mpr hsecret.symm)

/-- Who can do anything with elliptic curves, but does not have the KEM secret, does not get the
shared secret. -/
theorem pqxdh_secret_derivable_iff_without_kem :
    ∃ out, processPrekeyBundle freeHandshake (constRng 1) (constRng 2) ⟨[]⟩ freeBundle = .ok out ∧
      ¬ Derives (freeHandshake.hash.Computes (knownBytes (blocksBut freeKemSecret))) {0}
        out.sharedSecret := by
  obtain ⟨out, hout⟩ := exists_freeOutput
  refine ⟨out, hout, fun hder => ?_⟩
  have hpositive : out.sharedSecret ∉ ({0} : Set ℕ) := by
    intro hzero
    rw [sharedSecret_eq hout] at hzero
    exact absurd (Set.mem_singleton_iff.mp hzero)
      ((Nat.zero_lt_succ _).trans_le (Ideal.le_freeHash_hkdf _ _ _ _ _)).ne'
  have hall := (pqxdh_secret_derivable_iff (C := freeHandshake) Ideal.freeHash_free
    freeHandshake_secretSized hout (fun b hb => hb.1) fixedBlock_mem_blocksBut
    (Set.mem_singleton 0) hpositive).mp hder
  exact (hall _ freeKemSecret_mem_parts).2 rfl

/-! ## Sessions after a handshake -/

/-- The sessions that a handshake leads to: the initiator's, with the data of the handshake pending,
and the responder's. -/
inductive AfterHandshake (C : HandshakeSuite Key) (out : PqxdhOutput Key) :
    Side → RatchetSession Key → Prop
  | initiator (rng : Rng) (signedPreKeyPublic : Key) : AfterHandshake C out .alice
      (.initializeAliceWithPrekey C.toSuite rng out.sharedSecret signedPreKeyPublic
        out.initialMessage)
  | responder (signedPreKey : Bytes × Key) : AfterHandshake C out .bob
      (.initializeBob C.toSuite out.sharedSecret signedPreKey)

lemma AfterHandshake.starts {C : HandshakeSuite Key} {out : PqxdhOutput Key} {side : Side}
    {start : RatchetSession Key} (h : AfterHandshake C out side start) :
    RatchetSession.Starts C.toSuite out.sharedSecret side (start.withPending none) := by
  cases h with
  | initiator rng signedPreKeyPublic => exact .alice rng signedPreKeyPublic
  | responder signedPreKey => exact .bob signedPreKey

/-- What a session holds after calls of `encrypt_message` and `decrypt` is what it holds without
pending data. -/
lemma secrets_replies [DecidableEq Key] (C : Suite Key) (s : RatchetSession Key)
    (calls : List (Call SessionInput RatchetMessage)) :
    (replies (messageStep C) s calls).2.secrets =
      ((sessionMachine C).exec (s.withPending none, []) calls).1.secrets := by
  have hs : (s.withPending none).withPending s.pendingPrekey = s := rfl
  have hrun := replies_messageStep (C := C) calls (s.withPending none) s.pendingPrekey rfl
  rw [hs] at hrun
  rw [hrun, ← replies_plainStep calls (s.withPending none) []]
  rfl

/-- **A hybrid handshake.**  An attacker knows all the parts of a handshake but one, which may be
any of them: a Diffie-Hellman output of long-term or of ephemeral keys, or the KEM secret.  One of
the two sessions is used, with messages of anyone's making, and then everything it holds is stolen.
The AEAD key of a message whose EC key the session had taken cannot be computed, whatever is known
of the world outside the session's EC ratchet. -/
theorem hybrid_forward_secrecy [DecidableEq Key] {C : HandshakeSuite Key} (hH : C.hash.Free)
    (hM : C.mlKem.SecretSized) {rng kemRng : Rng} {alice : IdentityKeyPair}
    {bundle : PreKeyBundle Key} {out : PqxdhOutput Key}
    (h : processPrekeyBundle C rng kemRng alice bundle = .ok out) {blocks : Set Bytes}
    (hblocks : ∀ b ∈ blocks, b.length = 32) (hfixed : fixedBlock ∈ blocks)
    (hmissing : ∃ part ∈ handshakeParts C rng kemRng alice bundle, part ∉ blocks) {side : Side}
    {start : RatchetSession Key} (hstart : AfterHandshake C out side start)
    (calls : List (Call SessionInput RatchetMessage)) {world : Set Key}
    (hworld : ∀ k ∈ world, ¬ C.hash.OfEcRatchet out.sharedSecret k) :
    ∀ ecMk ∈ ecKeysUsed ((sessionMachine C.toSuite).exec (start.withPending none, []) calls).2,
      ∀ pqMk, ¬ Derives (C.hash.Computes (knownBytes blocks))
        ((replies (messageStep C.toSuite) start calls).2.secrets ∪ world)
        (C.hash.aeadKey ecMk pqMk) := by
  intro ecMk hused pqMk
  rw [secrets_replies]
  exact forward_secrecy hH (beBytes_mem_knownBytes blocks)
    (not_computes_sharedSecret hH hM h hblocks hfixed hmissing) hstart.starts calls
      hworld ecMk hused
    pqMk

lemma freeKemSecret_missing : ∃ part ∈ handshakeParts freeHandshake (constRng 1) (constRng 2) ⟨[]⟩
    freeBundle, part ∉ blocksBut freeKemSecret :=
  ⟨_, freeKemSecret_mem_parts, fun h => h.2 rfl⟩

/-- The same attacker also steals the initiator's session after the first message. -/
theorem hybrid_forward_secrecy_without_kem :
    ∃ (out : PqxdhOutput ℕ) (start : RatchetSession ℕ),
      processPrekeyBundle freeHandshake (constRng 1) (constRng 2) ⟨[]⟩ freeBundle = .ok out ∧
      AfterHandshake freeHandshake out .alice start ∧
      ∃ ecMk ∈ ecKeysUsed ((sessionMachine freeHandshake.toSuite).exec
          (start.withPending none, []) [.send idleInput]).2,
        ¬ Derives (freeHandshake.hash.Computes (knownBytes (blocksBut freeKemSecret)))
          ((replies (messageStep freeHandshake.toSuite) start [.send idleInput]).2.secrets ∪ ∅)
          (freeHandshake.hash.aeadKey ecMk 0) := by
  obtain ⟨out, hout⟩ := exists_freeOutput
  have hstart : AfterHandshake freeHandshake out .alice (.initializeAliceWithPrekey
      freeHandshake.toSuite (constRng 1) out.sharedSecret freeBundle.signedPreKeyPublic
        out.initialMessage) := .initiator (constRng 1) _
  obtain ⟨header, ecMk, pqMk, message, spqr, -, hlog⟩ := initializeAlice_send
    (C := freeHandshake.toSuite) ⟨Ideal.kem_correct, Ideal.codec_correct⟩ (fun _ _ _ _ => ⟨_, rfl⟩)
    (constRng 1) out.sharedSecret freeBundle.signedPreKeyPublic idleInput
  have hused : ecMk ∈ ecKeysUsed ((sessionMachine freeHandshake.toSuite).exec
      (.initializeAlice freeHandshake.toSuite (constRng 1) out.sharedSecret
        freeBundle.signedPreKeyPublic, []) [.send idleInput]).2 := by
    rw [hlog, ecKeysUsed_append, ecKeysUsed_map]
    exact List.mem_singleton_self ecMk
  have hsafe := hybrid_forward_secrecy (C := freeHandshake) Ideal.freeHash_free
    freeHandshake_secretSized hout (fun b hb => hb.1) fixedBlock_mem_blocksBut freeKemSecret_missing
    hstart [.send idleInput] (fun k hk => absurd hk (Set.notMem_empty k)) ecMk hused 0
  exact ⟨out, _, hout, hstart, ecMk, hused, hsafe⟩

/-! ## What a bundle's signatures cover -/

/-- What an identity key signs for bundles. -/
inductive SignedKey (Key : Type)
  | signedPreKey (publicKey : Key)
  | kyberPreKey (publicKey : Bytes)

/-- The message that is signed. -/
def SignedKey.data (H : Hash Key) : SignedKey Key → Bytes
  | signedPreKey publicKey => H.asBytes publicKey
  | kyberPreKey publicKey => publicKey

section Bundles

variable {C : HandshakeSuite Key} {bob : IdentityKeyPair} {circulates : Bytes → Prop}
  {published : List (SignedKey Key)}

/-- The signature of one published key verifies on that key. -/
lemma verify_published_iff (hE : C.ed25519.Correct)
    (hunforgeable : C.ed25519.Unforgeable bob.seed circulates
      (published.map (SignedKey.data C.hash)))
    {key : SignedKey Key} (hkey : key ∈ published) (data : Bytes) :
    IdentityPublicKey.verify C.ed25519 (bob.publicKey C.ed25519) data
        (bob.sign C.ed25519 (key.data C.hash)) = .ok () ↔ data = key.data C.hash := by
  constructor
  · intro h
    rw [IdentityPublicKey.verify] at h
    split at h
    · cases h
    split at h
    · rename_i hverify
      exact hunforgeable.eq_of_verify _ (List.mem_map_of_mem hkey) data hverify
    · cases h
  · rintro rfl
    exact IdentityPublicKey.verify_sign hE _ _

/-- The two kinds of keys have different sizes. -/
lemma asBytes_ne_kyber {key : Key} {ek : Bytes} (hek : ek.length = encapsulationKeySize) :
    C.hash.asBytes key ≠ ek := by
  intro h
  have hlength := congrArg List.length h
  rw [C.hash.asBytes_length, hek] at hlength
  cases hlength

/-- A key that has been published and is taken for an encapsulation key is one. -/
lemma published_of_kyber {key : SignedKey Key} {ek : Bytes}
    (hek : ekFromBytes C.mlKem ek = .ok ek) (h : ek = key.data C.hash) : key = .kyberPreKey ek := by
  cases key with
  | kyberPreKey ek' => exact congrArg _ h.symm
  | signedPreKey key =>
      exact absurd h.symm (asBytes_ne_kyber (ekFromBytes_eq_ok hek).2)

end Bundles

/-- **What a bundle's signatures cover.**  `published` are all the keys that an identity has ever
signed.  Somebody puts a bundle together under that identity, with the signatures of two of them.
The initiator accepts it exactly if the one is the signed prekey in the bundle, and the other is the
Kyber prekey in the bundle.  So keys that were signed at different times may be combined, with any
one-time prekey or none and with any ids, but no signature of the one kind passes for the other. -/
theorem bundle_accepted_iff {C : HandshakeSuite Key} (hE : C.ed25519.Correct)
    {bob : IdentityKeyPair} {circulates : Bytes → Prop} {published : List (SignedKey Key)}
    (hunforgeable : C.ed25519.Unforgeable bob.seed circulates
      (published.map (SignedKey.data C.hash)))
    (hkyber : ∀ ek, .kyberPreKey ek ∈ published → ekFromBytes C.mlKem ek = .ok ek)
    {first second : SignedKey Key} (hfirst : first ∈ published) (hsecond : second ∈ published)
    {bundle : PreKeyBundle Key} (hidentity : bundle.identityKey = bob.publicKey C.ed25519)
    (hspk : bundle.signedPreKeySignature = bob.sign C.ed25519 (first.data C.hash))
    (hkpk : bundle.kyberPreKey.signature = bob.sign C.ed25519 (second.data C.hash))
    (rng kemRng : Rng) (alice : IdentityKeyPair) :
    (∃ out, processPrekeyBundle C rng kemRng alice bundle = .ok out) ↔
      (∃ key, first = .signedPreKey key ∧
        C.hash.asBytes key = C.hash.asBytes bundle.signedPreKeyPublic) ∧
      second = .kyberPreKey bundle.kyberPreKey.publicKey := by
  constructor
  · rintro ⟨out, hout⟩
    obtain ⟨hspkOk, hkpkOk, hek, -⟩ := processPrekeyBundle_eq_ok_iff.mp hout
    rw [hidentity, hspk, verify_published_iff hE hunforgeable hfirst] at hspkOk
    rw [hidentity, hkpk, verify_published_iff hE hunforgeable hsecond] at hkpkOk
    refine ⟨?_, published_of_kyber hek hkpkOk⟩
    cases first with
    | signedPreKey key => exact ⟨key, rfl, hspkOk.symm⟩
    | kyberPreKey ek =>
        exact absurd hspkOk (asBytes_ne_kyber (ekFromBytes_eq_ok (hkyber ek hfirst)).2)
  · rintro ⟨⟨key, rfl, hkey⟩, rfl⟩
    have hspkOk := (verify_published_iff hE hunforgeable hfirst
      (C.hash.asBytes bundle.signedPreKeyPublic)).mpr hkey.symm
    have hkpkOk := (verify_published_iff hE hunforgeable hsecond
      bundle.kyberPreKey.publicKey).mpr rfl
    rw [← hidentity, ← hspk] at hspkOk
    rw [← hidentity, ← hkpk] at hkpkOk
    exact ⟨_, processPrekeyBundle_eq_ok_iff.mpr ⟨hspkOk, hkpkOk, hkyber _ hsecond, rfl⟩⟩

/-- A signed prekey and a Kyber prekey. -/
def publishedKeys : List (SignedKey ℕ) :=
  [.signedPreKey 5, .kyberPreKey (Ideal.mlKem.encapsulationKey [])]

/-- The suite with signatures of those two. -/
noncomputable def publishedHandshake : HandshakeSuite ℕ :=
  { freeHandshake with
    ed25519 := Ideal.logSigner (publishedKeys.map (SignedKey.data Ideal.freeHash)) }

/-- A bundle with the two keys, somebody else's one-time prekey, and these signatures. -/
noncomputable def handedBundle (first second : SignedKey ℕ) : PreKeyBundle ℕ where
  registrationId := 1
  deviceId := 1
  identityKey := idealBobIdentity.publicKey publishedHandshake.ed25519
  signedPreKeyId := 1
  signedPreKeyPublic := 5
  signedPreKeySignature :=
    idealBobIdentity.sign publishedHandshake.ed25519 (first.data publishedHandshake.hash)
  oneTimePreKey := some ⟨7, 9⟩
  kyberPreKey :=
    { id := 1
      publicKey := Ideal.mlKem.encapsulationKey []
      signature :=
        idealBobIdentity.sign publishedHandshake.ed25519 (second.data publishedHandshake.hash)
      isLastResort := false }

/-- With the two signatures it is accepted, and with the two exchanged it is not. -/
theorem bundle_accepted_iff_handed :
    (∃ out, processPrekeyBundle publishedHandshake (constRng 1) (constRng 2) ⟨[]⟩
      (handedBundle (.signedPreKey 5) (.kyberPreKey (Ideal.mlKem.encapsulationKey []))) = .ok out) ∧
    ¬ ∃ out, processPrekeyBundle publishedHandshake (constRng 1) (constRng 2) ⟨[]⟩
      (handedBundle (.kyberPreKey (Ideal.mlKem.encapsulationKey [])) (.signedPreKey 5)) =
        .ok out := by
  have hunforgeable : publishedHandshake.ed25519.Unforgeable idealBobIdentity.seed _
      (publishedKeys.map (SignedKey.data publishedHandshake.hash)) :=
    Ideal.logSigner_unforgeable (by rw [List.length_map]; decide) _
  have hkyber : ∀ ek, .kyberPreKey ek ∈ publishedKeys →
      ekFromBytes publishedHandshake.mlKem ek = .ok ek := by
    intro ek hek
    rcases List.mem_cons.mp hek with h | h
    · cases h
    · cases List.mem_singleton.mp h
      exact ekFromBytes_encapsulationKey (C := freeHandshake) Ideal.mlKem_correct []
  have hfirst : SignedKey.signedPreKey 5 ∈ publishedKeys := List.mem_cons_self
  have hsecond : .kyberPreKey (Ideal.mlKem.encapsulationKey []) ∈ publishedKeys :=
    List.mem_cons_of_mem _ List.mem_cons_self
  have hE := Ideal.logSigner_correct (publishedKeys.map (SignedKey.data Ideal.freeHash))
  constructor
  · exact (bundle_accepted_iff (C := publishedHandshake) hE hunforgeable hkyber hfirst hsecond
      rfl rfl rfl _ _ _).mpr ⟨⟨5, rfl, rfl⟩, rfl⟩
  · intro h
    obtain ⟨⟨key, hkey, -⟩, -⟩ := (bundle_accepted_iff (C := publishedHandshake) hE hunforgeable
      hkyber hsecond hfirst rfl rfl rfl _ _ _).mp h
    cases hkey

end Hushwire
