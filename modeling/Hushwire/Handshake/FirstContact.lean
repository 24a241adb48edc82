import Hushwire.Handshake.Pqxdh
import Hushwire.Ratchet.SessionSteps
import Hushwire.Ratchet.SpqrInvariant

/-!
# First contact

What the handshake and the first message leave behind.  The initiator works on a prekey bundle,
starts a session and encrypts; the responder runs `decrypt_prekey_message` on the result and has a
session too.  The two start from different states: the initiator has a sending chain and no
receiving chain, the responder neither, and the braid of one is about to make a key while the
other waits for it.

`Synchronised` says what the two have in common afterwards, and `first_contact` that it is so for
every bundle, every pair of identities and every plaintext.
-/

namespace Hushwire

open Duplex

variable {Key : Type}

/-- The libraries behave as documented. -/
structure HandshakeSuite.Correct (C : HandshakeSuite Key) : Prop where
  prims : C.toPrims.Correct
  x25519 : C.x25519.Commutes
  identities : C.x25519.OfIdentities C.ed25519 C.sha512
  xchacha : C.xchacha.Correct
  postcard : C.postcard.Correct
  mlKem : C.mlKem.Correct

/-- `RatchetSession::decrypt_prekey_message`. -/
def RatchetSession.decryptPrekeyMessage [DecidableEq Key] (C : HandshakeSuite Key) (rng : Rng)
    (msg : PreKeyRatchetMessage Key) (ourIdentity : IdentityKeyPair) (signedPreKeyPrivate : Bytes)
    (signedPreKeyPublic : Key) (oneTimePreKeyPrivate : Option Bytes) (kyberDkSeed : Bytes) :
    Result (RatchetSession Key × Bytes) := do
  let initialMessage : PqxdhInitialMessage Key :=
    { registrationId := msg.registrationId
      ephemeralPublicKey := msg.ephemeralDhKey
      signedPreKeyId := msg.signedPreKeyId
      oneTimePreKeyId := msg.preKeyId
      kyberPreKeyId := msg.kyberPreKeyId
      kyberCiphertext := msg.kyberCiphertext
      identityKey := msg.identityKey }
  let sharedSecret ← processInitialMessage C ourIdentity signedPreKeyPrivate oneTimePreKeyPrivate
    kyberDkSeed initialMessage
  let session := initializeBob C.toSuite sharedSecret (signedPreKeyPrivate, signedPreKeyPublic)
  match session.decrypt C.toSuite rng msg.message msg.identityKey
      (ourIdentity.publicKey C.ed25519) with
  | (.error e, _) => .error e
  | (.ok plaintext, session) => .ok (session, plaintext)

/-! ## The braid -/

/-- The authenticator of a braid that is not poisoned. -/
def State.auth : State Key → Option (Authenticator Key)
  | keysUnsampled _ auth => some auth
  | keysSampled _ auth _ _ _ => some auth
  | headerSent _ auth _ _ _ => some auth
  | ct1Received _ auth _ _ _ => some auth
  | ekSentCt1Received _ auth _ _ _ => some auth
  | noHeaderReceived _ auth _ => some auth
  | headerReceived _ auth _ _ => some auth
  | ct1Sampled _ auth _ _ _ _ _ => some auth
  | ekReceivedCt1Sampled _ auth _ _ _ _ => some auth
  | ct1Acknowledged _ auth _ _ _ _ => some auth
  | ct2Sampled _ auth _ => some auth
  | poisoned => none

section Braid

variable {P : Prims Key}

/-- Alice's first braid message, and what Bob makes of it: neither touches the authenticator, and
Bob can answer. -/
lemma exists_first_braid_message (hP : P.Correct) (authSeed : Key) (rng : Rng) :
    ∃ st m st', (BraidState.initSender P authSeed).state.send P rng = .ok (st, m, none) ∧
      (BraidState.initReceiver P authSeed).state.receive P m = .ok (st', none) ∧
      (∀ rng', ∃ st'' m' o, st'.send P rng' = .ok (st'', m', o)) ∧ m.epoch = 1 ∧ st.epoch = 1 ∧
      st.auth = some (.init P.hash initialEpoch authSeed) ∧
      st'.auth = some (.init P.hash initialEpoch authSeed) := by
  obtain ⟨st, m, o, hsend, hjoint⟩ :=
    (joint_braidNet (tolerant_genuine hP) authSeed).send hP .alice rng
  have hsends : State.Sends P rng
      (.keysUnsampled initialEpoch (.init P.hash initialEpoch authSeed)) st m o :=
    State.Sends.of_send hsend
  obtain ⟨hepoch, hmepoch⟩ := hsends.epoch_eq
  have halice : o = none ∧ st.auth = some (.init P.hash initialEpoch authSeed) := by
    cases hsends
    exact ⟨rfl, rfl⟩
  obtain ⟨rfl, hauth⟩ := halice
  have hmem : m ∈ ((braidsOf (braidNet P authSeed)).put .alice st [] [m]
      (((braidsOf (braidNet P authSeed)).node .alice).tagsOnSend P rng)).sent
        Side.alice.other.other := by
    rw [Side.other_other, Braids.put_sent_self]
    exact List.mem_append_right _ (List.mem_singleton_self m)
  obtain ⟨st', o', hrecv, hjoint'⟩ := hjoint.recv hP Side.alice.other hmem
  rw [Braids.put_node_other] at hrecv
  have hanswers : ∀ rng', ∃ st'' m' o, st'.send P rng' = .ok (st'', m', o) := by
    intro rng'
    obtain ⟨st'', m', o, hsend', -⟩ := hjoint'.send hP Side.alice.other rng'
    rw [Braids.put_node_self] at hsend'
    exact ⟨st'', m', o, hsend'⟩
  have hreceives : State.Receives P m (.noHeaderReceived initialEpoch
      (.init P.hash initialEpoch authSeed) (Decoder.new (pk1Len + macSize))) st' o' :=
    State.Receives.of_receive hrecv
  have hbob : o' = none ∧ st'.auth = some (.init P.hash initialEpoch authSeed) := by
    cases hreceives <;> exact ⟨rfl, rfl⟩
  obtain ⟨rfl, hauth'⟩ := hbob
  exact ⟨st, m, st', hsend, hrecv, hanswers, hmepoch, hepoch, hauth, hauth'⟩

end Braid

/-! ## The post-quantum ratchet -/

/-- Two post-quantum ratchets that have agreed on epoch 0: what one sends on, the other receives
on. -/
structure SpqrState.InStep (alice bob : SpqrState Key) : Prop where
  forward : ∃ chain, alice.sendChain 0 = some chain ∧ bob.recvChain 0 = some chain
  backward : ∃ chain, alice.recvChain 0 = some chain ∧ bob.sendChain 0 = some chain
  rk : bob.rk = alice.rk
  auth : ∃ auth, alice.braid.state.auth = some auth ∧ bob.braid.state.auth = some auth

section Spqr

variable {P : Prims Key}

/-- The first send on epoch 0 takes the first key of the chain. -/
lemma SpqrState.ratchetSendKey_first {s : SpqrState Key} {rng : Rng} {m : Message}
    {st : State Key} {base : Key} (hbraid : s.braid.send P rng = (.ok ⟨m, 0, none⟩, ⟨st⟩))
    (hchain : s.sendChain 0 = some (.at P.hash base 0)) :
    ∃ s', s.ratchetSendKey P rng = (.ok (m, 1, sckaKey P.hash base 1), s') ∧
      SameCore { s with braid := ⟨st⟩ } s' ∧ s'.sendChain 0 = some (.at P.hash base 1) ∧
      s'.recvChain 0 = s.recvChain 0 := by
  have hchain' : { s with braid := ⟨st⟩ }.sendChain 0 = some (.at P.hash base 0) := hchain
  exact ⟨_, ratchetSendKey_of_chain hbraid hchain, sameCore_modifyChains _,
    (sendChain_setSend hchain' _).trans (if_pos rfl), recvChain_setSend _⟩

/-- The first message of epoch 0 is handed the first key of the chain. -/
lemma SpqrState.ratchetReceiveKey_first {s : SpqrState Key} {m : Message} {st : State Key}
    {base : Key} (hbraid : s.braid.receive P m = (.ok ⟨0, none⟩, ⟨st⟩))
    (hchain : s.recvChain 0 = some (.at P.hash base 0)) (hempty : s.skippedKey 0 1 = none) :
    ∃ s', s.ratchetReceiveKey P m 1 = (.ok (sckaKey P.hash base 1), s') ∧
      SameCore { s with braid := ⟨st⟩ } s' ∧ s'.sendChain 0 = s.sendChain 0 ∧
      s'.recvChain 0 = some (.at P.hash base 1) := by
  have hchain' : { s with braid := ⟨st⟩ }.recvChain 0 = some (.at P.hash base 0) := hchain
  have hempty' : { s with braid := ⟨st⟩ }.skippedKey 0 1 = none := hempty
  have hderives : Derives P.hash base 0 1 { s with braid := ⟨st⟩ } _ _ :=
    derives_deriveKey (fun c hc => ⟨0, Option.some.inj (hc.symm.trans hchain')⟩)
  simp only [ratchetReceiveKey, hbraid, incorporate]
  generalize deriveKey P.hash 0 1 { s with braid := ⟨st⟩ } = out at hderives ⊢
  obtain ⟨r, s'⟩ := out
  rcases hderives with ⟨hk, -⟩ | ⟨-, hwhy⟩ | ⟨-, -, -, -, hcore, -, hsend, hrecv, -⟩
  · exact absurd (hempty'.symm.trans hk) (Option.some_ne_none _).symm
  · rcases hwhy _ hchain' with h | h
    · exact absurd h (Nat.not_succ_le_zero 0)
    · have hnear := (SckaChain.at P.hash base 0).passed_or_reaches (Nat.le_add_left 1 maxSkip)
      exact absurd (hnear.resolve_left (Nat.not_succ_le_zero 0)) h
  · exact ⟨s', rfl, hcore, hsend 0, (hrecv 0).trans (if_pos rfl)⟩

/-- Alice's first key, and Bob's for the same message. -/
lemma exists_first_spqr_key (hP : P.Correct) (sharedSecret : Key) (rng : Rng) :
    ∃ m key alice bob,
      (SpqrState.newSender P sharedSecret).ratchetSendKey P rng = (.ok (m, 1, key), alice) ∧
      (SpqrState.newReceiver P sharedSecret).ratchetReceiveKey P m 1 = (.ok key, bob) ∧
      alice.InStep bob ∧ ∀ rng', ∃ m' n key' bob',
        bob.ratchetSendKey P rng' = (.ok (m', n, key'), bob') := by
  obtain ⟨st, m, st', hsend, hrecv, hanswers, hmepoch, hepoch, hauth, hauth'⟩ :=
    exists_first_braid_message hP (braidAuthSeed P.hash sharedSecret) rng
  have hbraid : (SpqrState.newSender P sharedSecret).braid.send P rng =
      (.ok ⟨m, 0, none⟩, ⟨st⟩) := by
    have := BraidState.send_of_ok hsend
    rwa [hepoch] at this
  have hbraid' : (SpqrState.newReceiver P sharedSecret).braid.receive P m =
      (.ok ⟨0, none⟩, ⟨st'⟩) := by
    have := BraidState.receive_of_ok hrecv
    rwa [hmepoch] at this
  obtain ⟨hforward, hbackward⟩ := SpqrState.init_chains P sharedSecret .a2b
  obtain ⟨hbackward', hforward'⟩ := SpqrState.init_chains P sharedSecret .b2a
  obtain ⟨alice, halice, hcore, hsendChain, hrecvChain⟩ :=
    SpqrState.ratchetSendKey_first hbraid hforward
  obtain ⟨bob, hbob, hcore', hsendChain', hrecvChain'⟩ :=
    SpqrState.ratchetReceiveKey_first hbraid' hforward' rfl
  refine ⟨m, _, alice, bob, halice, hbob, ⟨?_, ?_, ?_, ?_⟩, ?_⟩
  · exact ⟨_, hsendChain, hrecvChain'⟩
  · exact ⟨_, hrecvChain.trans hbackward, hsendChain'.trans hbackward'⟩
  · exact hcore'.rk.trans hcore.rk.symm
  · exact ⟨_, (congrArg (fun b => b.state.auth) hcore.braid).trans hauth,
      (congrArg (fun b => b.state.auth) hcore'.braid).trans hauth'⟩
  · intro rng'
    have hlocal := (spqrLocal_inductive P sharedSecret .bob).recv _ _ (m, 1) rng
      (spqrLocal_init P sharedSecret .bob)
    have hstate : (spqrMachine P).recv (SpqrState.init P sharedSecret (directionOf .bob)) (m, 1)
        rng = (bob, _) := Prod.ext ((spqrMachine_recv_fst ..).trans (congrArg Prod.snd hbob)) rfl
    rw [hstate] at hlocal
    obtain ⟨st'', m', o, hsend'⟩ := hanswers rng'
    rw [show st' = bob.braid.state from congrArg BraidState.state hcore'.braid.symm] at hsend'
    obtain ⟨n, key', bob', hkey, -⟩ := hlocal.chains.ratchetSendKey hlocal.braid hsend'
    exact ⟨m', n, key', bob', hkey⟩

end Spqr

/-! ## The sessions -/

/-- What the initiator and the responder have in common after the first message. -/
structure Synchronised (alice bob : RatchetSession Key) : Prop where
  chain : ∃ chain, alice.sendingChain = some chain ∧ bob.receivingChain = some chain
  spqr : alice.spqr.InStep bob.spqr

section Sessions

variable {C : Suite Key}

/-- The keys of the initiator's first message. -/
lemma sendKeys_first (rng rng' : Rng) {sharedSecret bobDhPublic key : Key}
    {initialMessage : PqxdhInitialMessage Key} {m : Message} {spqr : SpqrState Key}
    (hspqr : (SpqrState.newSender C.toPrims sharedSecret).ratchetSendKey C.toPrims rng' =
      (.ok (m, 1, key), spqr)) :
    let alice := RatchetSession.initializeAliceWithPrekey C rng sharedSecret bobDhPublic
      initialMessage
    let base := (C.hash.kdfRk sharedSecret
      (C.x25519.diffieHellman (rng.fill 32) bobDhPublic)).chainKey
    alice.sendKeys C rng' =
      (.ok (⟨C.x25519.publicKey (rng.fill 32), 0, 0, m, 1⟩, ecKey C.hash base 0, key),
        { alice with spqr, sendingChain := some (.at C.hash base 1) }) := by
  intro alice base
  have hself : alice.spqr.ratchetSendKey C.toPrims rng' = (.ok (m, 1, key), spqr) := hspqr
  have hchain : alice.sendingChain = some (.at C.hash base 0) := rfl
  simp only [RatchetSession.sendKeys, hself, hchain, ChainState.advance_at,
    ChainState.at_messageNumber]
  rfl

/-- A session with a pending prekey sends it along. -/
lemma encryptMessage_of_keys {rng : Rng} {plaintext : Bytes} {sender recipient : IdentityPublicKey}
    {s s' : RatchetSession Key} {header : MessageHeader Key} {ecMk pqMk : Key}
    {initial : PqxdhInitialMessage Key} (hkeys : s.sendKeys C rng = (.ok (header, ecMk, pqMk), s'))
    (hpending : s'.pendingPrekey = some initial) :
    s.encryptMessage C rng plaintext sender recipient =
      match Aead.encrypt C.hash C.xchacha rng (C.hash.kdfHybrid ecMk pqMk) (pad plaintext)
          (buildAd C sender recipient (header.serialize C.postcard)) with
      | .error e => (.error e, s')
      | .ok ciphertext =>
          (.ok (.preKeyMessage
            { registrationId := initial.registrationId
              preKeyId := initial.oneTimePreKeyId
              signedPreKeyId := initial.signedPreKeyId
              kyberPreKeyId := initial.kyberPreKeyId
              ephemeralDhKey := initial.ephemeralPublicKey
              kyberCiphertext := initial.kyberCiphertext
              identityKey := sender
              message := ⟨header.serialize C.postcard, ciphertext⟩ }),
            { s' with pendingPrekey := none }) := by
  simp only [RatchetSession.encryptMessage, RatchetSession.encryptRaw, hkeys]
  rcases Aead.encrypt C.hash C.xchacha rng (C.hash.kdfHybrid ecMk pqMk) (pad plaintext)
    (buildAd C sender recipient (header.serialize C.postcard)) with e | ciphertext
  · rfl
  · simp only [hpending]

/-- With an AEAD that refuses nothing, the first message is a pre-key message. -/
lemma exists_preKeyMessage (hP : C.toPrims.Correct)
    (hseals : ∀ rng key plaintext ad, ∃ ciphertext,
      Aead.encrypt C.hash C.xchacha rng key plaintext ad = .ok ciphertext) (rng rng' : Rng)
    (sharedSecret bobDhPublic : Key) (initialMessage : PqxdhInitialMessage Key) (plaintext : Bytes)
    (sender recipient : IdentityPublicKey) :
    ∃ m session, (RatchetSession.initializeAliceWithPrekey C rng sharedSecret bobDhPublic
      initialMessage).encryptMessage C rng' plaintext sender recipient =
        (.ok (.preKeyMessage m), session) := by
  obtain ⟨m, key, spqr, -, hsend, -⟩ := exists_first_spqr_key hP sharedSecret rng'
  rw [encryptMessage_of_keys (sendKeys_first rng rng' hsend) rfl]
  obtain ⟨ciphertext, hciphertext⟩ := hseals rng' _ _ _
  rw [hciphertext]
  exact ⟨_, _, rfl⟩

variable [DecidableEq Key]

/-- The EC key that the responder finds for it. -/
lemma ecMessageKey_first (hX : C.x25519.Commutes) (rng : Rng) (sharedSecret : Key) (a spk : Bytes)
    (m : Message) :
    let bob := RatchetSession.initializeBob C sharedSecret (spk, C.x25519.publicKey spk)
    let base := (C.hash.kdfRk sharedSecret
      (C.x25519.diffieHellman a (C.x25519.publicKey spk))).chainKey
    ∃ bob', bob.ecMessageKey C rng ⟨C.x25519.publicKey a, 0, 0, m, 1⟩ =
        (.ok (ecKey C.hash base 0), bob') ∧
      bob'.receivingChain = some (.at C.hash base 1) ∧ bob'.spqr = bob.spqr ∧
      bob'.pendingPrekey = none ∧ bob'.sendingChain.isSome := by
  intro bob base
  have hbase : (C.hash.kdfRk bob.rootKey
      (C.x25519.diffieHellman bob.dhSelf (C.x25519.publicKey a))).chainKey = base := by
    show (C.hash.kdfRk sharedSecret
      (C.x25519.diffieHellman spk (C.x25519.publicKey a))).chainKey = _
    rw [hX]
  have hskip : bob.skipReceivingMessages C.hash 0 = (.ok (), bob) :=
    RatchetSession.skipReceivingMessages_of_none rfl
  exact ⟨_, RatchetSession.ecMessageKey_of_new rng SkippedKeys.find_new (Option.some_ne_none _).symm
    hskip (Nat.zero_le _) hbase, rfl, rfl, rfl, rfl⟩

/-- A message opens if both keys are those it was sealed with. -/
lemma decrypt_of_keys (hA : C.xchacha.Correct) (hW : C.postcard.Correct) {rng rng' : Rng}
    {plaintext ciphertext : Bytes} {sender recipient : IdentityPublicKey}
    {s s' : RatchetSession Key} {spqr : SpqrState Key} {header : MessageHeader Key}
    {ecMk pqMk : Key}
    (hsealed : Aead.encrypt C.hash C.xchacha rng (C.hash.kdfHybrid ecMk pqMk) (pad plaintext)
      (buildAd C sender recipient (header.serialize C.postcard)) = .ok ciphertext)
    (hec : s.ecMessageKey C rng' header = (.ok ecMk, s'))
    (hpq : s'.spqr.ratchetReceiveKey C.toPrims header.braidMsg header.pqMessageNumber =
      (.ok pqMk, spqr)) :
    s.decrypt C rng' ⟨header.serialize C.postcard, ciphertext⟩ sender recipient =
      (.ok plaintext, { s' with spqr }) := by
  have hopens := Aead.decrypt_encrypt C.hash hA hsealed
  simp only [RatchetSession.decrypt, MessageHeader.deserialize_serialize hW, hec, hpq, hopens]
  exact congrArg (fun r => (r, _)) (unpad_pad plaintext)

end Sessions

/-- **First contact.**  Take any two identities and any bundle that the responder has signed, with
or without a one-time prekey.  The initiator accepts the bundle, and the responder derives the
same secret from the initial message.  If the initiator then starts a session and encrypts, either
the AEAD has refused the plaintext or the result is a pre-key message; and from it the responder
gets the plaintext and a session synchronised with the initiator's. -/
theorem first_contact [DecidableEq Key] {C : HandshakeSuite Key} (hC : C.Correct)
    (alice bob : IdentityKeyPair) {spk dkSeed : Bytes} {opk : Option Bytes}
    {bundle : PreKeyBundle Key} (hb : bundle.For C bob spk opk dkSeed) (rng kemRng : Rng) :
    ∃ out, processPrekeyBundle C rng kemRng alice bundle = .ok out ∧
      processInitialMessage C bob spk opk dkSeed out.initialMessage = .ok out.sharedSecret ∧
      ∀ (rngInit rngSend rngRecv : Rng) (plaintext : Bytes),
        match (RatchetSession.initializeAliceWithPrekey C.toSuite rngInit out.sharedSecret
            bundle.signedPreKeyPublic out.initialMessage).encryptMessage C.toSuite rngSend
              plaintext (alice.publicKey C.ed25519) (bob.publicKey C.ed25519) with
        | (.error e, _) => e = .encryptionFailed "AEAD encrypt failed"
        | (.ok (.message _), _) => False
        | (.ok (.preKeyMessage m), session) =>
            ∃ session', RatchetSession.decryptPrekeyMessage C rngRecv m bob spk
                bundle.signedPreKeyPublic opk dkSeed = .ok (session', plaintext) ∧
              Synchronised session session' := by
  obtain ⟨out, hout, hsecret, hidentity⟩ :=
    exists_agree hC.x25519 hC.identities hC.mlKem hb alice rng kemRng
  refine ⟨out, hout, hsecret, ?_⟩
  intro rngInit rngSend rngRecv plaintext
  obtain ⟨m, key, spqr, spqr', hsend, hrecv, hstep, -⟩ :=
    exists_first_spqr_key hC.prims out.sharedSecret rngSend
  rw [hb.signedPreKey, encryptMessage_of_keys (sendKeys_first rngInit rngSend hsend) rfl]
  rcases haead : Aead.encrypt _ _ _ _ _ _ with e | ciphertext
  · exact Aead.error_of_encrypt _ haead
  · obtain ⟨session, hec, hchain, hspqr, -⟩ := ecMessageKey_first hC.x25519 rngRecv out.sharedSecret
      (rngInit.fill 32) spk m
    have hdecrypt := decrypt_of_keys hC.xchacha hC.postcard haead hec (by rw [hspqr]; exact hrecv)
    -- the responder puts the initial message together again
    have hinitial : (⟨out.initialMessage.registrationId, out.initialMessage.ephemeralPublicKey,
        out.initialMessage.signedPreKeyId, out.initialMessage.oneTimePreKeyId,
        out.initialMessage.kyberPreKeyId, out.initialMessage.kyberCiphertext,
        alice.publicKey C.ed25519⟩ : PqxdhInitialMessage Key) = out.initialMessage := by
      rw [← hidentity]
    refine ⟨{ session with spqr := spqr' }, ?_, ⟨_, rfl, hchain⟩, hstep⟩
    simp only [RatchetSession.decryptPrekeyMessage, hinitial, hsecret, bind, Except.bind, hdecrypt]

/-! ## An instance -/

namespace Ideal

/-- A KEM whose ciphertext starts with the secret. -/
def mlKem : MlKem1024 where
  encapsulationKey seed := fit encapsulationKeySize seed
  isKey _ := true
  encapsulate _ rand := (fit kyberCiphertextSize rand, (fit kyberCiphertextSize rand).take 32)
  decapsulate _ ct := ct.take 32

lemma mlKem_correct : mlKem.Correct where
  encapsulationKey_length _ := length_fit _ _
  isKey_encapsulationKey _ := rfl
  encapsulate_length _ _ := length_fit _ _
  decapsulate_encapsulate _ _ := rfl

end Ideal

/-- The ideal suite with identities. -/
noncomputable def idealHandshake : HandshakeSuite ℕ where
  toPrims := idealPrims
  x25519 := { Ideal.x25519 with
    ofIdentity := fun b =>
      Ideal.x25519.publicKey ((⟨b⟩ : IdentityKeyPair).x25519PrivateKey id) }
  xchacha := Ideal.xchacha
  postcard := Ideal.postcard
  ed25519 := Ideal.ed25519
  sha512 := id
  mlKem := Ideal.mlKem

lemma idealHandshake_correct : idealHandshake.Correct where
  prims := idealPrims_correct
  x25519 := Ideal.x25519_commutes
  identities _ := rfl
  xchacha := Ideal.xchacha_correct
  postcard := Ideal.postcard_correct
  mlKem := Ideal.mlKem_correct

lemma idealHandshake_seals (rng : Rng) (key : ℕ) (plaintext ad : Bytes) :
    ∃ ciphertext, Aead.encrypt idealHandshake.hash idealHandshake.xchacha rng key plaintext ad =
      .ok ciphertext := ⟨_, rfl⟩

/-- The responder's identity. -/
def idealBobIdentity : IdentityKeyPair := ⟨(constRng 3).fill 32⟩

/-- The secret of the responder's one-time prekey. -/
def idealOneTimeSecret : Bytes := (constRng 7).fill 32

/-- A bundle with a one-time prekey. -/
noncomputable def idealBundle : PreKeyBundle ℕ where
  registrationId := 1
  deviceId := 1
  identityKey := idealBobIdentity.publicKey idealHandshake.ed25519
  signedPreKeyId := 1
  signedPreKeyPublic := idealHandshake.x25519.publicKey idealSecret
  signedPreKeySignature := idealBobIdentity.sign idealHandshake.ed25519
    (idealHandshake.hash.asBytes (idealHandshake.x25519.publicKey idealSecret))
  oneTimePreKey := some ⟨7, idealHandshake.x25519.publicKey idealOneTimeSecret⟩
  kyberPreKey :=
    { id := 1
      publicKey := idealHandshake.mlKem.encapsulationKey []
      signature := idealBobIdentity.sign idealHandshake.ed25519
        (idealHandshake.mlKem.encapsulationKey [])
      isLastResort := true }

lemma idealBundle_for : idealBundle.For idealHandshake idealBobIdentity idealSecret
    (some idealOneTimeSecret) [] where
  identityKey := rfl
  signedPreKey := rfl
  signedPreKeySigned := IdentityPublicKey.verify_sign Ideal.ed25519_correct _ _
  oneTimePreKey opk h := by
    obtain rfl := Option.some.inj h
    exact ⟨_, rfl, rfl⟩
  kyberPreKey := rfl
  kyberPreKeySigned := IdentityPublicKey.verify_sign Ideal.ed25519_correct _ _

/-- A first contact with all four Diffie-Hellman terms. -/
theorem first_contact_ideal :
    ∃ out m session session',
      processPrekeyBundle idealHandshake (constRng 1) (constRng 2) ⟨[]⟩ idealBundle = .ok out ∧
      (RatchetSession.initializeAliceWithPrekey idealHandshake.toSuite (constRng 4)
        out.sharedSecret idealBundle.signedPreKeyPublic out.initialMessage).encryptMessage
          idealHandshake.toSuite (constRng 5) [42] [] (idealBobIdentity.publicKey Ideal.ed25519) =
            (.ok (.preKeyMessage m), session) ∧
      RatchetSession.decryptPrekeyMessage idealHandshake (constRng 6) m idealBobIdentity idealSecret
        idealBundle.signedPreKeyPublic (some idealOneTimeSecret) [] = .ok (session', [42]) ∧
      Synchronised session session' := by
  obtain ⟨out, hout, -, hall⟩ := first_contact idealHandshake_correct ⟨[]⟩ idealBobIdentity
    idealBundle_for (constRng 1) (constRng 2)
  have h := hall (constRng 4) (constRng 5) (constRng 6) [42]
  obtain ⟨m, session, henc⟩ := exists_preKeyMessage idealPrims_correct idealHandshake_seals
    (constRng 4) (constRng 5) out.sharedSecret idealBundle.signedPreKeyPublic
      out.initialMessage [42]
    ((⟨[]⟩ : IdentityKeyPair).publicKey idealHandshake.ed25519)
    (idealBobIdentity.publicKey idealHandshake.ed25519)
  rw [henc] at h
  obtain ⟨session', hdecrypt, hsync⟩ := h
  exact ⟨out, m, session, session', hout, henc, hdecrypt, hsync⟩

end Hushwire
