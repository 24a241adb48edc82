import Hushwire.Handshake.FirstContact
import Hushwire.Ratchet.SessionNetwork

/-!
# Sessions that have yet to introduce themselves

The initiator's session starts with the data of its handshake in `pending_prekey`.
`encrypt_message` puts it around the first message; `encrypt` refuses to work until then.  A caller
may also keep the data itself, start the session without it and use `encrypt_prekey_message`.

Results about sessions are stated for `encrypt` and `decrypt`.  `prekey_session_refines` carries
them over: whatever is called on a session with pending data, it makes the messages and keeps the
state of the session without, and puts the data around the first message that it makes and no other.
The argument is that nothing on the way looks at `pending_prekey` (`decrypt_withPending`,
`encryptRaw_withPending`).
-/

namespace Hushwire

open Duplex

variable {Key : Type}

/-! ## The code -/

/-- A message with the data of the handshake around it. -/
def PqxdhInitialMessage.around (initial : PqxdhInitialMessage Key)
    (senderIdentity : IdentityPublicKey) (message : RatchetMessage) : PreKeyRatchetMessage Key where
  registrationId := initial.registrationId
  preKeyId := initial.oneTimePreKeyId
  signedPreKeyId := initial.signedPreKeyId
  kyberPreKeyId := initial.kyberPreKeyId
  ephemeralDhKey := initial.ephemeralPublicKey
  kyberCiphertext := initial.kyberCiphertext
  identityKey := senderIdentity
  message := message

/-- `RatchetSession::encrypt_prekey_message`. -/
def RatchetSession.encryptPrekeyMessage (C : Suite Key) (rng : Rng) (plaintext : Bytes)
    (senderIdentity recipientIdentity : IdentityPublicKey) (pqxdhInitial : PqxdhInitialMessage Key)
    (s : RatchetSession Key) : Result (PreKeyRatchetMessage Key) × RatchetSession Key :=
  match s.encrypt C rng plaintext senderIdentity recipientIdentity with
  | (.error e, s) => (.error e, s)
  | (.ok message, s) => (.ok (pqxdhInitial.around senderIdentity message), s)

/-! ## Nothing looks at the pending data -/

namespace RatchetSession

/-- The session with other pending data. -/
def withPending (s : RatchetSession Key) (pending : Option (PqxdhInitialMessage Key)) :
    RatchetSession Key := { s with pendingPrekey := pending }

variable {C : Suite Key} {s : RatchetSession Key} {pending : Option (PqxdhInitialMessage Key)}

@[simp] lemma withPending_withPending (pending' : Option (PqxdhInitialMessage Key)) :
    (s.withPending pending).withPending pending' = s.withPending pending' := rfl

lemma withPending_self (h : s.pendingPrekey = pending) : s.withPending pending = s := by
  subst h
  rfl

lemma sendKeys_withPending (rng : Rng) : (s.withPending pending).sendKeys C rng =
    ((s.sendKeys C rng).1, (s.sendKeys C rng).2.withPending pending) := by
  obtain ⟨dhSelf, dhSelfPublic, dhRemote, rootKey, sending, receiving, pn, skipped, -, spqr⟩ := s
  simp only [sendKeys, withPending]
  rcases spqr.ratchetSendKey C.toPrims rng with ⟨e | ⟨braidMsg, pqMessageNumber, pqMk⟩, spqr'⟩
  · rfl
  · cases sending <;> rfl

variable (s pending) in
lemma encryptRaw_withPending (rng : Rng) (plaintext : Bytes)
    (senderIdentity recipientIdentity : IdentityPublicKey) :
    (s.withPending pending).encryptRaw C rng plaintext senderIdentity recipientIdentity =
      ((s.encryptRaw C rng plaintext senderIdentity recipientIdentity).1,
        (s.encryptRaw C rng plaintext senderIdentity recipientIdentity).2.withPending pending) := by
  simp only [encryptRaw, sendKeys_withPending]
  rcases s.sendKeys C rng with ⟨e | ⟨header, ecMk, pqMk⟩, s'⟩
  · rfl
  · simp only
    split <;> rfl

lemma encryptRaw_pendingPrekey (rng : Rng) (plaintext : Bytes)
    (senderIdentity recipientIdentity : IdentityPublicKey) :
    (s.encryptRaw C rng plaintext senderIdentity recipientIdentity).2.pendingPrekey =
      s.pendingPrekey := by
  have h := encryptRaw_withPending (C := C) s s.pendingPrekey rng plaintext senderIdentity
    recipientIdentity
  rw [withPending_self rfl] at h
  exact congrArg (fun out => out.2.pendingPrekey) h

lemma advanceReceiving_withPending : (s.withPending pending).advanceReceiving C.hash =
    ((s.advanceReceiving C.hash).1, (s.advanceReceiving C.hash).2.withPending pending) := by
  obtain ⟨dhSelf, dhSelfPublic, dhRemote, rootKey, sending, receiving, pn, skipped, -, spqr⟩ := s
  cases receiving <;> rfl

variable [DecidableEq Key]

lemma skipReceivingMessages_withPending (upTo : ℕ) :
    (s.withPending pending).skipReceivingMessages C.hash upTo =
      ((s.skipReceivingMessages C.hash upTo).1,
        (s.skipReceivingMessages C.hash upTo).2.withPending pending) := by
  obtain ⟨dhSelf, dhSelfPublic, dhRemote, rootKey, sending, receiving, pn, skipped, -, spqr⟩ := s
  simp only [skipReceivingMessages, withPending]
  cases receiving with
  | none => rfl
  | some chain =>
      simp only
      split
      · rfl
      · split <;> rfl

lemma ratchetIfNeeded_withPending (rng : Rng) (header : MessageHeader Key) :
    (s.withPending pending).ratchetIfNeeded C rng header =
      ((s.ratchetIfNeeded C rng header).1,
        (s.ratchetIfNeeded C rng header).2.withPending pending) := by
  simp only [ratchetIfNeeded, skipReceivingMessages_withPending]
  have hremote : (s.withPending pending).dhRemote = s.dhRemote := rfl
  rw [hremote]
  split
  · rcases s.skipReceivingMessages C.hash header.previousChainLength with ⟨e | _, s'⟩ <;> rfl
  · rfl

lemma ecMessageKey_withPending (rng : Rng) (header : MessageHeader Key) :
    (s.withPending pending).ecMessageKey C rng header =
      ((s.ecMessageKey C rng header).1, (s.ecMessageKey C rng header).2.withPending pending) := by
  have hskipped : (s.withPending pending).skipped = s.skipped := rfl
  simp only [ecMessageKey, hskipped]
  rcases s.skipped.tryRemoveByDh header.dhPublicKey header.messageNumber with ⟨_ | ecMk, skipped⟩
  · have hset : { s.withPending pending with skipped := skipped } =
        ({ s with skipped := skipped } : RatchetSession Key).withPending pending := rfl
    simp only [hset, ratchetIfNeeded_withPending]
    rcases ({ s with skipped := skipped } : RatchetSession Key).ratchetIfNeeded C rng header with
      ⟨e | _, s'⟩
    · rfl
    · simp only [skipReceivingMessages_withPending]
      rcases s'.skipReceivingMessages C.hash header.messageNumber with ⟨e | _, s''⟩
      · rfl
      · exact advanceReceiving_withPending
  · rfl

variable (s pending) in
lemma decrypt_withPending (rng : Rng) (message : RatchetMessage)
    (senderIdentity recipientIdentity : IdentityPublicKey) :
    (s.withPending pending).decrypt C rng message senderIdentity recipientIdentity =
      ((s.decrypt C rng message senderIdentity recipientIdentity).1,
        (s.decrypt C rng message senderIdentity recipientIdentity).2.withPending pending) := by
  simp only [decrypt, ecMessageKey_withPending]
  rcases MessageHeader.deserialize C.postcard message.header with e | header
  · rfl
  · simp only
    rcases s.ecMessageKey C rng header with ⟨e | ecMk, s'⟩
    · rfl
    · have hspqr : (s'.withPending pending).spqr = s'.spqr := rfl
      simp only [hspqr]
      rcases s'.spqr.ratchetReceiveKey C.toPrims header.braidMsg header.pqMessageNumber with
        ⟨e | pqMk, spqr⟩ <;> rfl

end RatchetSession

/-! ## Runs -/

/-- What a call returns. -/
inductive Reply (α : Type)
  | sent (result : Result α)
  | opened (result : Result Bytes)

section Runs

variable [DecidableEq Key] (C : Suite Key)

/-- A call of `encrypt` or `decrypt`. -/
def plainStep (s : RatchetSession Key) : Call SessionInput RatchetMessage →
    Reply RatchetMessage × RatchetSession Key
  | .send input =>
      let out := s.encrypt C input.rng input.plaintext input.identity input.peerIdentity
      (.sent out.1, out.2)
  | .recv message input =>
      let out := s.decrypt C input.rng message input.peerIdentity input.identity
      (.opened out.1, out.2)

/-- A call of `encrypt_message` or `decrypt`. -/
def messageStep (s : RatchetSession Key) : Call SessionInput RatchetMessage →
    Reply (EncryptedOutput Key) × RatchetSession Key
  | .send input =>
      let out := s.encryptMessage C input.rng input.plaintext input.identity input.peerIdentity
      (.sent out.1, out.2)
  | .recv message input =>
      let out := s.decrypt C input.rng message input.peerIdentity input.identity
      (.opened out.1, out.2)

end Runs

/-- The replies to some calls, and the session after them. -/
def replies {α : Type} (step : RatchetSession Key → Call SessionInput RatchetMessage →
      Reply α × RatchetSession Key) (s : RatchetSession Key) :
    List (Call SessionInput RatchetMessage) → List (Reply α) × RatchetSession Key
  | [] => ([], s)
  | call :: calls =>
      let out := step s call
      let rest := replies step out.2 calls
      (out.1 :: rest.1, rest.2)

/-- Around a message goes what is pending. -/
def EncryptedOutput.wrap (pending : Option (PqxdhInitialMessage Key))
    (senderIdentity : IdentityPublicKey) (m : RatchetMessage) : EncryptedOutput Key :=
  match pending with
  | none => .message m
  | some initial => .preKeyMessage (initial.around senderIdentity m)

/-- The pending data goes around the first message that was made; around the others goes nothing. -/
def wrapFirst : Option (PqxdhInitialMessage Key) → List (Call SessionInput RatchetMessage) →
    List (Reply RatchetMessage) → List (Reply (EncryptedOutput Key))
  | pending, .send input :: calls, .sent (.ok m) :: rest =>
      .sent (.ok (.wrap pending input.identity m)) :: wrapFirst none calls rest
  | pending, _ :: calls, .sent (.error e) :: rest =>
    .sent (.error e) :: wrapFirst pending calls rest
  | pending, _ :: calls, .opened result :: rest => .opened result :: wrapFirst pending calls rest
  | _, _, _ => []

/-- Whether a message was made. -/
def Reply.made {α : Type} : Reply α → Bool
  | .sent (.ok _) => true
  | _ => false

section Refinement

variable [DecidableEq Key] {C : Suite Key} {s : RatchetSession Key}
  {pending : Option (PqxdhInitialMessage Key)}

variable (pending) in
/-- One `encrypt_message` beside one `encrypt`. -/
lemma messageStep_send (hs : s.pendingPrekey = none) (input : SessionInput) :
    (∃ e, plainStep C s (.send input) = (.sent (.error e), (plainStep C s (.send input)).2) ∧
      messageStep C (s.withPending pending) (.send input) =
        (.sent (.error e), (plainStep C s (.send input)).2.withPending pending)) ∨
    ∃ m, plainStep C s (.send input) = (.sent (.ok m), (plainStep C s (.send input)).2) ∧
      messageStep C (s.withPending pending) (.send input) =
        (.sent (.ok (.wrap pending input.identity m)),
          (plainStep C s (.send input)).2.withPending none) := by
  have hencrypt : s.encrypt C input.rng input.plaintext input.identity input.peerIdentity =
      s.encryptRaw C input.rng input.plaintext input.identity input.peerIdentity := by
    rw [RatchetSession.encrypt, hs]
    rfl
  simp only [plainStep, messageStep, hencrypt, RatchetSession.encryptMessage,
    RatchetSession.encryptRaw_withPending]
  rcases s.encryptRaw C input.rng input.plaintext input.identity input.peerIdentity with ⟨e | m, s'⟩
  · exact .inl ⟨e, rfl, rfl⟩
  · refine .inr ⟨m, rfl, ?_⟩
    cases pending <;> rfl

/-- A send leaves the session without pending data as it leaves it otherwise. -/
lemma plainStep_pendingPrekey (hs : s.pendingPrekey = none)
    (call : Call SessionInput RatchetMessage) : (plainStep C s call).2.pendingPrekey = none := by
  cases call with
  | send input =>
      rw [plainStep, RatchetSession.encrypt, hs]
      exact (RatchetSession.encryptRaw_pendingPrekey _ _ _ _).trans hs
  | recv message input =>
      have h := RatchetSession.decrypt_withPending (C := C) s none input.rng message
        input.peerIdentity input.identity
      rw [RatchetSession.withPending_self hs] at h
      exact congrArg (fun out => out.2.pendingPrekey) h

/-- **Any calls on a session with pending data.** -/
lemma replies_messageStep (calls : List (Call SessionInput RatchetMessage)) :
    ∀ (s : RatchetSession Key) (pending : Option (PqxdhInitialMessage Key)),
      s.pendingPrekey = none →
      replies (messageStep C) (s.withPending pending) calls =
        (wrapFirst pending calls (replies (plainStep C) s calls).1,
          (replies (plainStep C) s calls).2.withPending
            (if (replies (plainStep C) s calls).1.any Reply.made then none else pending)) := by
  induction calls with
  | nil => intro s pending _; rfl
  | cons call calls ih =>
      intro s pending hs
      have hs' := plainStep_pendingPrekey (C := C) hs call
      rw [replies, replies]
      cases call with
      | send input =>
          rcases messageStep_send (C := C) pending hs input with
            ⟨e, hplain, hmessage⟩ | ⟨m, hplain, hmessage⟩
          · simp only [hmessage, ih _ pending hs', congrArg Prod.fst hplain]
            rfl
          · simp only [hmessage, ih _ none hs', congrArg Prod.fst hplain]
            refine Prod.ext rfl ?_
            simp only [ite_self, List.any_cons, Reply.made, Bool.true_or, if_true]
      | recv message input =>
          have hmessage : messageStep C (s.withPending pending) (.recv message input) =
              (.opened (s.decrypt C input.rng message input.peerIdentity input.identity).1,
                (plainStep C s (.recv message input)).2.withPending pending) := by
            simp only [messageStep, plainStep, RatchetSession.decrypt_withPending]
          simp only [hmessage, ih _ pending hs']
          rfl

lemma replies_pendingPrekey (calls : List (Call SessionInput RatchetMessage)) :
    ∀ s : RatchetSession Key, s.pendingPrekey = none →
      (replies (plainStep C) s calls).2.pendingPrekey = none := by
  induction calls with
  | nil => intro s hs; exact hs
  | cons call calls ih =>
      intro s hs
      rw [replies]
      exact ih _ (plainStep_pendingPrekey hs call)

/-- The states of such a run are those of the session as a party of the network. -/
lemma replies_plainStep (calls : List (Call SessionInput RatchetMessage)) :
    ∀ (s : RatchetSession Key) (log : List (SessionEvent Key)),
      (replies (plainStep C) s calls).2 = ((sessionMachine C).exec (s, log) calls).1 := by
  induction calls with
  | nil => intro s log; rfl
  | cons call calls ih =>
      intro s log
      rw [replies, Machine.exec, List.foldl_cons]
      have hcall : (plainStep C s call).2 = ((sessionMachine C).call s call).1 := by
        cases call <;> rfl
      simp only [hcall]
      exact ih _ _

omit [DecidableEq Key] in
/-- The two ways to make a first message. -/
lemma encryptPrekeyMessage_eq (hs : s.pendingPrekey = none) (initial : PqxdhInitialMessage Key)
    (rng : Rng) (plaintext : Bytes) (senderIdentity recipientIdentity : IdentityPublicKey) :
    (s.encryptPrekeyMessage C rng plaintext senderIdentity recipientIdentity initial).1.map
        EncryptedOutput.preKeyMessage =
      ((s.withPending (some initial)).encryptMessage C rng plaintext senderIdentity
        recipientIdentity).1 := by
  have hencrypt : s.encrypt C rng plaintext senderIdentity recipientIdentity =
      s.encryptRaw C rng plaintext senderIdentity recipientIdentity := by
    rw [RatchetSession.encrypt, hs]
    rfl
  simp only [RatchetSession.encryptPrekeyMessage, RatchetSession.encryptMessage, hencrypt,
    RatchetSession.encryptRaw_withPending]
  rcases s.encryptRaw C rng plaintext senderIdentity recipientIdentity with ⟨e | m, s'⟩ <;> rfl

end Refinement

/-- **A session with pending data refines the one without.**  An initiator starts a session with the
data of its handshake, and calls `encrypt_message` and `decrypt` in any order, on any messages.  It
gets the replies, and the state but for the pending data, of a session that was started without and
on which `encrypt` is called, save that the first message it makes has the data around it.  Nothing
is pending after that.  At any point, the message with the data around it is the one that
`encrypt_prekey_message` makes on the other session. -/
theorem prekey_session_refines [DecidableEq Key] (C : Suite Key) (rng : Rng)
    (sharedSecret bobDhPublic : Key) (initial : PqxdhInitialMessage Key)
    (calls : List (Call SessionInput RatchetMessage)) :
    let plain := replies (plainStep C) (.initializeAlice C rng sharedSecret bobDhPublic) calls
    replies (messageStep C) (.initializeAliceWithPrekey C rng sharedSecret bobDhPublic initial)
      calls =
        (wrapFirst (some initial) calls plain.1,
          plain.2.withPending (if plain.1.any Reply.made then none else some initial)) ∧
      ∀ input : SessionInput, (plain.2.encryptPrekeyMessage C input.rng input.plaintext
          input.identity input.peerIdentity initial).1.map EncryptedOutput.preKeyMessage =
        ((plain.2.withPending (some initial)).encryptMessage C input.rng input.plaintext
          input.identity input.peerIdentity).1 := by
  intro plain
  refine ⟨replies_messageStep calls _ (some initial) rfl, fun input => ?_⟩
  exact encryptPrekeyMessage_eq (replies_pendingPrekey calls _ rfl) _ _ _ _ _

end Hushwire
