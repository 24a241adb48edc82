import Hushwire.Ratchet.SessionSteps
import Hushwire.Ratchet.SpqrPairing

/-!
# Sessions on the network

`sessionMachine` is `RatchetSession` as a party of the network: `encrypt` is its send and
`decrypt` its receive.  What a caller passes in is the input of a call; what the two halves of the
ratchet do is reported as observations, next to those of the SPQR state inside.

A call on a session makes at most one call on its SPQR state.  So what holds of every SPQR state
after any calls holds of the one inside a session after any calls (`sessionMachine_inductive`), and
no pair of a receiving epoch and a number is accepted twice.
-/

namespace Hushwire

open Duplex

variable {Key : Type}

/-- What the caller of a session brings: randomness, both identities and the plaintext of a
send. -/
structure SessionInput where
  rng : Rng
  identity : IdentityPublicKey
  peerIdentity : IdentityPublicKey
  plaintext : Bytes

/-- What a call on a session shows to the outside. -/
inductive SessionEvent (Key : Type)
  | spqr (e : SpqrEvent Key)
  /-- A message left the session: its header, both its keys and its plaintext. -/
  | sealed (header : MessageHeader Key) (ecMk pqMk : Key) (plaintext : Bytes)
      (message : RatchetMessage)
  /-- A Diffie-Hellman step: the new remote key, the first key of the new receiving chain and the
  public half of the new key pair. -/
  | ratcheted (dhRemote chainKey dhSelfPublic : Key)
  /-- A key of the EC ratchet was handed out for the message with this ratchet key and number. -/
  | handedOut (dh : Key) (n : ℕ) (ecMk : Key)
  /-- `decrypt` returned `Ok`. -/
  | opened (header : MessageHeader Key) (plaintext : Bytes)

namespace SessionEvent

/-- The SPQR state's part. -/
def spqr? : SessionEvent Key → Option (SpqrEvent Key)
  | spqr e => some e
  | _ => none

/-- The receiving epoch and the number of a message that was decrypted. -/
def openedPair? : SessionEvent Key → Option (ℕ × ℕ)
  | opened header _ => some (header.braidMsg.epoch - 1, header.pqMessageNumber)
  | _ => none

/-- An observation of the EC ratchet's receiving half. -/
def IsEc : SessionEvent Key → Prop
  | ratcheted _ _ _ => True
  | handedOut _ _ _ => True
  | _ => False

end SessionEvent

/-- The observations of the SPQR state inside. -/
def spqrLog (log : List (SessionEvent Key)) : List (SpqrEvent Key) :=
  log.filterMap SessionEvent.spqr?

/-- The pairs of the messages decrypted. -/
def openedPairs (log : List (SessionEvent Key)) : List (ℕ × ℕ) :=
  log.filterMap SessionEvent.openedPair?

section Machine

variable (C : Suite Key)

/-- What a send reports. -/
def sendEvents (s : RatchetSession Key) (input : SessionInput) (result : Result RatchetMessage) :
    List (SessionEvent Key) :=
  if s.pendingPrekey.isSome then []
  else
    ((spqrMachine C.toPrims).send s.spqr input.rng).2.2.map .spqr ++
      match (s.sendKeys C input.rng).1, result with
      | .ok (header, ecMk, pqMk), .ok message => [.sealed header ecMk pqMk input.plaintext message]
      | _, _ => []

/-- The report of a Diffie-Hellman step, which is made exactly when the remote key changes. -/
def ratchetEvents [DecidableEq Key] (header : MessageHeader Key) (s : RatchetSession Key)
    (dhRemote : Option Key) (dhSelfPublic : Key) : List (SessionEvent Key) :=
  if dhRemote = s.dhRemote then []
  else [.ratcheted header.dhPublicKey
    (C.hash.kdfRk s.rootKey (C.x25519.diffieHellman s.dhSelf header.dhPublicKey)).chainKey
    dhSelfPublic]

/-- What a receive reports. -/
def recvEvents [DecidableEq Key] (s : RatchetSession Key) (message : RatchetMessage) (rng : Rng)
    (result : Result Bytes) : List (SessionEvent Key) :=
  match MessageHeader.deserialize C.postcard message.header with
  | .error _ => []
  | .ok header =>
      let ec := s.ecMessageKey C rng header
      ratchetEvents C header s ec.2.dhRemote ec.2.dhSelfPublic ++
        match ec.1 with
        | .error _ => []
        | .ok ecMk =>
            .handedOut header.dhPublicKey header.messageNumber ecMk ::
              (((spqrMachine C.toPrims).recv s.spqr (header.braidMsg, header.pqMessageNumber)
                  rng).2.map .spqr ++
                match result with
                | .ok plaintext => [.opened header plaintext]
                | .error _ => [])

/-- A session as a party of the network. -/
def sessionMachine [DecidableEq Key] :
    Machine (RatchetSession Key) SessionInput RatchetMessage (SessionEvent Key) where
  send s input :=
    let out := s.encrypt C input.rng input.plaintext input.identity input.peerIdentity
    (out.2, out.1.toOption, sendEvents C s input out.1)
  recv s message input :=
    let out := s.decrypt C input.rng message input.peerIdentity input.identity
    (out.2, recvEvents C s message input.rng out.1)

end Machine

/-- A network of two sessions. -/
abbrev SessionNet (Key : Type) := Net (RatchetSession Key) RatchetMessage (SessionEvent Key)

/-- Both parties right after the handshake: `initialize_alice` and `initialize_bob` with one shared
secret and Bob's key pair. -/
def sessionNet (C : Suite Key) (rng : Rng) (sharedSecret : Key) (bobSecret : Bytes) :
    SessionNet Key :=
  Net.init fun
    | .alice => .initializeAlice C rng sharedSecret (C.x25519.publicKey bobSecret)
    | .bob => .initializeBob C sharedSecret (bobSecret, C.x25519.publicKey bobSecret)

/-! ## The calls on the SPQR state -/

section Calls

variable {C : Suite Key} {s : RatchetSession Key}

@[simp] lemma spqrLog_append (log log' : List (SessionEvent Key)) :
    spqrLog (log ++ log') = spqrLog log ++ spqrLog log' := List.filterMap_append

@[simp] lemma openedPairs_append (log log' : List (SessionEvent Key)) :
    openedPairs (log ++ log') = openedPairs log ++ openedPairs log' := List.filterMap_append

@[simp] lemma spqrLog_map (evs : List (SpqrEvent Key)) : spqrLog (evs.map .spqr) = evs := by
  rw [spqrLog, List.filterMap_map]
  exact List.filterMap_some

@[simp] lemma openedPairs_map (evs : List (SpqrEvent Key)) : openedPairs (evs.map .spqr) = [] := by
  simp [openedPairs, SessionEvent.openedPair?]

/-- While the prekey message is pending, `encrypt` refuses. -/
lemma sessionMachine_send_pending [DecidableEq Key] (input : SessionInput)
    (hpending : s.pendingPrekey.isSome) : (sessionMachine C).send s input = (s, none, []) := by
  simp only [sessionMachine, sendEvents, RatchetSession.encrypt, if_pos hpending]
  rfl

/-- **A send is a send of the SPQR state inside**, and seals a message if nothing fails. -/
lemma sessionMachine_send [DecidableEq Key] (input : SessionInput)
    (hpending : s.pendingPrekey = none) : ∃ om own, (sessionMachine C).send s input =
        ((s.sendKeys C input.rng).2, om,
          ((spqrMachine C.toPrims).send s.spqr input.rng).2.2.map .spqr ++ own) ∧
      (om = none ∧ own = [] ∨ ∃ header ecMk pqMk ciphertext,
        (s.sendKeys C input.rng).1 = .ok (header, ecMk, pqMk) ∧
        Aead.encrypt C.hash C.xchacha input.rng (C.hash.kdfHybrid ecMk pqMk) (pad input.plaintext)
          (buildAd C input.identity input.peerIdentity (header.serialize C.postcard)) =
            .ok ciphertext ∧
        om = some ⟨header.serialize C.postcard, ciphertext⟩ ∧
        own = [.sealed header ecMk pqMk input.plaintext
          ⟨header.serialize C.postcard, ciphertext⟩]) := by
  have hseals := RatchetSession.seals_encrypt C input.rng input.plaintext input.identity
    input.peerIdentity s
  simp only [sessionMachine, sendEvents, if_neg (Option.not_isSome_iff_eq_none.mpr hpending)]
  generalize s.encrypt C input.rng input.plaintext input.identity input.peerIdentity = out
    at hseals ⊢
  obtain ⟨r, s'⟩ := out
  cases hseals with
  | pending h => exact absurd h (Option.not_isSome_iff_eq_none.mpr hpending)
  | noKeys _ hkeys =>
      rw [hkeys]
      exact ⟨_, _, rfl, .inl ⟨rfl, rfl⟩⟩
  | failed _ hkeys _ =>
      rw [hkeys]
      exact ⟨_, _, rfl, .inl ⟨rfl, rfl⟩⟩
  | sealed _ hkeys haead =>
      rw [hkeys]
      exact ⟨_, _, rfl, .inr ⟨_, _, _, _, rfl, haead, rfl, rfl⟩⟩

/-- A send of a session that has a sending chain and whose SPQR state sends, with an AEAD that does
not fail. -/
lemma sessionMachine_send_of_keys [DecidableEq Key]
    (hseals : ∀ rng key msg ad, ∃ ct, Aead.encrypt C.hash C.xchacha rng key msg ad = .ok ct)
    (input : SessionInput) (hpending : s.pendingPrekey = none) {chain : ChainState Key}
    (hchain : s.sendingChain = some chain) {m : Message} {pqN : ℕ} {pqMk : Key}
    {spqr : SpqrState Key}
    (hpq : s.spqr.ratchetSendKey C.toPrims input.rng = (.ok (m, pqN, pqMk), spqr)) :
    let header : MessageHeader Key :=
      ⟨s.dhSelfPublic, s.previousSendingChainLength, chain.messageNumber, m, pqN⟩
    ∃ ciphertext, Aead.encrypt C.hash C.xchacha input.rng
        (C.hash.kdfHybrid (chain.advance C.hash).1 pqMk) (pad input.plaintext)
        (buildAd C input.identity input.peerIdentity (header.serialize C.postcard)) =
          .ok ciphertext ∧
      (sessionMachine C).send s input =
        ({ s with spqr, sendingChain := some (chain.advance C.hash).2 },
          some ⟨header.serialize C.postcard, ciphertext⟩,
          ((spqrMachine C.toPrims).send s.spqr input.rng).2.2.map .spqr ++
            [.sealed header (chain.advance C.hash).1 pqMk input.plaintext
              ⟨header.serialize C.postcard, ciphertext⟩]) := by
  intro header
  have hkeys : s.sendKeys C input.rng = (.ok (header, (chain.advance C.hash).1, pqMk),
      { s with spqr, sendingChain := some (chain.advance C.hash).2 }) := by
    obtain ⟨r, spqr', hsend, hcases⟩ := RatchetSession.sendKeys_eq C input.rng s
    obtain ⟨rfl, rfl⟩ := Prod.mk.inj (hpq.symm.trans hsend)
    rcases hcases with ⟨-, ⟨e, he⟩ | hnone⟩ | ⟨m', pqN', pqMk', chain', hr, hchain', hkeys⟩
    · cases he
    · exact absurd (hnone.symm.trans hchain) (by simp)
    · obtain ⟨rfl, rfl, rfl⟩ : m = m' ∧ pqN = pqN' ∧ pqMk = pqMk' := by simpa using hr
      obtain rfl := Option.some.inj (hchain.symm.trans hchain')
      exact hkeys
  obtain ⟨ciphertext, haead⟩ := hseals input.rng (C.hash.kdfHybrid (chain.advance C.hash).1 pqMk)
    (pad input.plaintext)
    (buildAd C input.identity input.peerIdentity (header.serialize C.postcard))
  have hencrypt := RatchetSession.encrypt_of_keys hpending hkeys haead
  have hready : ¬ s.pendingPrekey.isSome := by
    rw [hpending]
    exact Bool.false_ne_true
  refine ⟨ciphertext, haead, ?_⟩
  simp only [sessionMachine, hencrypt, sendEvents, if_neg hready, hkeys]
  rfl

/-- **A receive is a receive of the SPQR state inside, or none**: the message gets that far only
if the EC ratchet has a key for it. -/
lemma sessionMachine_recv [DecidableEq Key] (message : RatchetMessage) (input : SessionInput) :
    (∃ e, MessageHeader.deserialize C.postcard message.header = .error e) ∧
        (sessionMachine C).recv s message input = (s, []) ∨
      ∃ header, MessageHeader.deserialize C.postcard message.header = .ok header ∧
        ((∃ e s', s.ecMessageKey C input.rng header = (.error e, s') ∧
            (sessionMachine C).recv s message input =
              (s', ratchetEvents C header s s'.dhRemote s'.dhSelfPublic)) ∨
          ∃ ecMk s₁ own, s.ecMessageKey C input.rng header = (.ok ecMk, s₁) ∧
            (sessionMachine C).recv s message input =
              ({ s₁ with spqr := ((spqrMachine C.toPrims).recv s.spqr
                  (header.braidMsg, header.pqMessageNumber) input.rng).1 },
                ratchetEvents C header s s₁.dhRemote s₁.dhSelfPublic ++
                  .handedOut header.dhPublicKey header.messageNumber ecMk ::
                    (((spqrMachine C.toPrims).recv s.spqr
                      (header.braidMsg, header.pqMessageNumber) input.rng).2.map .spqr ++ own)) ∧
            (own = [] ∨ ∃ pqMk spqr plaintext, s.spqr.ratchetReceiveKey C.toPrims header.braidMsg
                header.pqMessageNumber = (.ok pqMk, spqr) ∧ own = [.opened header plaintext])) := by
  have hopens := RatchetSession.opens_decrypt C input.rng message input.peerIdentity
    input.identity s
  simp only [sessionMachine, recvEvents, spqrMachine_recv_fst]
  generalize s.decrypt C input.rng message input.peerIdentity input.identity = out at hopens ⊢
  obtain ⟨r, s'⟩ := out
  simp only at hopens
  cases hopens with
  | garbled hheader =>
      rw [hheader]
      exact .inl ⟨⟨_, rfl⟩, rfl⟩
  | noEcKey hheader hec =>
      rw [hheader]
      refine .inr ⟨_, rfl, .inl ⟨_, _, hec, ?_⟩⟩
      simp only [hec, List.append_nil]
  | noPqKey hheader hec hpq =>
      rw [hheader]
      refine .inr ⟨_, rfl, .inr ⟨_, _, [], hec, ?_, .inl rfl⟩⟩
      simp only [hec, hpq]
  | keyed hheader hec hpq =>
      rw [hheader]
      generalize RatchetSession.openWith C _ _ message.ciphertext _ = result
      rcases result with e | plaintext
      · refine .inr ⟨_, rfl, .inr ⟨_, _, [], hec, ?_, .inl rfl⟩⟩
        simp only [hec, hpq]
      · refine .inr ⟨_, rfl, .inr ⟨_, _, _, hec, ?_, .inr ⟨_, _, plaintext, hpq, rfl⟩⟩⟩
        simp only [hec, hpq]

/-- A receive for which the EC ratchet has a key: whatever becomes of the message, the EC ratchet
is where it was taken. -/
lemma sessionMachine_recv_of_ok [DecidableEq Key] {message : RatchetMessage} (input : SessionInput)
    {header : MessageHeader Key} {ecMk : Key} {s₁ : RatchetSession Key}
    (hheader : MessageHeader.deserialize C.postcard message.header = .ok header)
    (hec : s.ecMessageKey C input.rng header = (.ok ecMk, s₁)) :
    ∃ spqr own, (sessionMachine C).recv s message input = ({ s₁ with spqr },
        ratchetEvents C header s s₁.dhRemote s₁.dhSelfPublic ++
          .handedOut header.dhPublicKey header.messageNumber ecMk :: own) ∧
      ∀ e ∈ own, ¬ e.IsEc := by
  rcases sessionMachine_recv (C := C) (s := s) message input with ⟨⟨e, hgarbled⟩, -⟩ |
    ⟨header', hheader', hcases⟩
  · exact absurd (hgarbled.symm.trans hheader) (by simp)
  · obtain rfl := Except.ok.inj (hheader.symm.trans hheader')
    rcases hcases with ⟨e, s', hec', -⟩ | ⟨ecMk', s₁', own, hec', hcall, hown⟩
    · exact absurd (hec.symm.trans hec') (by simp)
    · obtain ⟨hr, rfl⟩ := Prod.mk.inj (hec.symm.trans hec')
      obtain rfl := Except.ok.inj hr
      refine ⟨_, _, hcall, ?_⟩
      intro e he
      rcases List.mem_append.mp he with he | he
      · obtain ⟨e', -, rfl⟩ := List.mem_map.mp he
        exact not_false
      · rcases hown with rfl | ⟨_, _, _, -, rfl⟩
        · cases he
        · rw [List.mem_singleton.mp he]
          exact not_false

/-- What a receive reports that opens the message. -/
lemma sessionMachine_recv_of_opened [DecidableEq Key] {message : RatchetMessage}
    {input : SessionInput} {header : MessageHeader Key} {ecMk : Key} {s₁ s' : RatchetSession Key}
    {plaintext : Bytes} (hheader : MessageHeader.deserialize C.postcard message.header = .ok header)
    (hec : s.ecMessageKey C input.rng header = (.ok ecMk, s₁))
    (hopened : s.decrypt C input.rng message input.peerIdentity input.identity =
      (.ok plaintext, s')) :
    (sessionMachine C).recv s message input = (s',
      ratchetEvents C header s s₁.dhRemote s₁.dhSelfPublic ++
        .handedOut header.dhPublicKey header.messageNumber ecMk ::
          (((spqrMachine C.toPrims).recv s.spqr (header.braidMsg, header.pqMessageNumber)
            input.rng).2.map .spqr ++ [.opened header plaintext])) := by
  simp only [sessionMachine, recvEvents, hheader, hec, hopened]

lemma ratchetEvents_quiet [DecidableEq Key] (header : MessageHeader Key) (s : RatchetSession Key)
    (remote : Option Key) (own : Key) : spqrLog (ratchetEvents C header s remote own) = [] ∧
      openedPairs (ratchetEvents C header s remote own) = [] := by
  unfold ratchetEvents
  split <;> exact ⟨rfl, rfl⟩

/-! ### What the SPQR state sees -/

lemma spqrLog_send [DecidableEq Key] (input : SessionInput) (hpending : s.pendingPrekey = none) :
    spqrLog ((sessionMachine C).send s input).2.2 =
      ((spqrMachine C.toPrims).send s.spqr input.rng).2.2 := by
  obtain ⟨om, own, hcall, hown⟩ := sessionMachine_send (C := C) input hpending
  have hquiet : spqrLog own = [] := by
    rcases hown with ⟨-, rfl⟩ | ⟨_, _, _, _, -, -, -, rfl⟩ <;> rfl
  rw [hcall, spqrLog_append, spqrLog_map, hquiet, List.append_nil]

/-- What is reported of a delivery that the EC ratchet has a key for. -/
lemma spqrLog_keyed [DecidableEq Key] (header : MessageHeader Key) (remote : Option Key)
    (dhSelfPublic dh : Key) (n : ℕ) (ecMk : Key) (evs : List (SpqrEvent Key))
    {own : List (SessionEvent Key)} (hown : spqrLog own = []) :
    spqrLog (ratchetEvents C header s remote dhSelfPublic ++
      .handedOut dh n ecMk :: (evs.map .spqr ++ own)) = evs := by
  rw [spqrLog_append, (ratchetEvents_quiet header s remote dhSelfPublic).1, List.nil_append]
  show spqrLog (evs.map .spqr ++ own) = evs
  rw [spqrLog_append, spqrLog_map, hown, List.append_nil]

/-- **What every call on an SPQR state preserves, every call on a session preserves of the SPQR
state inside.** -/
theorem sessionMachine_inductive [DecidableEq Key]
    {Q : SpqrState Key → List (SpqrEvent Key) → Prop} (hQ : (spqrMachine C.toPrims).Inductive Q) :
    (sessionMachine C).Inductive (fun s log => Q s.spqr (spqrLog log)) where
  send s log input h := by
    cases hpending : s.pendingPrekey with
    | some initial =>
        rw [sessionMachine_send_pending input (by rw [hpending]; rfl), List.append_nil]
        exact h
    | none =>
        obtain ⟨om, own, hcall, -⟩ := sessionMachine_send (C := C) input hpending
        have h' := hQ.send s.spqr (spqrLog log) input.rng h
        rw [spqrMachine_send_fst, ← RatchetSession.sendKeys_spqr] at h'
        rw [spqrLog_append, spqrLog_send input hpending, hcall]
        exact h'
  recv s log message input h := by
    rcases sessionMachine_recv (C := C) (s := s) message input with ⟨-, hcall⟩ | ⟨header, -,
      ⟨e, s', hec, hcall⟩ | ⟨ecMk, s₁, own, -, hcall, hown⟩⟩
    · rw [hcall, List.append_nil]
      exact h
    · -- the EC ratchet refused, the SPQR state has not been asked
      rw [hcall, spqrLog_append, (ratchetEvents_quiet header s _ _).1, List.append_nil,
        (RatchetSession.Resolves.of_eq hec).spqr.1]
      exact h
    · have hquiet : spqrLog own = [] := by
        rcases hown with rfl | ⟨_, _, _, -, rfl⟩ <;> rfl
      rw [hcall, spqrLog_append, spqrLog_keyed _ _ _ _ _ _ _ hquiet]
      exact hQ.recv s.spqr (spqrLog log) (header.braidMsg, header.pqMessageNumber) input.rng h

end Calls

/-! ## At most once -/

section AtMostOnce

variable [DecidableEq Key]

/-- What any calls on a session leave of its SPQR state: the invariant of such states, and one
acceptance there for every message decrypted here. -/
structure SessionLocal (C : Suite Key) (sharedSecret : Key) (side : Side) (s : RatchetSession Key)
    (log : List (SessionEvent Key)) : Prop where
  spqr : SpqrLocal C.toPrims sharedSecret side s.spqr (spqrLog log)
  opened : (openedPairs log).Sublist (acceptedPairs (spqrLog log))

lemma openedPairs_send {C : Suite Key} (s : RatchetSession Key) (input : SessionInput) :
    openedPairs ((sessionMachine C).send s input).2.2 = [] := by
  cases hpending : s.pendingPrekey with
  | some initial =>
      rw [sessionMachine_send_pending input (by rw [hpending]; rfl)]
      rfl
  | none =>
      obtain ⟨om, own, hcall, hown⟩ := sessionMachine_send (C := C) input hpending
      rw [hcall, openedPairs_append, openedPairs_map, List.nil_append]
      rcases hown with ⟨-, rfl⟩ | ⟨_, _, _, _, -, -, -, rfl⟩ <;> rfl

/-- A message is opened only if the SPQR state accepts its pair. -/
lemma openedPairs_recv {C : Suite Key} (s : RatchetSession Key) (message : RatchetMessage)
    (input : SessionInput) : (openedPairs ((sessionMachine C).recv s message input).2).Sublist
      (acceptedPairs (spqrLog ((sessionMachine C).recv s message input).2)) := by
  rcases sessionMachine_recv (C := C) (s := s) message input with ⟨-, hcall⟩ | ⟨header, -,
    ⟨e, s', -, hcall⟩ | ⟨ecMk, s₁, own, -, hcall, hown⟩⟩
  · rw [hcall]
    exact List.nil_sublist _
  · rw [hcall, (ratchetEvents_quiet header s _ _).2]
    exact List.nil_sublist _
  · have hquiet : spqrLog own = [] := by
      rcases hown with rfl | ⟨_, _, _, -, rfl⟩ <;> rfl
    rw [hcall, spqrLog_keyed _ _ _ _ _ _ _ hquiet, openedPairs_append,
      (ratchetEvents_quiet header s _ _).2, List.nil_append]
    show (openedPairs (List.map SessionEvent.spqr _ ++ own)).Sublist _
    rw [openedPairs_append, openedPairs_map, List.nil_append]
    rcases hown with rfl | ⟨pqMk, spqr, plaintext, hpq, rfl⟩
    · exact List.nil_sublist _
    · rw [acceptedPairs_recv, hpq]
      exact List.Sublist.refl _

theorem sessionLocal_inductive (C : Suite Key) (sharedSecret : Key) (side : Side) :
    (sessionMachine C).Inductive (SessionLocal C sharedSecret side) where
  send s log input h := by
    refine ⟨(sessionMachine_inductive (spqrLocal_inductive C.toPrims sharedSecret side)).send s log
      input h.spqr, ?_⟩
    rw [openedPairs_append, openedPairs_send, List.append_nil, spqrLog_append, acceptedPairs_append]
    exact h.opened.trans (List.sublist_append_left _ _)
  recv s log message input h := by
    refine ⟨(sessionMachine_inductive (spqrLocal_inductive C.toPrims sharedSecret side)).recv s log
      message input h.spqr, ?_⟩
    rw [openedPairs_append, spqrLog_append, acceptedPairs_append]
    exact h.opened.append (openedPairs_recv s message input)

/-- **At most once.**  Take a session of either role and any sequence of calls of `encrypt` and
`decrypt`, on genuine, replayed or forged messages and with any identities.  No two calls of
`decrypt` that succeed have the same receiving epoch and PQ number.  The SPQR state guarantees it:
on its own, too, it hands out a key at most once for every such pair, whatever it is called
with. -/
theorem decrypted_at_most_once (C : Suite Key) (sharedSecret : Key) :
    (∀ rng bobDhPublic (calls : List (Call SessionInput RatchetMessage)),
      (openedPairs ((sessionMachine C).exec
        (RatchetSession.initializeAlice C rng sharedSecret bobDhPublic, []) calls).2).Nodup) ∧
    (∀ bobDhKeypair (calls : List (Call SessionInput RatchetMessage)),
      (openedPairs ((sessionMachine C).exec
        (RatchetSession.initializeBob C sharedSecret bobDhKeypair, []) calls).2).Nodup) ∧
    ∀ direction (calls : List (Call Rng (Message × ℕ))),
      (acceptedPairs ((spqrMachine C.toPrims).exec
        (SpqrState.init C.toPrims sharedSecret direction, []) calls).2).Nodup := by
  have hsession : ∀ (side : Side) (s : RatchetSession Key)
      (calls : List (Call SessionInput RatchetMessage)),
      s.spqr = SpqrState.init C.toPrims sharedSecret (directionOf side) →
      (openedPairs ((sessionMachine C).exec (s, []) calls).2).Nodup := by
    intro side s calls hs
    have hinit : SessionLocal C sharedSecret side s [] := by
      refine ⟨?_, List.Sublist.refl _⟩
      rw [hs]
      exact spqrLocal_init C.toPrims sharedSecret side
    have h := (sessionLocal_inductive C sharedSecret side).exec calls (s, []) hinit
    exact h.opened.nodup h.spqr.chains.receiving.nodup
  refine ⟨?_, ?_, ?_⟩
  · intro rng bobDhPublic calls
    exact hsession .alice _ calls rfl
  · intro bobDhKeypair calls
    exact hsession .bob _ calls rfl
  · intro direction calls
    cases direction with
    | a2b => exact accepted_nodup C.toPrims sharedSecret .alice calls
    | b2a => exact accepted_nodup C.toPrims sharedSecret .bob calls

end AtMostOnce

end Hushwire
