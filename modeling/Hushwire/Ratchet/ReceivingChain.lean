import Hushwire.Ratchet.SessionNetwork

/-!
# Where the keys of a receiving chain go

Every key of a receiving chain should end up in the store or with the message it belongs to.
`KeysAccounted` says so of the current chain.  It is kept by every call but one: the chain has
passed the message, its key is no longer stored, and the message arrives under the current ratchet
key.  `skip_receiving_messages` then does nothing, and the caller advances the chain all the same,
so that the message is handed the next key, which is lost to the message that key was made for.

A message that arrives twice is such a message.  So the keys are accounted for in every run in
which no message is handed over after its chain has passed it and its key has been used
(`keys_accounted`), and in general they are not (`duplicate_takes_next_key`).
-/

namespace Hushwire

open Duplex RatchetSession

variable {Key : Type}

/-- A Diffie-Hellman step: the new remote key and the first key of the receiving chain. -/
def SessionEvent.started? : SessionEvent Key → Option (Key × Key)
  | .ratcheted dhRemote chainKey _ => some (dhRemote, chainKey)
  | _ => none

/-- The remote key and the first key of the current receiving chain. -/
def receivingStart (log : List (SessionEvent Key)) : Option (Key × Key) :=
  (log.filterMap SessionEvent.started?).getLast?

lemma receivingStart_append {log log' : List (SessionEvent Key)}
    (hquiet : log'.filterMap SessionEvent.started? = []) :
    receivingStart (log ++ log') = receivingStart log := by
  rw [receivingStart, List.filterMap_append, hquiet, List.append_nil]
  rfl

lemma receivingStart_concat (log : List (SessionEvent Key)) (dh base own : Key) :
    receivingStart (log ++ [.ratcheted dh base own]) = some (dh, base) := by
  rw [receivingStart, List.filterMap_append]
  exact List.getLast?_concat

lemma filterMap_started?_eq_nil {log : List (SessionEvent Key)} (h : ∀ e ∈ log, ¬ e.IsEc) :
    log.filterMap SessionEvent.started? = [] := by
  refine List.filterMap_eq_nil_iff.mpr (fun e he => ?_)
  cases e with
  | ratcheted => exact absurd trivial (h _ he)
  | _ => rfl

variable [DecidableEq Key] {C : Suite Key} {s s' : RatchetSession Key}
  {log log' : List (SessionEvent Key)} {rng : Rng} {header : MessageHeader Key} {dh base : Key}

/-- Every key the current receiving chain has moved past is in the store under its number, or was
handed out for the message with that number. -/
def KeysAccounted (C : Suite Key) (s : RatchetSession Key) (log : List (SessionEvent Key)) : Prop :=
  ∀ c, s.receivingChain = some c → ∃ dh base, receivingStart log = some (dh, base) ∧
    s.dhRemote = some dh ∧ c = .at C.hash base c.messageNumber ∧
    ∀ i < c.messageNumber, s.skipped.find dh i = some (ecKey C.hash base i) ∨
      .handedOut dh i (ecKey C.hash base i) ∈ log

/-- A message of the current chain that the chain has passed, and whose key is not stored. -/
def Passed (C : Suite Key) (s : RatchetSession Key) (message : RatchetMessage) : Prop :=
  ∃ header c, MessageHeader.deserialize C.postcard message.header = .ok header ∧
    s.skipped.find header.dhPublicKey header.messageNumber = none ∧
    s.dhRemote = some header.dhPublicKey ∧ s.receivingChain = some c ∧
    header.messageNumber < c.messageNumber

/-- A call that leaves the receiving half alone. -/
lemma KeysAccounted.append (s' : RatchetSession Key) (h : KeysAccounted C s log)
    (hquiet : log'.filterMap SessionEvent.started? = [])
    (hchain : s'.receivingChain = s.receivingChain) (hdh : s'.dhRemote = s.dhRemote)
    (hstore : s'.skipped = s.skipped) : KeysAccounted C s' (log ++ log') := by
  intro c hc
  obtain ⟨dh, base, hstart, hremote, hat, hkeys⟩ := h c (hchain ▸ hc)
  refine ⟨dh, base, ?_, hdh.trans hremote, hat, ?_⟩
  · rw [receivingStart_append hquiet, hstart]
  · intro i hi
    rw [hstore]
    exact (hkeys i hi).imp_right (List.mem_append_left _)

/-- Skipping to a message and taking its key accounts for all keys up to it. -/
lemma accounted_advance (log : List (SessionEvent Key)) {r n : ℕ} (hdh : s.dhRemote = some dh)
    (hc : s.receivingChain = some (.at C.hash base r)) (hle : r ≤ n)
    (hkeys : ∀ i < r, s.skipped.find dh i = some (ecKey C.hash base i) ∨
      .handedOut dh i (ecKey C.hash base i) ∈ log)
    (hskip : Skips C.hash n s (.ok ()) s') (hlen : s'.skipped.len < maxSkip)
    (hstart : receivingStart log = some (dh, base)) :
    s'.receivingChain = some (.at C.hash base n) ∧
      KeysAccounted C { s' with receivingChain := some (.at C.hash base (n + 1)) }
        (log ++ [.handedOut dh n (ecKey C.hash base n)]) := by
  obtain rfl := hskip.eq_at hc hdh hle
  refine ⟨rfl, ?_⟩
  intro c hc
  obtain rfl := Option.some.inj hc
  refine ⟨dh, base, ?_, hdh, rfl, ?_⟩
  · rw [receivingStart_append rfl, hstart]
  · intro i hi
    rw [ChainState.at_messageNumber] at hi
    have hfind : (SkippedKeys.insertRange C.hash base dh r s.skipped (n - r)).find dh i = _ :=
      SkippedKeys.find_insertRange (fun j hj =>
        (SkippedKeys.len_le_len_insertRange hj.le).trans_lt hlen)
    rcases Nat.lt_or_ge i r with hlt | hge
    · -- the range does not touch what was skipped before
      rw [if_neg (by omega)] at hfind
      rw [hfind]
      exact (hkeys i hlt).imp_right (List.mem_append_left _)
    · rcases Nat.lt_or_ge i n with hlt | hge'
      · rw [if_pos ⟨rfl, hge, by omega⟩] at hfind
        exact .inl hfind
      · obtain rfl : i = n := by omega
        exact .inr (List.mem_append_right _ (List.mem_singleton_self _))

/-- What resolving the EC key reports of itself. -/
def ecEvents (C : Suite Key) (header : MessageHeader Key) (s : RatchetSession Key)
    (r : Result Key) (s' : RatchetSession Key) : List (SessionEvent Key) :=
  ratchetEvents C header s s'.dhRemote s'.dhSelfPublic ++
    match r with
    | .error _ => []
    | .ok ecMk => [.handedOut header.dhPublicKey header.messageNumber ecMk]

lemma ratchetEvents_self (own : Key) : ratchetEvents C header s s.dhRemote own = [] := if_pos rfl

/-- A step starts the chain that the report of it names. -/
lemma RatchetSession.Skips.ratchetEvents_eq (rng : Rng) {upTo : ℕ} {s₁ : RatchetSession Key}
    (h : Skips C.hash upTo s (.ok ()) s₁) (hdh : s.dhRemote ≠ some header.dhPublicKey) (own : Key) :
    ∃ base, (s₁.performDhRatchetStep C rng header).receivingChain = some (.at C.hash base 0) ∧
      ratchetEvents C header s (some header.dhPublicKey) own =
        [.ratcheted header.dhPublicKey base own] := by
  refine ⟨_, rfl, ?_⟩
  rw [ratchetEvents, if_neg hdh.symm, h.root.1, h.root.2]

/-- **Resolving the EC key keeps the keys accounted for**, unless the message was passed. -/
theorem KeysAccounted.resolve {r : Result Key} (h : KeysAccounted C s log)
    (hec : Resolves C rng header s r s') (hlen : s'.skipped.len < maxSkip)
    (hnot : s.skipped.find header.dhPublicKey header.messageNumber = none →
      s.dhRemote = some header.dhPublicKey → ∀ c, s.receivingChain = some c →
      c.messageNumber ≤ header.messageNumber) :
    KeysAccounted C s' (log ++ ecEvents C header s r s') := by
  -- an early refusal, or a session without a chain
  have hunchanged : ∀ e, s' = s → KeysAccounted C s'
      (log ++ ecEvents C header s (.error e) s') := by
    rintro e rfl
    rw [ecEvents, ratchetEvents_self, List.append_nil, List.append_nil]
    exact h
  cases hec with
  | stored hkey =>
      rw [ecEvents, ratchetEvents_self, List.nil_append]
      intro c hc
      obtain ⟨dh, base, hstart, hremote, hat, hkeys⟩ := h c hc
      refine ⟨dh, base, ?_, hremote, hat, ?_⟩
      · rw [receivingStart_append rfl, hstart]
      · intro i hi
        rcases hkeys i hi with hfind | hmem
        · -- the key that is gone from the store was handed out
          by_cases heq : dh = header.dhPublicKey ∧ i = header.messageNumber
          · obtain ⟨rfl, rfl⟩ := heq
            obtain rfl := Option.some.inj (hkey.symm.trans hfind)
            exact .inr (List.mem_append_right _ (List.mem_singleton_self _))
          · refine .inl ?_
            rw [SkippedKeys.find_remove, if_neg heq, hfind]
        · exact .inr (List.mem_append_left _ hmem)
  | refused _ hratchet =>
      cases hratchet with
      | refused _ hskip => exact hunchanged _ hskip.of_error.1
  | tooFar _ hratchet hskip =>
      cases hratchet with
      | same _ => exact hunchanged _ hskip.of_error.1
      | stepped hdh hskip₁ =>
          -- the step was made, and the new chain has not moved yet
          obtain ⟨rfl, -⟩ := hskip.of_error
          obtain ⟨base, hchain, hevents⟩ := hskip₁.ratchetEvents_eq rng hdh
            (RatchetSession.performDhRatchetStep C rng header _).dhSelfPublic
          rw [ecEvents, performDhRatchetStep_dhRemote, hevents, List.append_nil]
          intro c hc
          obtain rfl := Option.some.inj (hchain.symm.trans hc)
          exact ⟨_, base, receivingStart_concat _ _ _ _, rfl, rfl, fun i hi => absurd hi (by simp)⟩
  | noChain _ _ _ hc =>
      intro c hc'
      rw [hc] at hc'
      cases hc'
  | @advanced s₁ s₂ c hnone hratchet hskip hc =>
      cases hratchet with
      | same hdh =>
          rcases hskip.receivingChain with ⟨rfl, hno⟩ | ⟨c₀, _, hc₀, -, -⟩
          · rw [hno] at hc
            cases hc
          · obtain ⟨dh, base, hstart, hremote, hat, hkeys⟩ := h c₀ hc₀
            obtain rfl := Option.some.inj (hdh.symm.trans hremote)
            have hle := hnot hnone hdh c₀ hc₀
            rw [hat] at hc₀
            obtain ⟨hchain, hacc⟩ := accounted_advance log hdh hc₀ hle hkeys hskip hlen hstart
            obtain rfl := Option.some.inj (hchain.symm.trans hc)
            have hquiet : ratchetEvents C header s s₂.dhRemote s₂.dhSelfPublic = [] := by
              rw [hskip.dhRemote, ratchetEvents_self]
            show KeysAccounted C _ (log ++
              (ratchetEvents C header s s₂.dhRemote s₂.dhSelfPublic ++ _))
            rw [hquiet]
            exact hacc
      | stepped hdh hskip₁ =>
          obtain ⟨base, hchain₁, hevents⟩ := hskip₁.ratchetEvents_eq rng hdh s₂.dhSelfPublic
          obtain ⟨hchain, hacc⟩ := accounted_advance (log ++ [.ratcheted header.dhPublicKey base
            s₂.dhSelfPublic]) rfl hchain₁ (Nat.zero_le _)
              (fun i hi => absurd hi (Nat.not_lt_zero i)) hskip hlen
            (receivingStart_concat _ _ _ _)
          obtain rfl := Option.some.inj (hchain.symm.trans hc)
          have hevents' : ratchetEvents C header s s₂.dhRemote s₂.dhSelfPublic =
              [.ratcheted header.dhPublicKey base s₂.dhSelfPublic] := by
            rw [hskip.dhRemote, performDhRatchetStep_dhRemote, hevents]
          show KeysAccounted C _ (log ++
            (ratchetEvents C header s s₂.dhRemote s₂.dhSelfPublic ++ _))
          rw [hevents', ← List.append_assoc]
          exact hacc

lemma KeysAccounted.send (h : KeysAccounted C s log) (input : SessionInput) :
    KeysAccounted C ((sessionMachine C).send s input).1
      (log ++ ((sessionMachine C).send s input).2.2) := by
  cases hpending : s.pendingPrekey with
  | some initial =>
      rw [sessionMachine_send_pending input (by rw [hpending]; rfl), List.append_nil]
      exact h
  | none =>
      obtain ⟨om, own, hcall, hown⟩ := sessionMachine_send (C := C) input hpending
      have hquiet : own.filterMap SessionEvent.started? = [] := by
        rcases hown with ⟨-, rfl⟩ | ⟨_, _, _, _, -, -, -, rfl⟩
        · rfl
        · rfl
      have hsame : (s.sendKeys C input.rng).2.receivingChain = s.receivingChain ∧
          (s.sendKeys C input.rng).2.dhRemote = s.dhRemote ∧
          (s.sendKeys C input.rng).2.skipped = s.skipped := by
        obtain ⟨r, spqr, -, ⟨⟨e, hkeys⟩, -⟩ | ⟨m, pqN, pqMk, chain, -, -, hkeys⟩⟩ :=
          sendKeys_eq C input.rng s
        · rw [hkeys]
          exact ⟨rfl, rfl, rfl⟩
        · rw [hkeys]
          exact ⟨rfl, rfl, rfl⟩
      rw [hcall]
      refine h.append _ ?_ hsame.1 hsame.2.1 hsame.2.2
      rw [List.filterMap_append, hquiet, List.append_nil]
      simp [SessionEvent.started?]

lemma KeysAccounted.recv (h : KeysAccounted C s log) {message : RatchetMessage}
    (input : SessionInput) (hpassed : ¬ Passed C s message)
    (hlen : ((sessionMachine C).recv s message input).1.skipped.len < maxSkip) :
    KeysAccounted C ((sessionMachine C).recv s message input).1
      (log ++ ((sessionMachine C).recv s message input).2) := by
  rcases sessionMachine_recv (C := C) (s := s) message input with ⟨-, hcall⟩ | ⟨header, hheader,
    ⟨e, s', hec, hcall⟩ | ⟨ecMk, s₁, own, hec, hcall, hown⟩⟩
  · rw [hcall, List.append_nil]
    exact h
  all_goals
    have hnot : s.skipped.find header.dhPublicKey header.messageNumber = none →
        s.dhRemote = some header.dhPublicKey → ∀ c, s.receivingChain = some c →
        c.messageNumber ≤ header.messageNumber := by
      intro hnone hdh c hc
      by_contra hlt
      exact hpassed ⟨header, c, hheader, hnone, hdh, hc, not_le.mp hlt⟩
    rw [hcall] at hlen ⊢
  · have hresolved := h.resolve (.of_eq hec) hlen hnot
    rwa [ecEvents, List.append_nil] at hresolved
  · have hresolved := h.resolve (.of_eq hec) hlen hnot
    have hquiet : (((spqrMachine C.toPrims).recv s.spqr (header.braidMsg, header.pqMessageNumber)
        input.rng).2.map SessionEvent.spqr ++ own).filterMap SessionEvent.started? = [] := by
      rcases hown with rfl | ⟨_, _, _, -, rfl⟩
      · simp [SessionEvent.started?]
      · simp [SessionEvent.started?]
    have happend := hresolved.append ({ s₁ with spqr := ((spqrMachine C.toPrims).recv s.spqr
      (header.braidMsg, header.pqMessageNumber) input.rng).1 }) hquiet rfl rfl rfl
    rw [ecEvents, List.append_assoc, List.append_assoc] at happend
    exact happend

/-! ## Runs -/

lemma idealSuite_seals (rng : Rng) (key : ℕ) (msg ad : Bytes) :
    ∃ ct, Aead.encrypt idealSuite.hash idealSuite.xchacha rng key msg ad = .ok ct := ⟨_, rfl⟩

/-- What the parties of the runs below bring to a call. -/
def idealInput (b : UInt8) : SessionInput := ⟨constRng b, [], [], []⟩

/-- Alice's first message. -/
lemma exists_first_message : ∃ message m pqN s' evs,
    (sessionMachine idealSuite).send idealAlice (idealInput 2) = (s', some message, evs) ∧
      s'.skipped = .new ∧ MessageHeader.deserialize idealSuite.postcard message.header =
        .ok ⟨idealAlice.dhSelfPublic, 0, 0, m, pqN⟩ := by
  obtain ⟨m, key, spqr, hpq, -⟩ := first_send idealPrims_correct 0 (idealInput 2).rng
  obtain ⟨ciphertext, -, hcall⟩ := sessionMachine_send_of_keys idealSuite_seals (s := idealAlice)
    (idealInput 2) rfl rfl hpq
  exact ⟨_, m, 1, _, _, hcall, rfl, MessageHeader.deserialize_serialize Ideal.postcard_correct _⟩

/-- Two deliveries of the first message of a chain: the second one is handed key 1. -/
lemma recv_twice {C : Suite Key} {s : RatchetSession Key} {message : RatchetMessage}
    {header : MessageHeader Key}
    (hheader : MessageHeader.deserialize C.postcard message.header = .ok header)
    (hzero : header.messageNumber = 0) (hchain : s.receivingChain = none)
    (hdh : s.dhRemote ≠ some header.dhPublicKey) (hstore : s.skipped = .new)
    (input input' : SessionInput) :
    ∃ base own own₁ own₂ s₁ s₂,
      (sessionMachine C).recv s message input =
        (s₁, .ratcheted header.dhPublicKey base own ::
          .handedOut header.dhPublicKey 0 (ecKey C.hash base 0) :: own₁) ∧
      (sessionMachine C).recv s₁ message input' =
        (s₂, .handedOut header.dhPublicKey 0 (ecKey C.hash base 1) :: own₂) ∧
      (∀ e ∈ own₁, ¬ e.IsEc) ∧ (∀ e ∈ own₂, ¬ e.IsEc) ∧ s₁.skipped = .new ∧ s₂.skipped = .new ∧
      s₂.dhRemote = some header.dhPublicKey ∧ s₂.receivingChain = some (.at C.hash base 2) := by
  have hnone : s.skipped.find header.dhPublicKey header.messageNumber = none := by
    rw [hstore]
    exact SkippedKeys.find_new
  have hec := ecMessageKey_of_new (C := C) input.rng hnone hdh
    (skipReceivingMessages_of_none hchain) (hzero.trans_le (Nat.zero_le _)) rfl
  obtain ⟨spqr₁, own₁, hcall₁, hown₁⟩ := sessionMachine_recv_of_ok input hheader hec
  generalize hbase : (C.hash.kdfRk s.rootKey
    (C.x25519.diffieHellman s.dhSelf header.dhPublicKey)).chainKey = base at hec hcall₁
  rw [hzero, hstore] at hcall₁
  -- the chain stands at 1 now, and nothing was stored
  generalize hs₁ : ({ s.performDhRatchetStep C input.rng header with
    receivingChain := some (.at C.hash base (0 + 1)),
    skipped := SkippedKeys.insertRange C.hash base header.dhPublicKey 0 .new 0,
    spqr := spqr₁ } : RatchetSession Key) = s₁ at hcall₁
  have hstore₁ : s₁.skipped = .new := by rw [← hs₁]; rfl
  have hdh₁ : s₁.dhRemote = some header.dhPublicKey := by rw [← hs₁]; rfl
  have hchain₁ : s₁.receivingChain = some (.at C.hash base 1) := by rw [← hs₁]
  have hnone₁ : s₁.skipped.find header.dhPublicKey header.messageNumber = none := by
    rw [hstore₁]
    exact SkippedKeys.find_new
  have hec₁ := ecMessageKey_of_passed (C := C) input'.rng hnone₁ hdh₁ hchain₁
    (by rw [hzero]; exact Nat.zero_lt_one)
  obtain ⟨spqr₂, own₂, hcall₂, hown₂⟩ := sessionMachine_recv_of_ok input' hheader hec₁
  rw [hzero, ratchetEvents_self, List.nil_append] at hcall₂
  have hevents : ratchetEvents C header s (some header.dhPublicKey)
      (s.performDhRatchetStep C input.rng header).dhSelfPublic =
      [.ratcheted header.dhPublicKey base
        (s.performDhRatchetStep C input.rng header).dhSelfPublic] := by
    rw [ratchetEvents, if_neg hdh.symm, hbase]
  refine ⟨base, (s.performDhRatchetStep C input.rng header).dhSelfPublic, own₁, own₂, s₁, _, ?_,
    hcall₂, hown₁, hown₂, hstore₁, hstore₁, hdh₁, rfl⟩
  rw [hcall₁]
  exact congrArg (fun evs => (s₁, evs ++ _)) hevents

/-- **The keys of the current receiving chain are accounted for** in every state of every run of two
sessions, with any messages delivered, repeated or injected, as long as no message is handed over
that its receiver's current chain has passed and whose key is no longer stored, and the stores stay
below `maxSkip`. -/
theorem keys_accounted (C : Suite Key) (rng : Rng) (sharedSecret : Key) (bobSecret : Bytes)
    (as : List (Action SessionInput RatchetMessage))
    (hsteps : Net.Along (sessionMachine C) (fun net a => ∀ side message input,
        net.Hands side message input a → ¬ Passed C (net.node side) message ∧
          ((sessionMachine C).recv (net.node side) message input).1.skipped.len < maxSkip)
      (sessionNet C rng sharedSecret bobSecret) as) (side : Side) :
    KeysAccounted C (((sessionNet C rng sharedSecret bobSecret).run (sessionMachine C) as).node
      side)
      (((sessionNet C rng sharedSecret bobSecret).run (sessionMachine C) as).log side) := by
  refine Net.local_run (P := fun _ => KeysAccounted C)
    (Q := fun _ s message input => ¬ Passed C s message ∧
      ((sessionMachine C).recv s message input).1.skipped.len < maxSkip) ?_ ?_ as _ ?_ hsteps side
  · intro _ s log input h
    exact h.send input
  · intro _ s log message input h hq
    exact h.recv input hq.1 hq.2
  · intro side c hc
    cases side with
    | alice => cases hc
    | bob => cases hc

/-- One message, delivered once. -/
theorem keys_accounted_one_delivery :
    ∃ as : List (Action SessionInput RatchetMessage),
      as = [.send .alice (idealInput 2), .deliver .bob 0 (idealInput 3)] ∧
      KeysAccounted idealSuite (((sessionNet idealSuite (constRng 1) 0 idealSecret).run
          (sessionMachine idealSuite) as).node .bob)
        (((sessionNet idealSuite (constRng 1) 0 idealSecret).run
          (sessionMachine idealSuite) as).log .bob) := by
  obtain ⟨message, m, pqN, alice, evs, hsend, -, hheader⟩ := exists_first_message
  obtain ⟨base, own, own₁, own₂, s₁, s₂, hcall₁, -, -, -, hstore₁, -⟩ :=
    recv_twice (s := idealBob) hheader rfl rfl
    (by simp [idealBob, initializeBob]) rfl (idealInput 3) (idealInput 4)
  refine ⟨_, rfl, keys_accounted idealSuite (constRng 1) 0 idealSecret
    [.send .alice (idealInput 2), .deliver .bob 0 (idealInput 3)] ⟨?_, ?_, trivial⟩ .bob⟩
  · intro side message input hhands
    exact hhands.elim
  · have h₁ := Net.moves_send (sessionNet idealSuite (constRng 1) 0 idealSecret) .alice hsend
    rintro side message' input ⟨rfl, rfl, hget⟩
    have hsent : message' = message := by
      rw [show Side.bob.other = .alice from rfl, h₁.sent_self] at hget
      exact (Option.some.inj hget).symm
    have hbob : ((sessionNet idealSuite (constRng 1) 0 idealSecret).step (sessionMachine idealSuite)
        (.send .alice (idealInput 2))).node .bob = idealBob := h₁.node_other
    rw [hbob, hsent, hcall₁, hstore₁]
    refine ⟨?_, Nat.two_pos.trans_le (by decide)⟩
    rintro ⟨_, c, -, -, -, hc, -⟩
    cases hc

/-- **A message that arrives twice takes a key that is not its own.**  Alice sends one message, the
network delivers it to Bob twice, and the stores stay empty.  Bob's receiving chain has moved past
key 1, which is not stored and was not handed out for a message with number 1: the second delivery
of message 0 got it. -/
theorem duplicate_takes_next_key :
    ∃ as : List (Action SessionInput RatchetMessage), (∀ a ∈ as, a.Honest) ∧
      Net.Along (sessionMachine idealSuite) (fun net a => ∀ side,
          ((net.step (sessionMachine idealSuite) a).node side).skipped.len < maxSkip)
        (sessionNet idealSuite (constRng 1) 0 idealSecret) as ∧
      ∃ net, net = (sessionNet idealSuite (constRng 1) 0 idealSecret).run
          (sessionMachine idealSuite) as ∧
        ∃ dh base, receivingStart (net.log .bob) = some (dh, base) ∧
          (net.node .bob).dhRemote = some dh ∧
          (net.node .bob).receivingChain = some (.at Ideal.hash base 2) ∧
          (net.node .bob).skipped.find dh 1 = none ∧
          (∀ key, .handedOut dh 1 key ∉ net.log .bob) ∧
          .handedOut dh 0 (ecKey Ideal.hash base 1) ∈ net.log .bob := by
  obtain ⟨message, m, pqN, alice, evs, hsend, hstoreA, hheader⟩ := exists_first_message
  obtain ⟨base, own, own₁, own₂, s₁, s₂, hcall₁, hcall₂, hown₁, hown₂, hstore₁, hstore₂, hdh,
    hchain⟩ :=
    recv_twice (s := idealBob) hheader rfl rfl (by simp [idealBob, initializeBob]) rfl
      (idealInput 3) (idealInput 4)
  -- the three steps
  generalize hnet₀ : sessionNet idealSuite (constRng 1) 0 idealSecret = net₀
  have halice₀ : net₀.node .alice = idealAlice := by rw [← hnet₀]; rfl
  have hbob₀ : net₀.node .bob = idealBob := by rw [← hnet₀]; rfl
  have hlog₀ : net₀.log .bob = [] := by rw [← hnet₀]; rfl
  have hsent₀ : net₀.sent .alice = [] := by rw [← hnet₀]; rfl
  have h₁ := Net.moves_send net₀ .alice (halice₀ ▸ hsend)
  generalize hnet₁ : net₀.step (sessionMachine idealSuite)
    (.send .alice (idealInput 2)) = net₁ at h₁
  have hsent₁ : (net₁.sent .alice)[0]? = some message := by rw [h₁.sent_self, hsent₀]; rfl
  have hbob₁ : net₁.node .bob = idealBob := h₁.node_other.trans hbob₀
  have h₂ := Net.moves_deliver net₁ .bob hsent₁ (hbob₁ ▸ hcall₁)
  generalize hnet₂ : net₁.step (sessionMachine idealSuite) (.deliver .bob 0 (idealInput 3)) = net₂
    at h₂
  have hsent₂ : (net₂.sent .alice)[0]? = some message :=
    (congrArg (·[0]?) h₂.sent_other).trans hsent₁
  have h₃ := Net.moves_deliver net₂ .bob hsent₂ (h₂.node_self ▸ hcall₂)
  generalize hnet₃ : net₂.step (sessionMachine idealSuite) (.deliver .bob 0 (idealInput 4)) = net₃
    at h₃
  -- what they leave
  have halice₁ : (net₁.node .alice).skipped = .new := by rw [h₁.node_self, hstoreA]
  have halice₂ : (net₂.node .alice).skipped = .new := by
    rw [← halice₁]
    exact congrArg _ h₂.node_other
  have halice₃ : (net₃.node .alice).skipped = .new := by
    rw [← halice₂]
    exact congrArg _ h₃.node_other
  have hlog₃ : net₃.log .bob =
      (.ratcheted idealAlice.dhSelfPublic base own ::
        .handedOut idealAlice.dhSelfPublic 0 (ecKey Ideal.hash base 0) :: own₁) ++
      .handedOut idealAlice.dhSelfPublic 0 (ecKey Ideal.hash base 1) :: own₂ := by
    have hlog₁ : net₁.log .bob = [] := h₁.log_other.trans hlog₀
    rw [h₃.log_self, h₂.log_self, hlog₁]
    rfl
  have hsmall : ∀ {net : SessionNet ℕ}, (net.node .alice).skipped = .new →
      (net.node .bob).skipped = .new → ∀ side, (net.node side).skipped.len < maxSkip := by
    intro net ha hb
    have hlen : (SkippedKeys.new : SkippedKeys ℕ).len < maxSkip := Nat.two_pos.trans_le (by decide)
    refine Net.forall_side .alice ?_ ?_
    · rwa [ha]
    · show (net.node .bob).skipped.len < maxSkip
      rwa [hb]
  refine ⟨[.send .alice (idealInput 2), .deliver .bob 0 (idealInput 3),
    .deliver .bob 0 (idealInput 4)], ?_, ⟨?_, ?_, ?_, trivial⟩, net₃, ?_, idealAlice.dhSelfPublic,
    base, ?_, ?_, ?_, ?_, ?_, ?_⟩
  · intro a ha
    simp only [List.mem_cons, List.not_mem_nil, or_false] at ha
    rcases ha with rfl | rfl | rfl <;> trivial
  · simpa only [hnet₁] using hsmall halice₁ (congrArg _ hbob₁)
  · simpa only [hnet₁, hnet₂] using hsmall halice₂ (by rw [h₂.node_self, hstore₁])
  · simpa only [hnet₁, hnet₂, hnet₃] using hsmall halice₃ (by rw [h₃.node_self, hstore₂])
  · rw [Net.run_cons, Net.run_cons, Net.run_cons, Net.run_nil, hnet₁, hnet₂, hnet₃]
  · rw [hlog₃, receivingStart, List.filterMap_append, List.filterMap_cons, List.filterMap_cons,
      List.filterMap_cons]
    simp only [SessionEvent.started?, filterMap_started?_eq_nil hown₁,
      filterMap_started?_eq_nil hown₂]
    rfl
  · rw [h₃.node_self, hdh]
  · rw [h₃.node_self]
    exact hchain
  · rw [h₃.node_self, hstore₂]
    exact SkippedKeys.find_new
  · intro key hmem
    rw [hlog₃] at hmem
    simp only [List.mem_append, List.mem_cons, reduceCtorEq, SessionEvent.handedOut.injEq,
      one_ne_zero, false_and, and_false, false_or] at hmem
    rcases hmem with hmem | hmem
    · exact hown₁ _ hmem trivial
    · exact hown₂ _ hmem trivial
  · rw [hlog₃]
    exact List.mem_append_right _ List.mem_cons_self

end Hushwire
