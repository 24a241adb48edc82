import Hushwire.Ratchet.EndToEnd
import Hushwire.Ratchet.SpqrStore

/-!
# The two skip limits

Both ratchets of a session refuse a message that is more than `MAX_SKIP` ahead.  The EC ratchet
counts twice per delivery, once to the end of the chain before and once on the new chain; the PQ
ratchet counts the messages of a braid epoch, over however many EC chains they are spread.

`PqReach` says how far the PQ ratchet reaches in terms of what it has accepted, and
`skip_limits_agree_iff` that the PQ ratchet follows the EC ratchet exactly within this reach.
`skip_limits_disagree` is a run in which it does not: one turn of the EC ratchet in the middle of
the lost messages is enough.
-/

namespace Hushwire

open Duplex RatchetSession

/-! ## The reach of the PQ ratchet -/

section Reach

variable {Key : Type} {P : Prims Key} {H : Hash Key} {sk sharedSecret : Key} {s : Side}
  {secrets : List Key} {accepted : List (ℕ × ℕ)} {st : SpqrState Key} {e n : ℕ}

namespace SpqrState

/-- The number `n` of epoch `e` is not past the last one accepted, or it is within `MAX_SKIP` of the
start of its chain or of a number that was accepted and all of these are `MAX_SKIP` or more short of
the end of the counter; of an epoch that is gone nothing is skipped. -/
def PqReach (st : SpqrState Key) (accepted : List (ℕ × ℕ)) (e n : ℕ) : Prop :=
  e ∉ st.kdfchains ∨ (∃ n', (e, n') ∈ accepted ∧ n ≤ n') ∨
    (n ≤ maxSkip + 1 ∨ ∃ n', (e, n') ∈ accepted ∧ n ≤ n' + (maxSkip + 1)) ∧
      ∀ n', (e, n') ∈ accepted → n' + maxSkip < 2 ^ 32

/-- Within the limit no skip is refused. -/
lemma deriveKey_ne_maxSkip (hnear : ∀ c, st.recvChain e = some c → n ≤ c.n ∨ c.Reaches n)
    (gap limit : ℕ) : (st.deriveKey H e n).1 ≠ .error (.maxSkipExceeded gap limit) := by
  cases hsk : st.skippedKey e n with
  | some key =>
      obtain ⟨st', htry, -⟩ := trySkipped_eq_some hsk
      simp only [deriveKey, htry]
      intro h
      cases h
  | none =>
      simp only [deriveKey, trySkipped_eq_none hsk]
      split
      · -- behind the chain
        intro h
        cases h
      · rename_i hahead
        obtain ⟨st₁, hskip⟩ : ∃ st₁, st.skipMessageKeys H e (n - 1) = (.ok (), st₁) := by
          unfold skipMessageKeys
          split
          · exact ⟨_, rfl⟩
          · rename_i c hc
            have hlt : c.n < n := by
              simpa only [hc, Option.map_some, Option.any_some, decide_eq_true_eq,
                not_le] using hahead
            have hreach := (hnear c hc).resolve_left (not_le.mpr hlt)
            rw [if_neg (not_lt.mpr ((SckaChain.reaches_iff hlt).mp hreach))]
            dsimp only
            split <;> exact ⟨_, rfl⟩
        -- every error that is left is one of the braid's kind
        simp only [hskip]
        split
        · intro h
          cases h
        · split
          · intro h
            cases h
          · intro h
            cases h

end SpqrState

/-- The reach in terms of the chain. -/
lemma Receiving.pqReach_iff (h : Receiving H sk s secrets accepted st) (ht : Tallied accepted st) :
    st.PqReach accepted e n ↔ ∀ c, st.recvChain e = some c → n ≤ c.n ∨ c.Reaches n := by
  have hfew : maxSkip < 2 ^ 32 := by decide
  constructor
  · rintro (hgone | ⟨n', hacc, hle⟩ | ⟨hnear, hfits⟩) c hc
    · exact absurd (mem_of_recvChain hc) hgone
    · exact .inl (hle.trans ((h.spent e n' hacc).2.2 c hc))
    · refine .inr ⟨?_, ?_⟩
      · rcases hnear with hstart | ⟨n', hacc, hle⟩
        · omega
        · have hbehind := (h.spent e n' hacc).2.2 c hc
          omega
      · rcases ht.top e c hc with hzero | hacc
        · omega
        · exact hfits _ hacc
  · intro hnear
    by_cases he : e ∈ st.kdfchains
    swap
    · exact .inl he
    obtain ⟨j, hj⟩ := h.chain_at e he
    have hbehind : ∀ n', (e, n') ∈ accepted → n' ≤ j := fun n' hacc => (h.spent e n' hacc).2.2 _ hj
    rcases hnear _ hj, ht.top e _ hj with ⟨hpassed | ⟨hgap, hfits⟩, hzero | hacc⟩
    all_goals rw [SckaChain.at_n] at *
    · exact .inr (.inr ⟨.inl (by omega), fun n' hacc => by have := hbehind n' hacc; omega⟩)
    · exact .inr (.inl ⟨_, hacc, hpassed⟩)
    · exact .inr (.inr ⟨.inl (by omega), fun n' hacc => by have := hbehind n' hacc; omega⟩)
    · exact .inr (.inr ⟨.inr ⟨_, hacc, by omega⟩, fun n' hacc => by have := hbehind n' hacc; omega⟩)

/-- **When the PQ ratchet refuses to skip.**  In a run on an honest network, for a message that its
sender has derived a key for. -/
lemma maxSkip_iff_pqReach (hP : P.Correct) {as : List (Action Rng (Message × ℕ))}
    (has : ∀ a ∈ as, a.Honest) {m : Message} {key : Key} (hsent : (m, n, key) ∈
      derivedKeys (((spqrNet P sharedSecret).run (spqrMachine P) as).log s.other)) :
    (∀ gap, ((((spqrNet P sharedSecret).run (spqrMachine P) as).node s).ratchetReceiveKey P m n).1 ≠
        .error (.maxSkipExceeded gap maxSkip)) ↔
      (((spqrNet P sharedSecret).run (spqrMachine P) as).node s).PqReach
        (acceptedPairs (((spqrNet P sharedSecret).run (spqrMachine P) as).log s))
        (m.epoch - 1) n := by
  have h := spqrTally_run P sharedSecret as s
  rw [h.chains.receiving.pqReach_iff h.tallied]
  constructor
  · intro hno c hc
    by_contra hfar
    obtain ⟨hahead, hgap⟩ := not_or.mp hfar
    exact hno _ (ratchetReceiveKey_of_far hP has hsent hc (not_le.mp hahead) hgap)
  · intro hnear gap
    obtain ⟨⟨b', o, hrecv⟩, hreached⟩ := receives_derived hP has hsent
    generalize (spqrNet P sharedSecret).run (spqrMachine P) as = net at *
    obtain ⟨st₁, hcall, -, -, hkeep, -⟩ := h.chains.ratchetReceiveKey h.braid hrecv n
    rw [← hkeep _ hreached] at hnear
    rw [hcall]
    exact SpqrState.deriveKey_ne_maxSkip hnear gap maxSkip

end Reach

/-- The same for the ratchet inside a session. -/
lemma Traffic.maxSkip_iff_pqReach {Key : Type} {C : Suite Key} {sharedSecret : Key}
    {identity : Side → IdentityPublicKey} {net : SessionNet Key} {s : Side} {i : ℕ}
    {e : SealedMessage Key} (h : Traffic C sharedSecret identity net) (hP : C.toPrims.Correct)
    (he : (sealedMessages (net.log s.other))[i]? = some e) :
    (∀ gap, ((net.node s).spqr.ratchetReceiveKey C.toPrims e.header.braidMsg
        e.header.pqMessageNumber).1 ≠ .error (.maxSkipExceeded gap maxSkip)) ↔
      (net.node s).spqr.PqReach (acceptedPairs (spqrLog (net.log s)))
        (e.header.braidMsg.epoch - 1) e.header.pqMessageNumber := by
  obtain ⟨bs, hbs⟩ := h.shadow
  have hsent : e.derived ∈ derivedKeys (spqrLog (net.log s.other)) :=
    (h.derived s.other).subset (List.mem_map_of_mem (List.mem_of_getElem? he))
  rw [← hbs.log] at hsent
  have hiff := Hushwire.maxSkip_iff_pqReach hP hbs.honest hsent
  rw [hbs.node, hbs.log] at hiff
  exact hiff

/-! ## Agreement -/

/-- **When the two limits agree.**  Take two sessions made by `initialize_alice` and
`initialize_bob` and any run on a network that loses, delays and reorders messages, but forges none.
For a message that its peer has sent, the PQ ratchet of `s` raises no `MaxSkipExceeded` where the EC
ratchet raises none exactly if the message is within reach of the PQ ratchet where the EC ratchet
raises none. -/
theorem skip_limits_agree_iff {Key : Type} [DecidableEq Key] {C : Suite Key}
    (hP : C.toPrims.Correct) (hW : C.postcard.Correct) (rng : Rng) (sharedSecret : Key)
    (bobSecret : Bytes) (identity : Side → IdentityPublicKey)
    (as : List (Action SessionInput RatchetMessage)) (has : ∀ a ∈ as, Proper identity a)
    (net : SessionNet Key)
    (hnet : net = (sessionNet C rng sharedSecret bobSecret).run (sessionMachine C) as)
    (s : Side) (i : ℕ) (e : SealedMessage Key)
    (he : (sealedMessages (net.log s.other))[i]? = some e) (input : SessionInput) :
    ((∀ gap, ((net.node s).ecMessageKey C input.rng e.header).1 ≠
          .error (.maxSkipExceeded gap maxSkip)) →
        ∀ gap, ((net.node s).spqr.ratchetReceiveKey C.toPrims e.header.braidMsg
          e.header.pqMessageNumber).1 ≠ .error (.maxSkipExceeded gap maxSkip)) ↔
      ((∀ gap, ((net.node s).ecMessageKey C input.rng e.header).1 ≠
          .error (.maxSkipExceeded gap maxSkip)) →
        (net.node s).spqr.PqReach (acceptedPairs (spqrLog (net.log s)))
          (e.header.braidMsg.epoch - 1) e.header.pqMessageNumber) := by
  have h : Traffic C sharedSecret identity net := by
    rw [hnet]
    exact traffic_run hW rng bobSecret as has
  exact imp_congr_right (fun _ => h.maxSkip_iff_pqReach hP he)

/-- Alice's first message. -/
theorem skip_limits_agree_first_message : ∃ (net : SessionNet ℕ) (e : SealedMessage ℕ),
    net = (sessionNet idealSuite (constRng 1) 0 idealSecret).run (sessionMachine idealSuite)
      [.send .alice (idealInput 2)] ∧
    (sealedMessages (net.log .alice))[0]? = some e ∧
    ∀ gap, ((net.node .bob).spqr.ratchetReceiveKey idealSuite.toPrims e.header.braidMsg
      e.header.pqMessageNumber).1 ≠ .error (.maxSkipExceeded gap maxSkip) := by
  have hsent : Play (fun _ => True) [.send .alice (idealInput 2)]
      (boardOf (aliceStart.sends idealSuite aliceBase 0 1) bobStart) :=
    (play_start _).send .alice 2 rfl rfl rfl
  obtain ⟨net, hnet⟩ : ∃ net, net = idealNet.run (sessionMachine idealSuite)
      [.send .alice (idealInput 2)] := ⟨_, rfl⟩
  obtain ⟨e, hget, hec, hpq, -⟩ := (play_start (fun _ => True)).exists_last .alice 2
    (n := 0) rfl hnet
  have hview : bobStart.toEcView.Of idealSuite (net.node .bob) := by
    rw [hnet]
    exact (hsent.shows .bob).ec
  have hnumber : e.header.messageNumber = 0 := congrArg (fun label => label.2.2.1) hec
  have hne : bobStart.dhRemote ≠ some e.header.dhPublicKey := by simp [bobStart]
  obtain ⟨root, root', σ, hkey, -⟩ := hview.resolve (constRng 3) hne SkippedKeys.find_new
    (by simp [bobStart]) (hnumber.trans_le (Nat.zero_le _))
  have hiff := skip_limits_agree_iff (C := idealSuite) idealPrims_correct Ideal.postcard_correct
    (constRng 1) 0 idealSecret (fun _ => []) [.send .alice (idealInput 2)] hsent.proper
      net hnet .bob 0
    e hget (idealInput 3)
  refine ⟨net, e, hnet, hget, hiff.mpr ?_ ?_⟩
  · intro _
    have hle : e.header.pqMessageNumber ≤ 1 := hpq
    refine .inr (.inr ⟨.inl (hle.trans (Nat.le_add_left _ _)), ?_⟩)
    -- nothing has been delivered
    intro n' hacc
    obtain ⟨j, hj, -⟩ := (hnet ▸ hsent.traffic : Traffic idealSuite 0 (fun _ => []) net).accepted
      .bob _ hacc
    rw [hnet, (hsent.shows .bob).got] at hj
    cases hj
  · intro gap h
    have herror := (congrArg Prod.fst hkey).symm.trans h
    cases herror

/-! ## The first epoch -/

section FirstEpoch

variable {Key : Type} {P : Prims Key} {b b' : State Key} {got : List ℕ}

/-- The phases in which a party starts an epoch. -/
def State.Early : State Key → Prop
  | .keysUnsampled _ _ => True
  | .keysSampled _ _ _ _ _ => True
  | .noHeaderReceived _ _ _ => True
  | _ => False

lemma State.Early.send {rng : Rng} {m : Message} {o : Option (EpochSecret Key)} (h : b.Early)
    (hsend : State.Sends P rng b b' m o) : b'.Early := by
  cases hsend <;> trivial

lemma State.Early.epoch_receive {m : Message} {o : Option (EpochSecret Key)} (h : b.Early)
    (hrecv : State.Receives P m b b' o) : b'.epoch = b.epoch := by
  cases hrecv <;> first | rfl | exact h.elim

/-- A party to which at most one message has been delivered is in its first epoch. -/
structure Young (b : State Key) (got : List ℕ) : Prop where
  early : got = [] → b.Early
  epoch : got.length ≤ 1 → b.epoch = initialEpoch

lemma Young.send {b : BraidState Key} (h : Young b.state got) (rng : Rng) :
    Young ((braidMachine P).send b rng).1.state got := by
  rcases hsend : b.state.send P rng with err | ⟨b', m, o⟩
  · rw [braidMachine_send_of_error hsend]
    exact h
  · rw [braidMachine_send_of_ok hsend]
    have hsends := State.Sends.of_send hsend
    exact ⟨fun hgot => (h.early hgot).send hsends,
      fun hgot => hsends.epoch_eq.1.trans (h.epoch hgot)⟩

/-- A delivery that does not reach the braid. -/
lemma Young.concat (h : Young b got) (i : ℕ) : Young b (got ++ [i]) := by
  refine ⟨fun hgot => absurd hgot (List.concat_ne_nil i got), fun hgot => h.epoch ?_⟩
  rw [List.length_append] at hgot
  exact (Nat.le_add_right _ _).trans hgot

lemma Young.recv {b : BraidState Key} (h : Young b.state got) (m : Message) (rng : Rng) (i : ℕ) :
    Young ((braidMachine P).recv b m rng).1.state (got ++ [i]) := by
  rcases hrecv : b.state.receive P m with err | ⟨b', o⟩
  · rw [braidMachine_recv_of_error rng hrecv]
    exact h.concat i
  · rw [braidMachine_recv_of_ok rng hrecv]
    refine ⟨fun hgot => absurd hgot (List.concat_ne_nil i got), fun hgot => ?_⟩
    -- it was the first delivery
    rw [List.length_append, List.length_singleton] at hgot
    have hnil : got = [] := List.eq_nil_of_length_eq_zero (by omega)
    exact ((h.early hnil).epoch_receive (State.Receives.of_receive hrecv)).trans
      (h.epoch (hnil ▸ Nat.zero_le 1))

variable {C : Suite Key} {sharedSecret : Key} {first : Side → Key}
  {identity : Side → IdentityPublicKey} {net : SessionNet Key}

lemma Traffic.young_step [DecidableEq Key] (hW : C.postcard.Correct)
    (h : Traffic C sharedSecret identity net)
    (hyoung : ∀ s, Young (net.node s).spqr.braid.state (net.got s))
    (a : Action SessionInput RatchetMessage) (ha : Proper identity a) (t : Side) :
    Young ((net.step (sessionMachine C) a).node t).spqr.braid.state
      ((net.step (sessionMachine C) a).got t) := by
  have hcontains := spqr_contains_braid C.toPrims sharedSecret
  have hstep := h.sessionStep hW a ha
  generalize net.step (sessionMachine C) a = net' at hstep
  revert t
  cases hstep with
  | idle => exact hyoung
  | @send _ s _ _ _ input hmoves hgot _ _ hreport =>
      refine Net.forall_side s ?_ ?_
      · have hsent := (hyoung s).send (P := C.toPrims) input.rng
        rw [hcontains.send s _ _ input.rng (h.spqrLocal s), ← hreport.spqr, ← hmoves.node_self,
          ← hgot] at hsent
        exact hsent
      · rw [hmoves.node_other, hmoves.got_other]
        exact hyoung s.other
  | @deliver _ s i e rng _ _ _ _ hmoves hgot _ hreport =>
      refine Net.forall_side s ?_ ?_
      · rw [hmoves.node_self, hgot]
        rcases hreport.spqr with ⟨hspqr, -⟩ | ⟨hspqr, -⟩
        · rw [hspqr]
          exact (hyoung s).concat i
        · have hreceived := (hyoung s).recv (P := C.toPrims) e.header.braidMsg rng i
          rw [hcontains.recv s _ _ (e.header.braidMsg, e.header.pqMessageNumber) rng
            (h.spqrLocal s), ← hspqr] at hreceived
          exact hreceived
      · rw [hmoves.node_other, hmoves.got_other]
        exact hyoung s.other

/-- **The first epoch lasts beyond the first delivery.** -/
lemma young_run [DecidableEq Key] (hW : C.postcard.Correct) (rng : Rng) (bobSecret : Bytes)
    (as : List (Action SessionInput RatchetMessage)) (has : ∀ a ∈ as, Proper identity a)
    (s : Side) :
    Young (((sessionNet C rng sharedSecret bobSecret).run (sessionMachine C)
        as).node s).spqr.braid.state
      (((sessionNet C rng sharedSecret bobSecret).run (sessionMachine C) as).got s) := by
  have hstart : ∀ t,
      Young ((sessionNet C rng sharedSecret bobSecret).node t).spqr.braid.state [] := by
    rintro (_ | _)
    · exact ⟨fun _ => trivial, fun _ => rfl⟩
    · exact ⟨fun _ => trivial, fun _ => rfl⟩
  exact (Net.run_invariant (P := fun net => Traffic C sharedSecret identity net ∧
      ∀ t, Young (net.node t).spqr.braid.state (net.got t))
    (fun _ a h ha => ⟨h.1.step hW a ha, h.1.young_step hW h.2 a ha⟩) as _
    ⟨traffic_sessionNet rng bobSecret identity, hstart⟩ (Net.along_of_forall as _ has)).2 s

/-- In the first epoch the SPQR state numbers the messages as they come. -/
lemma Shows.numbered {s : Side} {v : Standing Key} (h : Shows C first net s v)
    (htraffic : Traffic C sharedSecret identity net)
    (hepoch : (net.node s).spqr.braid.state.epoch = initialEpoch) {i : ℕ} {e : SealedMessage Key}
    (he : (sealedMessages (net.log s))[i]? = some e) :
    e.header.braidMsg.epoch - 1 = 0 ∧ e.header.pqMessageNumber = i + 1 := by
  obtain ⟨bs, hbs⟩ := htraffic.shadow
  -- every key that was derived went into a message
  have hderived : (sealedMessages (net.log s)).map SealedMessage.derived =
      derivedKeys (spqrLog (net.log s)) := by
    refine (htraffic.derived s).eq_of_length ?_
    rw [h.derived, ← h.sealed, List.length_map, List.length_map]
  rw [← hbs.node] at hepoch
  refine derivedKeys_numbered C.toPrims sharedSecret bs hepoch (d := e.derived) ?_
  rw [hbs.log, ← hderived, List.getElem?_map, he]
  rfl

end FirstEpoch

/-! ## Disagreement -/

/-- `decrypt` ends with the error of the PQ ratchet if the EC ratchet has none. -/
lemma decrypt_of_pqError {Key : Type} [DecidableEq Key] {C : Suite Key} {s s₁ : RatchetSession Key}
    {rng : Rng} {message : RatchetMessage} {header : MessageHeader Key} {ecMk : Key}
    {err : CryptoError} {sender recipient : IdentityPublicKey}
    (hheader : MessageHeader.deserialize C.postcard message.header = .ok header)
    (hec : s.ecMessageKey C rng header = (.ok ecMk, s₁))
    (hpq : (s.spqr.ratchetReceiveKey C.toPrims header.braidMsg header.pqMessageNumber).1 =
      .error err) : (s.decrypt C rng message sender recipient).1 = .error err := by
  rw [← (Resolves.of_eq hec).spqr.1] at hpq
  simp only [RatchetSession.decrypt, hheader, hec]
  rcases hout : s₁.spqr.ratchetReceiveKey C.toPrims header.braidMsg header.pqMessageNumber with
    ⟨err' | pqMk, spqr⟩
  · rw [hout] at hpq
    obtain rfl := Except.error.inj hpq
    rfl
  · rw [hout] at hpq
    cases hpq

/-- Alice's first chain is a message longer than `MAX_SKIP`, and all that arrives of it is its
beginning.  Bob answers, and Alice sends two messages of her second chain. -/
lemma exists_spread : ∃ (as : List (Action SessionInput RatchetMessage)) (alice bob : Standing ℕ),
    Play (fun s => s = .alice) as (boardOf alice bob) ∧
    ((∃ key, alice.sealed[maxSkip + 2]? = some (idealKey 4, maxSkip + 1, 1, key)) ∧
      alice.got = [0] ∧ alice.keys = [idealKey 1, idealKey 4]) ∧
    bob.dhRemote = some (idealKey 1) ∧ (∃ base, bob.receiving = some (base, 1)) ∧ bob.store = .new ∧
      bob.got = [0] ∧ bob.keys = [idealKey 0, idealKey 3] := by
  have h : Play (fun s => s = .alice) _
      (boardOf (aliceStart.sends idealSuite aliceBase 0 (maxSkip + 1)) bobStart) :=
    (play_start _).sends .alice 2 rfl (maxSkip + 1) rfl rfl
  have hget : (aliceStart.sends idealSuite aliceBase 0 (maxSkip + 1)).sealed[0 + 0]? =
      some (idealKey 1, 0, 0 + 0, ecKey Ideal.hash aliceBase (0 + 0)) :=
    getElem?_sends maxSkip.succ_pos rfl
  have hlen : (aliceStart.sends idealSuite aliceBase 0 (maxSkip + 1)).sealed.length =
      maxSkip + 1 := by
    show ([] ++ (List.range (maxSkip + 1)).map _).length = maxSkip + 1
    rw [List.nil_append, List.length_map, List.length_range]
  obtain ⟨as, r, r', h'⟩ := h.overflow 3 hget (by simp [bobStart]) SkippedKeys.find_new
    (by simp [bobStart]) (Nat.zero_le _)
  obtain ⟨as₁, r₁, r₁', h₁⟩ := h'.turn 3 4 2 rfl rfl (some_idealKey_ne (by decide)) rfl
    (by simp [Standing.sends, aliceStart])
  have hlast := getElem?_sends (v := (aliceStart.sends idealSuite aliceBase 0 (maxSkip + 1)).ratchet
      idealSuite (constRng 4) 0 (idealKey 3) 0 0 r₁ r₁')
    (b := (idealSuite.hash.kdfRk r₁' (idealSuite.x25519.diffieHellman ((constRng 4).fill 32)
      (idealKey 3))).chainKey) (n := 0) (k := 2) (j := 1) (by decide) hlen
  exact ⟨as₁, _, _, h₁, ⟨⟨_, hlast⟩, rfl, rfl⟩, rfl, ⟨_, rfl⟩, rfl, rfl, rfl⟩

lemma Play.young {watched : Side → Prop} {as : List (Action SessionInput RatchetMessage)}
    {board : Side → Standing ℕ} (h : Play watched as board) (s : Side) :
    Young ((idealNet.run (sessionMachine idealSuite) as).node s).spqr.braid.state
      ((idealNet.run (sessionMachine idealSuite) as).got s) := by
  rw [idealNet]
  exact young_run (C := idealSuite) Ideal.postcard_correct (constRng 1) idealSecret as h.proper s

/-- What the PQ ratchet of Bob would have to reach over is one message longer than its limit. -/
lemma Play.not_pqReach {as : List (Action SessionInput RatchetMessage)} {alice bob : Standing ℕ}
    {net : SessionNet ℕ} {e : SealedMessage ℕ}
    (h : Play (fun s => s = .alice) as (boardOf alice bob))
    (hnet : net = idealNet.run (sessionMachine idealSuite) as) (haGot : alice.got = [0])
    (hbGot : bob.got = [0]) (he : (sealedMessages (net.log .alice))[maxSkip + 2]? = some e) :
    ¬ (net.node .bob).spqr.PqReach (acceptedPairs (spqrLog (net.log .bob)))
      (e.header.braidMsg.epoch - 1) e.header.pqMessageNumber := by
  obtain ⟨htraffic, hshows, hyoung⟩ : Traffic idealSuite 0 (fun _ => []) net ∧
      (∀ s, Shows idealSuite idealFirstKeys net s (boardOf alice bob s)) ∧
      Young (net.node .alice).spqr.braid.state (net.got .alice) := by
    rw [hnet]
    exact ⟨h.traffic, h.shows, h.young .alice⟩
  have hepoch : (net.node .alice).spqr.braid.state.epoch = initialEpoch := by
    refine hyoung.epoch ?_
    rw [(hshows .alice).got]
    exact (congrArg List.length haGot).le
  obtain ⟨hzero, hnumber⟩ := (hshows .alice).numbered htraffic hepoch he
  rw [hzero, hnumber]
  -- of the accepted numbers there is only the first
  have hfirst : ∀ n', (0, n') ∈ acceptedPairs (spqrLog (net.log .bob)) → n' = 1 := by
    intro n' hacc
    obtain ⟨j, hj, e', he', hpair⟩ := htraffic.accepted .bob _ hacc
    rw [(hshows .bob).got] at hj
    obtain rfl : j = 0 := List.mem_singleton.mp (hbGot ▸ hj)
    have hn' : n' = e'.header.pqMessageNumber := congrArg Prod.snd hpair
    exact hn'.trans ((hshows .alice).numbered htraffic hepoch he').2
  rintro (hgone | ⟨n', hacc, hle⟩ | ⟨hstart | ⟨n', hacc, hle⟩, -⟩)
  · -- two braids are at most one epoch apart, so Bob still has epoch 0
    have hlocal := htraffic.spqrLocal .bob
    have hnear : (net.node .bob).spqr.braid.state.epoch ≤
        (net.node .alice).spqr.braid.state.epoch + 1 :=
          htraffic.epoch_le_succ idealPrims_correct .bob
    have hcompleted := hlocal.epoch_eq.trans_le (State.completed_le_epoch _)
    rw [hepoch, initialEpoch] at hnear
    refine hgone ((hlocal.chains.epochs.retained 0).mpr ⟨Nat.zero_le _, ?_⟩)
    omega
  · have := hfirst n' hacc
    omega
  · omega
  · have := hfirst n' hacc
    omega

/-- **The two limits disagree.**  In an orderly run on an honest network, a message of Alice's
second chain arrives whose key Bob's EC ratchet finds without a gap above `MAX_SKIP` on either
chain.  Both chains belong to one braid epoch, in which the gap is their sum, and the PQ ratchet
raises `MaxSkipExceeded`, with which `decrypt` ends. -/
theorem skip_limits_disagree :
    ∃ (as : List (Action SessionInput RatchetMessage)) (net : SessionNet ℕ) (e : SealedMessage ℕ),
      (∀ a ∈ as, Proper (fun _ => []) a) ∧
      Orderly (firstKeys idealSuite (constRng 1) 0 idealSecret)
        ((sessionNet idealSuite (constRng 1) 0 idealSecret).run (sessionMachine idealSuite)
          (as ++ [.deliver .bob (maxSkip + 2) (idealInput 5)])) ∧
      net = (sessionNet idealSuite (constRng 1) 0 idealSecret).run (sessionMachine idealSuite) as ∧
      (sealedMessages (net.log .alice))[maxSkip + 2]? = some e ∧
      (∃ ecMk s₁, (net.node .bob).ecMessageKey idealSuite (constRng 5) e.header = (.ok ecMk, s₁)) ∧
      ∃ gap, ((net.node .bob).spqr.ratchetReceiveKey idealSuite.toPrims e.header.braidMsg
          e.header.pqMessageNumber).1 = .error (.maxSkipExceeded gap maxSkip) ∧
        ((net.node .bob).decrypt idealSuite (constRng 5) e.message [] []).1 =
          .error (.maxSkipExceeded gap maxSkip) := by
  obtain ⟨as, alice, bob, h, ⟨⟨key, hsealed⟩, haGot, haKeys⟩, hbRemote, ⟨base, hbReceiving⟩,
    hbStore, hbGot, hbKeys⟩ := exists_spread
  obtain ⟨net, hnet⟩ : ∃ net, net = idealNet.run (sessionMachine idealSuite) as := ⟨_, rfl⟩
  have hne : bob.dhRemote ≠ some (idealKey 4) := hbRemote.trans_ne (some_idealKey_ne (by decide))
  have hnone : bob.store.find (idealKey 4) 1 = none := by
    rw [hbStore]
    exact SkippedKeys.find_new
  have hgap : ∀ base r, bob.receiving = some (base, r) → maxSkip + 1 ≤ r + maxSkip :=
    forall_of_eq_some hbReceiving (Nat.add_comm maxSkip 1).le
  have hn : 1 ≤ maxSkip := by decide
  obtain ⟨root, root', hplay⟩ := h.deliver .bob 5 hsealed hne hnone hgap hn (by simp)
  have hplay := @hplay (boardOf alice
    (bob.ratchet idealSuite (constRng 5) (maxSkip + 2) (idealKey 4)
    (maxSkip + 1) 1 root root')) rfl rfl
  have horderly := hplay.orderly
    (Net.forall_side .alice
      (show alice.got.Nodup by rw [haGot]; decide)
      (show (bob.got ++ [maxSkip + 2]).Nodup by rw [hbGot]; decide))
    (Net.forall_side .alice
      (show alice.keys.Nodup by
        rw [haKeys]; exact List.Nodup.map idealKey_injective (l := [1, 4]) (by decide))
      (show (bob.keys ++ [idealKey 5]).Nodup by
        rw [hbKeys]; exact List.Nodup.map idealKey_injective (l := [0, 3, 5]) (by decide)))
  -- the message, as its sender sealed it
  obtain ⟨htraffic, hshows⟩ : Traffic idealSuite 0 (fun _ => []) net ∧
      ∀ s, Shows idealSuite idealFirstKeys net s (boardOf alice bob s) := by
    rw [hnet]
    exact ⟨h.traffic, h.shows⟩
  obtain ⟨e, he, hdh, hprevious, hnumber, -⟩ := (hshows .alice).exists_sealed hsealed
  have hview : bob.toEcView.Of idealSuite (net.node .bob) := (hshows .bob).ec
  obtain ⟨r, r', σ, hkey, -⟩ := hview.resolve (constRng 5) (hdh.symm ▸ hne)
    (by rw [hdh, hnumber]; exact hnone) (by rw [hprevious]; exact hgap) (hnumber.trans_le hn)
  obtain ⟨gap, hfar⟩ := not_forall_not.mp
    (mt (htraffic.maxSkip_iff_pqReach idealPrims_correct he).mp (h.not_pqReach hnet haGot hbGot he))
  exact ⟨as, net, e, h.proper, horderly, hnet, he, ⟨_, σ, hkey⟩, gap, hfar, decrypt_of_pqError
    (htraffic.deserialize Ideal.postcard_correct (List.mem_of_getElem? he)) hkey hfar⟩

end Hushwire
