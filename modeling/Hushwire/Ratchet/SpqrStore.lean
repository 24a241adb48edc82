import Hushwire.Ratchet.SpqrInvariant

/-!
# The keys a ratchet stores

What `SpqrState.mkskipped` holds after any list of calls, on messages of anyone's making.

`Tallied` adds two facts to the invariant of the chains: an accepted number is positive, and a
receive chain stands at a number that was accepted.  With them the keys stored for an epoch and
the numbers accepted in it are together the numbers up to the chain
(`Receiving.len_skipped`), so that the size of the store is known from what was accepted.
`skipped_store_bounded_iff` says for which runs it stays within `MAX_SKIP`, and
`skipped_store_grows` how far calls can take it beyond: `skip_message_keys` bounds the gap of one
call, not what earlier calls have left behind.

`receive_keys_index_exact` collects what the same invariant says about the keys themselves.
-/

namespace Hushwire

open Duplex

variable {Key : Type}

/-! ## How receive chains move -/

namespace SpqrState

variable {P : Prims Key} {H : Hash Key} {s : SpqrState Key} {e n : ℕ} {c : SckaChain Key}

lemma recvChain_incorporate {o : Option (EpochSecret Key)}
    (h : (s.incorporate H o).2.recvChain e = some c) : s.recvChain e = some c ∨ c.n = 0 := by
  cases o with
  | none => exact .inl h
  | some es =>
      simp only [incorporate, addEpoch] at h
      split at h
      · exact .inl h
      · simp only [recvChain, Map.lookup_insert_eq_ite] at h
        split at h
        · obtain rfl := Option.some.inj h
          exact .inr rfl
        · exact .inl h

lemma recvChain_clearOldEpochs {e' : ℕ} (h : (s.clearOldEpochs e').recvChain e = some c) :
    s.recvChain e = some c := by
  unfold clearOldEpochs at h
  split at h
  · simp only [recvChain, Map.lookup_erase_eq_ite] at h
    split at h
    · cases h
    · exact h
  · exact h

/-- A send moves no receive chain; a chain it adds is at its start. -/
lemma recvChain_ratchetSendKey {rng : Rng} (h : (s.ratchetSendKey P rng).2.recvChain e = some c) :
    s.recvChain e = some c ∨ c.n = 0 := by
  unfold ratchetSendKey at h
  rcases hbraid : s.braid.send P rng with ⟨_ | out, b'⟩
  · rw [hbraid] at h
    exact .inl h
  rw [hbraid] at h
  have hinc : ∀ c,
      ({ s with braid := b' }.incorporate P.hash out.outputKey).2.recvChain e = some c →
      s.recvChain e = some c ∨ c.n = 0 :=
    fun _ h => recvChain_incorporate (s := { s with braid := b' }) h
  rcases hstep : { s with braid := b' }.incorporate P.hash out.outputKey with ⟨_ | _, s₁⟩
  · rw [hstep] at hinc
    simp only [hstep] at h
    exact hinc c h
  rw [hstep] at hinc
  simp only [hstep] at h
  have hdrop : ((if out.outputKey.isSome then s₁.clearOldEpochs out.sendingEpoch else s₁).dropSend
      out.sendingEpoch).recvChain e = some c := by
    split at h
    · exact h
    · rwa [recvChain_setSend] at h
  rw [(dropSend_spec _).2.2.2.1] at hdrop
  split at hdrop
  · exact hinc c (recvChain_clearOldEpochs hdrop)
  · exact hinc c hdrop

/-- The check after the trailing advance of a receive never fires: the chain was moved to the
message before. -/
lemma deriveKey_ne_mismatch {base : Key} (hon : ∀ c, s.recvChain e = some c → ∃ j, c = .at H base j)
    (k : ℕ) : (s.deriveKey H e n).1 ≠ .error (.braidKem ("SPQR counter mismatch: advanced to " ++
      toString k ++ ", expected " ++ toString n)) := by
  cases hsk : s.skippedKey e n with
  | some key =>
      obtain ⟨s', htry, -⟩ := trySkipped_eq_some hsk
      simp only [deriveKey, htry]
      intro h
      cases h
  | none =>
      cases hchain : s.recvChain e with
      | none =>
          have hskip : s.skipMessageKeys H e (n - 1) = (.ok (), s) := by
            simp only [skipMessageKeys, hchain]
          simp only [deriveKey, trySkipped_eq_none hsk, hchain, Option.map_none, Option.any_none,
            Bool.false_eq_true, if_false, hskip]
          intro h
          have htext := congrArg (fun t => t.toList.take 1)
            (CryptoError.braidKem.inj (Except.error.inj h))
          simp at htext
      | some c =>
          obtain ⟨j, rfl⟩ := hon c hchain
          by_cases hle : n ≤ j
          · simp only [deriveKey, trySkipped_eq_none hsk, hchain, Option.map_some, SckaChain.at_n,
              Option.any_some, decide_eq_true_eq, if_pos hle]
            intro h
            have htext := congrArg (fun t => t.toList.take 6)
              (CryptoError.braidKem.inj (Except.error.inj h))
            simp at htext
          have hlt : (SckaChain.at H base j).n < n := not_le.mp hle
          by_cases hreach : (SckaChain.at H base j).Reaches n
          swap
          · rw [deriveKey_of_far hsk hchain hlt hreach]
            intro h
            cases h
          simp only [deriveKey, trySkipped_eq_none hsk, hchain, Option.map_some, SckaChain.at_n,
            Option.any_some, decide_eq_true_eq, if_neg hle]
          obtain ⟨s₁, hskip, -, -, -, hrecv₁, -⟩ := skipMessageKeys_spec hchain
            (show j ≤ n - 1 by omega) ((SckaChain.reaches_iff hlt).mp hreach)
          have hchain₁ : s₁.recvChain e = some (.at H base (n - 1)) := by
            rw [hrecv₁, if_pos rfl]
          have hn : n - 1 + 1 = n := by omega
          simp only [hskip, hchain₁, SckaChain.advance_at, hn, ne_eq, not_true_eq_false, if_false]
          intro h
          cases h

end SpqrState

/-! ## The tally -/

/-- The numbers accepted in an epoch. -/
def acceptedAt (accepted : List (ℕ × ℕ)) (e : ℕ) : List ℕ :=
  (accepted.filter (fun p => p.1 = e)).map Prod.snd

section Tally

variable {P : Prims Key} {H : Hash Key} {sk sharedSecret : Key} {s : Side} {secrets : List Key}
  {accepted : List (ℕ × ℕ)} {st : SpqrState Key} {log : List (SpqrEvent Key)} {e n : ℕ}

@[simp] lemma mem_acceptedAt : n ∈ acceptedAt accepted e ↔ (e, n) ∈ accepted := by
  simp [acceptedAt]

lemma nodup_acceptedAt (h : accepted.Nodup) : (acceptedAt accepted e).Nodup := by
  refine List.Nodup.map_on ?_ (h.filter _)
  rintro ⟨a, i⟩ hp ⟨b, j⟩ hq rfl
  have ha : a = e := of_decide_eq_true (List.mem_filter.mp hp).2
  have hb : b = e := of_decide_eq_true (List.mem_filter.mp hq).2
  rw [ha, hb]

/-- Accepted numbers start at 1, and a receive chain stands where it started or at the last
number accepted on it. -/
structure Tallied (accepted : List (ℕ × ℕ)) (st : SpqrState Key) : Prop where
  pos : ∀ e n, (e, n) ∈ accepted → 1 ≤ n
  top : ∀ e c, st.recvChain e = some c → c.n = 0 ∨ (e, c.n) ∈ accepted

/-- Chains that did not move keep the tally. -/
lemma Tallied.frame (h : Tallied accepted st) {st' : SpqrState Key}
    (hrecv : ∀ e c, st'.recvChain e = some c → st.recvChain e = some c ∨ c.n = 0) :
    Tallied accepted st' where
  pos := h.pos
  top e c hc := by
    rcases hrecv e c hc with hold | hzero
    · exact h.top e c hold
    · exact .inl hzero

/-- Deriving a key, in a state whose chains are where the secrets put them. -/
lemma Tallied.deriveKey (h : Tallied accepted st) (hr : Receiving H sk s secrets accepted st)
    (e n : ℕ) : Tallied (accepted ++ match (st.deriveKey H e n).1 with
      | .ok _ => [(e, n)]
      | .error _ => []) (st.deriveKey H e n).2 := by
  have hderives : SpqrState.Derives H (recvBase H sk secrets s e) e n st (st.deriveKey H e n).1
      (st.deriveKey H e n).2 := SpqrState.derives_deriveKey (fun c hc => hr.recvChain_at hc)
  generalize st.deriveKey H e n = out at hderives
  obtain ⟨r, st'⟩ := out
  have hpos : 1 ≤ n → ∀ e' n', (e', n') ∈ accepted ++ [(e, n)] → 1 ≤ n' := by
    intro hn e' n' hmem
    rcases List.mem_append.mp hmem with hmem | hmem
    · exact h.pos e' n' hmem
    · cases List.mem_singleton.mp hmem
      exact hn
  cases hderives with
  | rejected hnone hwhy =>
      rw [List.append_nil]
      exact h
  | @stored k _ hk hcore hchains hmem hskipped =>
      refine ⟨hpos (hr.skipped_le e n k hk).1, ?_⟩
      intro e' c hc
      rw [SpqrState.recvChain, hchains] at hc
      rcases h.top e' c hc with hzero | hacc
      · exact .inl hzero
      · exact .inr (List.mem_append_left _ hacc)
  | fresh hnone hchain hlt hreach hcore hkeys hsend hrecv hmem hskipped =>
      refine ⟨hpos (by omega), ?_⟩
      intro e' c hc
      rw [hrecv] at hc
      split at hc
      · rename_i hee
        obtain rfl := Option.some.inj hc
        rw [hee]
        exact .inr (List.mem_append_right _ (List.mem_singleton_self _))
      · rcases h.top e' c hc with hzero | hacc
        · exact .inl hzero
        · exact .inr (List.mem_append_left _ hacc)

/-- **The store and the tally.**  The keys stored for an epoch and the numbers accepted in it are
together the numbers up to its chain. -/
theorem Receiving.len_skipped (h : Receiving H sk s secrets accepted st) (ht : Tallied accepted st)
    {c : SckaChain Key} (hc : st.recvChain e = some c) :
    Map.len ((st.mkskipped.lookup e).getD ∅) + (acceptedAt accepted e).length = c.n := by
  have hmem : ∀ n, n ∈ ((st.mkskipped.lookup e).getD ∅).keys ↔ (st.skippedKey e n).isSome := by
    intro n
    rw [Finmap.mem_keys, ← Finmap.lookup_isSome, SpqrState.skippedKey]
    cases st.mkskipped.lookup e <;> rfl
  have hdisjoint : Disjoint ((st.mkskipped.lookup e).getD ∅).keys
      (acceptedAt accepted e).toFinset := by
    rw [Finset.disjoint_left]
    intro n hstored hacc
    rw [hmem] at hstored
    rw [List.mem_toFinset, mem_acceptedAt] at hacc
    rw [(h.spent e n hacc).2.1] at hstored
    cases hstored
  have hunion : ((st.mkskipped.lookup e).getD ∅).keys ∪ (acceptedAt accepted e).toFinset =
      Finset.Icc 1 c.n := by
    ext n
    rw [Finset.mem_union, hmem, List.mem_toFinset, mem_acceptedAt, Finset.mem_Icc]
    constructor
    · rintro (hstored | hacc)
      · obtain ⟨k, hk⟩ := Option.isSome_iff_exists.mp hstored
        obtain ⟨hn, c', hc', hle⟩ := h.skipped_le e n k hk
        obtain rfl := Option.some.inj (hc.symm.trans hc')
        exact ⟨hn, hle⟩
      · exact ⟨ht.pos e n hacc, (h.spent e n hacc).2.2 c hc⟩
    · rintro ⟨hn, hle⟩
      exact h.covered e c n hc hn hle
  have hcard := congrArg Finset.card hunion
  rw [Finset.card_union_of_disjoint hdisjoint, Nat.card_Icc,
    List.toFinset_card_of_nodup (nodup_acceptedAt h.nodup)] at hcard
  simpa [Map.len] using hcard

/-- The invariant of a ratchet with the tally of what it accepted. -/
structure SpqrTally (P : Prims Key) (sharedSecret : Key) (s : Side) (st : SpqrState Key)
    (log : List (SpqrEvent Key)) : Prop extends SpqrLocal P sharedSecret s st log where
  tallied : Tallied (acceptedPairs log) st

/-- What a receive does once the braid has accepted the message, and where the chains stand
before the key is derived. -/
lemma SpqrLocal.ratchetReceiveKey_eq (h : SpqrLocal P sharedSecret s st log) {m : Message}
    {b' : State Key} {o : Option (EpochSecret Key)}
    (hr : st.braid.state.receive P m = .ok (b', o)) :
    ∃ st₁, (∀ n, st.ratchetReceiveKey P m n = st₁.deriveKey P.hash (m.epoch - 1) n) ∧
      (∀ e c, st₁.recvChain e = some c → st.recvChain e = some c ∨ c.n = 0) ∧
      (o = none → st₁ = { st with braid := ⟨b'⟩ }) ∧
      Receiving P.hash (braidAuthSeed P.hash sharedSecret) s
        (secretsIn (braidLog log) ++ o.toList.map EpochSecret.secret) (acceptedPairs log) st₁ := by
  obtain ⟨st₁, hinc, -, hnone, -, h₁⟩ := h.chains.incorporateReceive h.braid (.of_receive hr)
  have hbraid : st.braid.receive P m = (.ok ⟨m.epoch - 1, o⟩, ⟨b'⟩) :=
    BraidState.receive_of_ok hr
  refine ⟨st₁, ?_, ?_, hnone, h₁.receiving⟩
  · intro n
    simp only [SpqrState.ratchetReceiveKey, hbraid, hinc]
  · intro e c hc
    have hc' : ({ st with braid := ⟨b'⟩ }.incorporate P.hash o).2.recvChain e = some c := by
      rw [hinc]
      exact hc
    exact SpqrState.recvChain_incorporate (s := { st with braid := ⟨b'⟩ }) hc'

lemma spqrTally_inductive (P : Prims Key) (sharedSecret : Key) (s : Side) :
    (spqrMachine P).Inductive (SpqrTally P sharedSecret s) where
  send st log rng h := by
    refine ⟨(spqrLocal_inductive P sharedSecret s).send st log rng h.toSpqrLocal, ?_⟩
    rw [acceptedPairs_append, acceptedPairs_send, List.append_nil, spqrMachine_send_fst]
    exact h.tallied.frame (fun e c => SpqrState.recvChain_ratchetSendKey)
  recv st log m rng h := by
    refine ⟨(spqrLocal_inductive P sharedSecret s).recv st log m rng h.toSpqrLocal, ?_⟩
    rw [acceptedPairs_append, acceptedPairs_recv, spqrMachine_recv_fst]
    cases hr : st.braid.state.receive P m.1 with
    | error e =>
        have hrecv : st.braid.receive P m.1 = (.error e, st.braid) := BraidState.receive_of_error hr
        simp only [SpqrState.ratchetReceiveKey, hrecv, List.append_nil]
        exact h.tallied.frame (fun _ _ => .inl)
    | ok out =>
        obtain ⟨b', o⟩ := out
        obtain ⟨st₁, heq, hrecv, -, h₁⟩ := h.toSpqrLocal.ratchetReceiveKey_eq hr
        rw [heq]
        exact (h.tallied.frame hrecv).deriveKey h₁ _ _

lemma spqrTally_init (P : Prims Key) (sharedSecret : Key) (s : Side) :
    SpqrTally P sharedSecret s (SpqrState.init P sharedSecret (directionOf s)) [] := by
  refine ⟨spqrLocal_init P sharedSecret s, ?_, ?_⟩
  · intro e n hmem
    cases hmem
  · intro e c hc
    obtain ⟨j, rfl⟩ := (chains_init P sharedSecret s).receiving.recvChain_at hc
    rcases Nat.eq_zero_or_pos j with rfl | hj
    · exact .inl rfl
    · rcases (chains_init P sharedSecret s).receiving.covered e _ j hc hj le_rfl with hsome | hacc
      · cases hsome
      · cases hacc

/-- The invariant with the tally holds of both parties in every run. -/
theorem spqrTally_run (P : Prims Key) (sharedSecret : Key) (as : List (Action Rng (Message × ℕ)))
    (s : Side) : SpqrTally P sharedSecret s
      (((spqrNet P sharedSecret).run (spqrMachine P) as).node s)
      (((spqrNet P sharedSecret).run (spqrMachine P) as).log s) :=
  Net.inductive_run (P := SpqrTally P sharedSecret) (spqrTally_inductive P sharedSecret) as _
    (spqrTally_init P sharedSecret) s

end Tally

/-- The state of a party and what it has shown, after a list of calls on a ratchet right out of
`new_sender` (Alice) or `new_receiver` (Bob). -/
def spqrCalls (P : Prims Key) (sharedSecret : Key) (s : Side) (cs : List (Call Rng (Message × ℕ))) :
    SpqrState Key × List (SpqrEvent Key) :=
  (spqrMachine P).exec (SpqrState.init P sharedSecret (directionOf s), []) cs

lemma spqrCalls_recv (P : Prims Key) (sharedSecret : Key) (s : Side)
    (cs : List (Call Rng (Message × ℕ))) (m : Message × ℕ) (rng : Rng) :
    spqrCalls P sharedSecret s (cs ++ [.recv m rng]) =
      (((spqrMachine P).recv (spqrCalls P sharedSecret s cs).1 m rng).1,
        (spqrCalls P sharedSecret s cs).2 ++
          ((spqrMachine P).recv (spqrCalls P sharedSecret s cs).1 m rng).2) := by
  rw [spqrCalls, Machine.exec, List.foldl_append]
  rfl

lemma spqrTally_calls (P : Prims Key) (sharedSecret : Key) (s : Side)
    (cs : List (Call Rng (Message × ℕ))) :
    SpqrTally P sharedSecret s (spqrCalls P sharedSecret s cs).1
      (spqrCalls P sharedSecret s cs).2 :=
  (spqrTally_inductive P sharedSecret s).exec cs _ (spqrTally_init P sharedSecret s)

/-! ## The size of the store -/

/-- The bound in any state that calls can lead to. -/
lemma SpqrTally.store_bounded_iff {P : Prims Key} {sharedSecret : Key} {s : Side}
    {st : SpqrState Key} {log : List (SpqrEvent Key)} (h : SpqrTally P sharedSecret s st log) :
    (∀ e, Map.len ((st.mkskipped.lookup e).getD ∅) ≤ maxSkip) ↔
      ∀ e n, e ∈ st.kdfchains → (e, n) ∈ acceptedPairs log →
        n ≤ (acceptedAt (acceptedPairs log) e).length + maxSkip := by
  have hr := h.chains.receiving
  constructor
  · intro hbound e n he hacc
    obtain ⟨j, hj⟩ := hr.chain_at e he
    have hlen := hr.len_skipped h.tallied hj
    have hle := (hr.spent e n hacc).2.2 _ hj
    have hmax := hbound e
    omega
  · intro hahead e
    by_cases he : e ∈ st.mkskipped
    · obtain ⟨j, hj⟩ := hr.chain_at e (hr.skipped_mem e he)
      have hlen := hr.len_skipped h.tallied hj
      rcases h.tallied.top e _ hj with hzero | hacc
      · omega
      · have hmax := hahead e _ (hr.skipped_mem e he) hacc
        omega
    · rw [Finmap.lookup_eq_none.mpr he]
      exact Nat.zero_le _

/-- **When the store of skipped keys is bounded.**  After any calls, every epoch's store holds at
most `MAX_SKIP` keys exactly if no number accepted in an epoch that is still retained is more than
`MAX_SKIP` ahead of how many numbers were accepted in it. -/
theorem skipped_store_bounded_iff (P : Prims Key) (sharedSecret : Key) (s : Side)
    (cs : List (Call Rng (Message × ℕ))) :
    (∀ e, Map.len (((spqrCalls P sharedSecret s cs).1.mkskipped.lookup e).getD ∅) ≤ maxSkip) ↔
      ∀ e n, e ∈ (spqrCalls P sharedSecret s cs).1.kdfchains →
        (e, n) ∈ acceptedPairs (spqrCalls P sharedSecret s cs).2 →
        n ≤ (acceptedAt (acceptedPairs (spqrCalls P sharedSecret s cs).2) e).length + maxSkip :=
  (spqrTally_calls P sharedSecret s cs).store_bounded_iff

section Growth

variable {P : Prims Key} {sharedSecret : Key} {s : Side}

/-- A message ahead of its chain, but not too far, is accepted and moves the chain to it. -/
lemma SpqrTally.accepts_ahead {st : SpqrState Key} {log : List (SpqrEvent Key)}
    (h : SpqrTally P sharedSecret s st log) {m : Message} {b' : State Key}
    (hr : st.braid.state.receive P m = .ok (b', none)) {c : SckaChain Key}
    (hc : st.recvChain (m.epoch - 1) = some c) {n : ℕ} (hlt : c.n < n) (hreach : c.Reaches n)
    (rng : Rng) :
    ((spqrMachine P).recv st (m, n) rng).1.braid = ⟨b'⟩ ∧
      acceptedPairs ((spqrMachine P).recv st (m, n) rng).2 = [(m.epoch - 1, n)] ∧
      ∃ c', ((spqrMachine P).recv st (m, n) rng).1.recvChain (m.epoch - 1) = some c' ∧
      c'.n = n := by
  obtain ⟨st₁, heq, -, hsame, h₁⟩ := h.toSpqrLocal.ratchetReceiveKey_eq hr
  obtain rfl := hsame rfl
  rw [acceptedPairs_recv, spqrMachine_recv_fst, heq]
  have hderives := SpqrState.derives_deriveKey (n := n)
    (fun c hc => h₁.recvChain_at (e := m.epoch - 1) hc)
  generalize SpqrState.deriveKey _ _ _ _ = out at hderives
  obtain ⟨r, st'⟩ := out
  cases hderives with
  | @stored k _ hk hcore hchains hmem hskipped =>
      -- what is stored lies behind the chain
      obtain ⟨-, c', hc', hle⟩ := h₁.skipped_le _ n k hk
      obtain rfl := Option.some.inj (hc.symm.trans hc')
      exact absurd hle (not_le.mpr hlt)
  | rejected hnone hwhy =>
      rcases hwhy c hc with hle | hfar
      · exact absurd hle (not_le.mpr hlt)
      · exact absurd hreach hfar
  | fresh hnone hchain hlt hreach hcore hkeys hsend hrecv hmem hskipped =>
      exact ⟨hcore.braid, rfl, _, (hrecv _).trans (if_pos rfl), rfl⟩

end Growth

/-- The calls that fill the store: every message is as far ahead as one call allows. -/
def farMessages (k : ℕ) : List (Call Rng (Message × ℕ)) :=
  (List.range k).map (fun i => .recv (.idle initialEpoch, (i + 1) * (maxSkip + 1)) zeroRng)

/-- **The store grows** with every one of these calls by `MAX_SKIP` keys, in one epoch, as far as
the counter goes. -/
theorem skipped_store_grows (k : ℕ) (hk : k * (maxSkip + 1) ≤ 2 ^ 32) : Map.len
    (((spqrCalls idealPrims 0 .bob (farMessages k)).1.mkskipped.lookup 0).getD ∅) =
      k * maxSkip := by
  have hreach : (spqrCalls idealPrims 0 .bob (farMessages k)).1.braid =
        (SpqrState.init idealPrims 0 .b2a).braid ∧
      (acceptedAt (acceptedPairs (spqrCalls idealPrims 0 .bob (farMessages k)).2) 0).length = k ∧
      ∃ c, (spqrCalls idealPrims 0 .bob (farMessages k)).1.recvChain 0 = some c ∧
        c.n = k * (maxSkip + 1) := by
    induction k with
    | zero =>
        obtain ⟨j, hj⟩ := (chains_init idealPrims 0 .bob).receiving.chain_at 0
          (Finmap.mem_insert.mpr (.inl rfl))
        refine ⟨rfl, rfl, _, hj, ?_⟩
        rcases (spqrTally_calls idealPrims 0 .bob []).tallied.top 0 _ hj with hzero | hacc
        · rw [hzero, Nat.zero_mul]
        · cases hacc
    | succ k ih =>
        rw [Nat.succ_mul] at hk
        obtain ⟨hbraid, hcount, c, hc, hn⟩ := ih (by omega)
        have hcalls : farMessages (k + 1) = farMessages k ++
            [.recv (.idle initialEpoch, (k + 1) * (maxSkip + 1)) zeroRng] := by
          rw [farMessages, List.range_succ, List.map_append]
          rfl
        rw [hcalls, spqrCalls_recv]
        have h := spqrTally_calls idealPrims 0 .bob (farMessages k)
        generalize spqrCalls idealPrims 0 .bob (farMessages k) = out at *
        have hr : out.1.braid.state.receive idealPrims (.idle initialEpoch) =
            .ok (out.1.braid.state, none) := by
          rw [hbraid]
          rfl
        have hnext : (k + 1) * (maxSkip + 1) = c.n + (maxSkip + 1) := by rw [hn, Nat.succ_mul]
        obtain ⟨hb', hacc, c', hc', hn'⟩ := h.accepts_ahead hr hc
          (n := (k + 1) * (maxSkip + 1)) (by omega) ⟨by omega, by omega⟩ zeroRng
        refine ⟨hb'.trans hbraid, ?_, c', hc', hn'⟩
        rw [acceptedPairs_append, hacc, acceptedAt, List.filter_append, List.map_append,
          List.length_append]
        exact congrArg (· + 1) hcount
  obtain ⟨-, hcount, c, hc, hn⟩ := hreach
  have h := spqrTally_calls idealPrims 0 .bob (farMessages k)
  have hlen := h.chains.receiving.len_skipped h.tallied hc
  rw [hcount, hn, Nat.mul_succ] at hlen
  exact Nat.add_right_cancel hlen

/-- Two calls are enough. -/
theorem skipped_store_exceeds_limit : maxSkip < Map.len
    (((spqrCalls idealPrims 0 .bob (farMessages 2)).1.mkskipped.lookup 0).getD ∅) := by
  rw [skipped_store_grows 2 (by decide)]
  decide

/-! ## The keys themselves -/

/-- The secrets reported after a receive. -/
lemma SpqrLocal.secretsIn_recv {P : Prims Key} {sharedSecret : Key} {s : Side}
    {st : SpqrState Key} {log : List (SpqrEvent Key)} (h : SpqrLocal P sharedSecret s st log)
    {m : Message} {b' : State Key} {o : Option (EpochSecret Key)}
    (hr : st.braid.state.receive P m = .ok (b', o)) (n : ℕ) (rng : Rng) :
    secretsIn (braidLog (log ++ ((spqrMachine P).recv st (m, n) rng).2)) =
      secretsIn (braidLog log) ++ o.toList.map EpochSecret.secret := by
  obtain ⟨st', own, hcall, -, hown, -⟩ := h.recv (m, n) rng
  rw [hcall, braidLog_append, braidLog_append, braidLog_map, hown, List.append_nil,
    braidMachine_recv_of_ok rng hr]
  exact secretsIn_call _ _ _ _ (fun _ => rfl) (fun _ => rfl)

/-- A key that is derived is the key of its number. -/
lemma Receiving.deriveKey_exact {H : Hash Key} {sk : Key} {s : Side} {secrets : List Key}
    {accepted : List (ℕ × ℕ)} {st st' : SpqrState Key} {e n : ℕ} {key : Key}
    (h : Receiving H sk s secrets accepted st) (hok : st.deriveKey H e n = (.ok key, st')) :
    1 ≤ n ∧ key = sckaKey H (recvBase H sk secrets s e) n := by
  have hderives : SpqrState.Derives H (recvBase H sk secrets s e) e n st (st.deriveKey H e n).1
      (st.deriveKey H e n).2 := SpqrState.derives_deriveKey (fun c hc => h.recvChain_at hc)
  rw [hok] at hderives
  cases hderives with
  | stored hk => exact ⟨(h.skipped_le e n key hk).1, h.skipped_key e n key hk⟩
  | fresh hnone hchain hlt => exact ⟨Nat.one_le_of_lt hlt, rfl⟩

/-- **Receive keys are index-exact.**  After any calls: a key that `ratchet_receive_key` returns
is the key of the message's number on the chain of its receiving epoch, counted from the chain key
that the epoch secrets give; so is every key in the store, and its number lies behind the chain;
and once the braid has accepted the message, the check of the counter after the trailing advance
does not fail. -/
theorem receive_keys_index_exact (P : Prims Key) (sharedSecret : Key) (s : Side)
    (cs : List (Call Rng (Message × ℕ))) :
    (∀ m n rng key st', (spqrCalls P sharedSecret s cs).1.ratchetReceiveKey P m n = (.ok key, st') →
        1 ≤ n ∧ key = sckaKey P.hash (recvBase P.hash (braidAuthSeed P.hash sharedSecret)
          (secretsIn (braidLog (spqrCalls P sharedSecret s (cs ++ [.recv (m, n) rng])).2)) s
          (m.epoch - 1)) n) ∧
      (∀ e n key, (spqrCalls P sharedSecret s cs).1.skippedKey e n = some key →
        1 ≤ n ∧ key = sckaKey P.hash (recvBase P.hash (braidAuthSeed P.hash sharedSecret)
          (secretsIn (braidLog (spqrCalls P sharedSecret s cs).2)) s e) n ∧
        ∃ c, (spqrCalls P sharedSecret s cs).1.recvChain e = some c ∧ n ≤ c.n) ∧
      ∀ m n out b', (spqrCalls P sharedSecret s cs).1.braid.receive P m = (.ok out, b') →
        ∀ k : ℕ, ((spqrCalls P sharedSecret s cs).1.ratchetReceiveKey P m n).1 ≠
          .error (.braidKem ("SPQR counter mismatch: advanced to " ++ toString k ++
            ", expected " ++ toString n)) := by
  have h := spqrTally_calls P sharedSecret s cs
  refine ⟨?_, ?_, ?_⟩
  · intro m n rng key st' hok
    cases hr : (spqrCalls P sharedSecret s cs).1.braid.state.receive P m with
    | error e =>
        have hrecv : (spqrCalls P sharedSecret s cs).1.braid.receive P m = (.error e, _) :=
          BraidState.receive_of_error hr
        simp only [SpqrState.ratchetReceiveKey, hrecv] at hok
        cases hok
    | ok out =>
        obtain ⟨b', o⟩ := out
        obtain ⟨st₁, heq, -, -, h₁⟩ := h.toSpqrLocal.ratchetReceiveKey_eq hr
        rw [spqrCalls_recv, h.toSpqrLocal.secretsIn_recv hr]
        rw [heq] at hok
        exact h₁.deriveKey_exact hok
  · intro e n key hkey
    obtain ⟨hn, hc⟩ := h.chains.receiving.skipped_le e n key hkey
    exact ⟨hn, h.chains.receiving.skipped_key e n key hkey, hc⟩
  · intro m n out b' hrecv k
    cases hr : (spqrCalls P sharedSecret s cs).1.braid.state.receive P m with
    | error e =>
        have herr : (spqrCalls P sharedSecret s cs).1.braid.receive P m = (.error e, _) :=
          BraidState.receive_of_error hr
        rw [herr] at hrecv
        cases hrecv
    | ok out =>
        obtain ⟨st₁, heq, -, -, h₁⟩ := h.toSpqrLocal.ratchetReceiveKey_eq hr
        rw [heq]
        exact SpqrState.deriveKey_ne_mismatch (fun c hc => h₁.recvChain_at hc) k

/-- Bob's first receive. -/
theorem receive_keys_index_exact_first :
    ∃ key st', (spqrCalls idealPrims 0 .bob []).1.ratchetReceiveKey idealPrims
        (.idle initialEpoch) 1 = (.ok key, st') ∧
      key = sckaKey idealPrims.hash (recvBase idealPrims.hash (braidAuthSeed idealPrims.hash 0)
        (secretsIn (braidLog (spqrCalls idealPrims 0 .bob
          [.recv (.idle initialEpoch, 1) zeroRng]).2)) .bob 0) 1 :=
  ⟨_, _, rfl, ((receive_keys_index_exact idealPrims 0 .bob []).1 (.idle initialEpoch) 1 zeroRng _ _
    rfl).2⟩

end Hushwire
