import Hushwire.Braid.Injection
import Hushwire.Ratchet.SpqrInvariant

/-!
# The epochs of a ratchet under any calls

Three facts about one `SpqrState` on which any calls are made, with messages of anyone's making.
They are read off `SpqrLocal`, the invariant every such state has.

The pairs of a sending epoch and a PQ counter increase from send to send, and each key is the one
its pair names (`sent_pairs_increase`).  The ratchet and its braid agree on the epoch, so that
`add_epoch` and the lookup of the send chain cannot fail (`epochs_in_step`).  And after a send
only the chain of its epoch and that of the next one are left to send with
(`live_send_chains`): a braid cannot leave an epoch without having sent in it.
-/

namespace Hushwire

open Duplex

variable {Key : Type}

section Exec

variable {P : Prims Key} {sharedSecret : Key} {s : Side} {st st' : SpqrState Key}
  {log : List (SpqrEvent Key)}

/-- The invariant after any calls. -/
lemma spqrLocal_exec (P : Prims Key) (sharedSecret : Key) (s : Side)
    (cs : List (Call Rng (Message × ℕ))) :
    SpqrLocal P sharedSecret s
      ((spqrMachine P).exec (SpqrState.init P sharedSecret (directionOf s), []) cs).1
      ((spqrMachine P).exec (SpqrState.init P sharedSecret (directionOf s), []) cs).2 :=
  (spqrLocal_inductive P sharedSecret s).exec cs _ (spqrLocal_init P sharedSecret s)

/-! ## Sending keys -/

/-- **No sending key is used twice.**  After any calls, the pairs of sending epoch and counter of
the messages sent increase lexicographically, and each key is the one at its number in the send
chain of its epoch. -/
theorem sent_pairs_increase (P : Prims Key) (sharedSecret : Key) (s : Side)
    (cs : List (Call Rng (Message × ℕ))) :
    let log := ((spqrMachine P).exec (SpqrState.init P sharedSecret (directionOf s), []) cs).2
    ((sentKeys log).map Prod.fst).Pairwise (fun p q => p.1 < q.1 ∨ p.1 = q.1 ∧ p.2 < q.2) ∧
      ∀ epoch n key, ((epoch, n), key) ∈ sentKeys log → 1 ≤ n ∧
        key = sckaKey P.hash (sendBase P.hash (braidAuthSeed P.hash sharedSecret)
          (secretsIn (braidLog log)) s epoch) n := by
  intro log
  have h := (spqrLocal_exec P sharedSecret s cs).chains.sending
  exact ⟨h.sorted, h.key_eq⟩

/-! ## The epochs of ratchet and braid -/

/-- A `?` that lets the computation go on. -/
lemma Result.exists_bind_eq_ok {α β : Type} {r : Result α} {k : α → Result β} {a : α}
    (hr : r = .ok a) (hk : ∃ b, k a = .ok b) : ∃ b, r >>= k = .ok b := by
  rw [hr]
  exact hk

/-- The libraries take every input of the right length. -/
structure Prims.Answers (P : Prims Key) : Prop where
  encapsulate1_total : ∀ pk1 r : Bytes, pk1.length = pk1Len → r.length = encapsRandomnessLen →
    ∃ out, P.kem.encapsulate1 pk1 r = .ok out
  codec : P.rs.Correct
  robust : P.Robust

namespace State

/-- The header a braid collects or holds has the right length. -/
def HeaderSized : State Key → Prop
  | noHeaderReceived _ _ hdrDec => hdrDec.Shaped (List.replicate (pk1Len + macSize) 0)
  | headerReceived _ _ header _ => header.length = pk1Len
  | poisoned => False
  | _ => True

variable {b b' : State Key} {m : Message} {o : Option (EpochSecret Key)}

lemma Sends.headerSized {rng : Rng} (h : Sends P rng b b' m o) (hb : b.HeaderSized) :
    b'.HeaderSized := by
  cases h with
  | awaitHeader => exact hb
  | _ => trivial

lemma shaped_hdrDec_new :
    (Decoder.new (pk1Len + macSize)).Shaped (List.replicate (pk1Len + macSize) 0) := by
  simpa using Decoder.shaped_new (List.replicate (pk1Len + macSize) 0)

lemma Receives.headerSized (hR : P.Robust) (h : Receives P m b b' o) (hb : b.HeaderSized) :
    b'.HeaderSized := by
  cases h with
  | ignore hl => exact hb
  | ct2Accept => exact shaped_hdrDec_new
  | hdrMore hepoch htype hadd hmsg => exact hb.of_addChunk hadd
  | hdrReject hepoch htype hadd hmsg hvfy => exact (hb.of_addChunk hadd).reset
  | @hdrAccept epoch auth hdrDec hdrDec' headerWithMac hepoch htype hadd hmsg hvfy =>
      have hstream : Streamable (List.replicate (pk1Len + macSize) 0) := by
        rw [Streamable, List.length_replicate]
        decide
      obtain ⟨o, ho, hlen⟩ := (hb.of_addChunk hadd).message hR hstream
      have hwhole := hlen headerWithMac (Except.ok.inj (ho.symm.trans hmsg))
      rw [List.length_replicate] at hwhole
      show (headerWithMac.take pk1Len).length = pk1Len
      rw [List.length_take, hwhole]
      exact min_eq_left (Nat.le_add_right _ _)
  | _ => trivial

/-- A braid whose header has the right length can send. -/
lemma HeaderSized.send (hP : P.Answers) (hb : b.HeaderSized) (rng : Rng) :
    ∃ out, b.send P rng = .ok out := by
  cases b with
  | keysUnsampled epoch auth =>
      let x := (Exchange.fresh epoch auth).withSeed rng
      have hstream : Streamable (x.headerWithMac P) := Exchange.streamable_headerWithMac
      obtain ⟨enc, henc⟩ := Encoder.exists_new hP.codec hstream
      have hparts : Kem.publicKeyParts P.kem (Kem.generateKeypair P.kem (rng.fill seedLen)) =
          .ok (x.header P, x.ekVector P) := Exchange.kem_publicKeyParts (P := P) (x := x)
      have hnew : Encoder.new P.rs (x.header P ++ auth.macHdr P.hash epoch (x.header P)) =
          .ok enc := henc
      exact Result.exists_bind_eq_ok hparts (Result.exists_bind_eq_ok hnew ⟨_, rfl⟩)
  | headerReceived epoch auth header ekDec =>
      obtain ⟨⟨ct1, st, ss⟩, hkem⟩ := hP.encapsulate1_total header _ hb
        (rng.fill_length encapsRandomnessLen)
      have hlen := (P.kem.encapsulate1_length _ _ _ _ _ hkem).1
      have hstream : Streamable ct1 := by
        rw [Streamable, hlen]
        decide
      obtain ⟨enc, henc⟩ := Encoder.exists_new hP.codec hstream
      have hwrapped : Kem.encapsulate1 P.kem header (rng.fill encapsRandomnessLen) =
          .ok (ct1, st, ss) := by rw [Kem.encapsulate1, hkem]; rfl
      exact Result.exists_bind_eq_ok hwrapped (Result.exists_bind_eq_ok henc ⟨_, rfl⟩)
  | poisoned => exact hb.elim
  | _ => exact ⟨_, rfl⟩

end State

/-- The header stays of the right length whatever calls are made. -/
lemma headerSized_inductive (P : Prims Key) (hR : P.Robust) :
    (braidMachine P).Inductive (fun b _ => b.state.HeaderSized) where
  send b log rng h := by
    cases hs : b.state.send P rng with
    | error e =>
        rw [braidMachine_send_of_error hs]
        exact h
    | ok out =>
        obtain ⟨b', m, o⟩ := out
        rw [braidMachine_send_of_ok hs]
        exact (State.Sends.of_send hs).headerSized h
  recv b log m rng h := by
    cases hr : b.state.receive P m with
    | error e =>
        rw [braidMachine_recv_of_error rng hr]
        exact h
    | ok out =>
        obtain ⟨b', o⟩ := out
        rw [braidMachine_recv_of_ok rng hr]
        exact (State.Receives.of_receive hr).headerSized hR h

/-- What holds of the braid under all calls on it holds of the braid inside a ratchet. -/
lemma SpqrLocal.inner_inductive {Q : BraidState Key → List (Event Key) → Prop}
    (hQ : (braidMachine P).Inductive Q) :
    (spqrMachine P).Inductive (fun st log => SpqrLocal P sharedSecret s st log ∧
      Q st.braid (braidLog log)) where
  send st log rng h := by
    obtain ⟨st', om, own, hcall, hb', -, hown, h'⟩ := h.1.send rng
    rw [hcall]
    refine ⟨h', ?_⟩
    rw [hb', braidLog_append, braidLog_append, braidLog_map, hown, List.append_nil]
    exact hQ.send st.braid (braidLog log) rng h.2
  recv st log m rng h := by
    obtain ⟨st', own, hcall, hb', hown, h'⟩ := h.1.recv m rng
    rw [hcall]
    refine ⟨h', ?_⟩
    rw [hb', braidLog_append, braidLog_append, braidLog_map, hown, List.append_nil]
    exact hQ.recv st.braid (braidLog log) m.1 rng h.2

lemma headerSized_init (P : Prims Key) (sharedSecret : Key) (s : Side) :
    (SpqrState.init P sharedSecret (directionOf s)).braid.state.HeaderSized := by
  cases s with
  | alice => trivial
  | bob => exact State.shaped_hdrDec_new

namespace SpqrLocal

/-- The secrets incorporated are those of the epochs the braid has completed. -/
lemma epoch_eq (h : SpqrLocal P sharedSecret s st log) : st.epoch = st.braid.state.completed :=
  h.chains.epochs.epoch_eq.trans h.braid.length_secretsIn

/-- What a send of the braid completes is the next epoch. -/
lemma incorporate_send (h : SpqrLocal P sharedSecret s st log) {rng : Rng} {out : SckaSend Key}
    {b : BraidState Key} (hsend : st.braid.send P rng = (.ok out, b)) :
    ({ st with braid := b }.incorporate P.hash out.outputKey).1 = .ok () := by
  cases hs : st.braid.state.send P rng with
  | error e =>
      have hfail : st.braid.send P rng = (.error e, st.braid) := BraidState.send_of_error hs
      rw [hfail] at hsend
      cases hsend
  | ok r =>
      obtain ⟨b', m, o⟩ := r
      have hok : st.braid.send P rng = (.ok ⟨m, b'.epoch - 1, o⟩, ⟨b'⟩) := BraidState.send_of_ok hs
      rw [hok] at hsend
      cases hsend
      obtain ⟨st₁, -, hinc, -⟩ := h.chains.incorporateSend h.braid (.of_send hs)
      rw [hinc]

/-- What a receive of the braid completes is the next epoch. -/
lemma incorporate_receive (h : SpqrLocal P sharedSecret s st log) {m : Message}
    {out : SckaReceive Key} {b : BraidState Key} (hrecv : st.braid.receive P m = (.ok out, b)) :
    ({ st with braid := b }.incorporate P.hash out.outputKey).1 = .ok () := by
  cases hr : st.braid.state.receive P m with
  | error e =>
      have hfail : st.braid.receive P m = (.error e, st.braid) := BraidState.receive_of_error hr
      rw [hfail] at hrecv
      cases hrecv
  | ok r =>
      obtain ⟨b', o⟩ := r
      have hok : st.braid.receive P m = (.ok ⟨m.epoch - 1, o⟩, ⟨b'⟩) := BraidState.receive_of_ok hr
      rw [hok] at hrecv
      cases hrecv
      obtain ⟨st₁, hinc, -⟩ := h.chains.incorporateReceive h.braid (.of_receive hr)
      rw [hinc]

/-- A send fails only because the braid's does, and leaves everything as it was. -/
lemma of_send_error (h : SpqrLocal P sharedSecret s st log) {rng : Rng} {e : CryptoError}
    (herr : st.ratchetSendKey P rng = (.error e, st')) :
    (st.braid.send P rng).1 = .error e ∧ st' = st := by
  cases hs : st.braid.state.send P rng with
  | error e' =>
      have hfail : st.braid.send P rng = (.error e', st.braid) := BraidState.send_of_error hs
      simp only [SpqrState.ratchetSendKey, hfail] at herr
      cases herr
      exact ⟨by rw [hfail], rfl⟩
  | ok r =>
      obtain ⟨n, key, st', hsend, -⟩ := h.chains.ratchetSendKey h.braid hs
      rw [hsend] at herr
      cases herr

end SpqrLocal

/-- **Ratchet and braid stay in step, and sending never gets stuck.**  After any calls the braid
is not poisoned and the ratchet's epoch is the last one the braid has completed: the braid's own
once its state is one of those after `ct1` was sampled, and the one before in all others.
Whatever the braid completes next is therefore accepted by `add_epoch`, on both paths, and a send
fails only with an error of the braid itself, which libraries that take inputs of the right
length never cause. -/
theorem epochs_in_step (P : Prims Key) (sharedSecret : Key) (s : Side)
    (cs : List (Call Rng (Message × ℕ))) :
    let st := ((spqrMachine P).exec (SpqrState.init P sharedSecret (directionOf s), []) cs).1
    st.braid.state ≠ .poisoned ∧ st.epoch = st.braid.state.completed ∧
      (∀ rng out b, st.braid.send P rng = (.ok out, b) →
        ({ st with braid := b }.incorporate P.hash out.outputKey).1 = .ok ()) ∧
      (∀ m out b, st.braid.receive P m = (.ok out, b) →
        ({ st with braid := b }.incorporate P.hash out.outputKey).1 = .ok ()) ∧
      (∀ rng e st', st.ratchetSendKey P rng = (.error e, st') →
        (st.braid.send P rng).1 = .error e ∧ st' = st) ∧
      (P.Answers → ∀ rng, ∃ out, (st.ratchetSendKey P rng).1 = .ok out) := by
  intro st
  have h := spqrLocal_exec P sharedSecret s cs
  refine ⟨?_, h.epoch_eq, fun rng out b => h.incorporate_send,
    fun m out b => h.incorporate_receive, fun rng e st' => h.of_send_error, ?_⟩
  · intro hpoisoned
    have hpos : 1 ≤ st.braid.state.epoch := h.braid.epoch_pos
    rw [hpoisoned] at hpos
    exact absurd hpos (Nat.not_succ_le_zero 0)
  · intro hP rng
    have hsized : st.braid.state.HeaderSized :=
      ((SpqrLocal.inner_inductive (headerSized_inductive P hP.robust)).exec cs
        (SpqrState.init P sharedSecret (directionOf s), [])
        ⟨spqrLocal_init P sharedSecret s, headerSized_init P sharedSecret s⟩).2
    obtain ⟨⟨b', m, o⟩, hsend⟩ := hsized.send hP rng
    obtain ⟨n, key, st', hkey, -⟩ := h.chains.ratchetSendKey h.braid hsend
    exact ⟨(m, n, key), by rw [hkey]⟩

lemma idealPrims_answers : idealPrims.Answers where
  encapsulate1_total _ _ _ _ := ⟨_, rfl⟩
  codec := idealPrims_correct.rs
  robust := idealPrims_robust

/-- Calls that complete as many epochs as one likes, and can be followed by a send. -/
lemma exists_exec_completed (hP : P.Correct) (sharedSecret : Key) (s : Side) (epoch : ℕ)
    (rng : Rng) :
    ∃ cs : List (Call Rng (Message × ℕ)),
      let st := ((spqrMachine P).exec (SpqrState.init P sharedSecret (directionOf s), []) cs).1
      epoch ≤ st.braid.state.completed ∧
        ∃ m n key st', st.ratchetSendKey P rng = (.ok (m, n, key), st') ∧
          st.braid.state.epoch = st'.braid.state.epoch := by
  obtain ⟨as, has, hdone⟩ := exists_run_completed hP sharedSecret epoch
  obtain ⟨cs, hcs⟩ := Net.exists_exec (A := spqrMachine P) as (spqrNet P sharedSecret) s
  have hinit : (spqrNet P sharedSecret).node s = SpqrState.init P sharedSecret (directionOf s) := by
    cases s <;> rfl
  have hlog : (spqrNet P sharedSecret).log s = [] := rfl
  rw [hinit, hlog] at hcs
  refine ⟨cs, ?_⟩
  rw [hcs]
  exact ⟨hdone s, exists_ratchetSendKey hP sharedSecret as has s rng⟩

/-- In step after two completed epochs. -/
theorem epochs_in_step_two_epochs : idealPrims.Answers ∧ ∃ cs : List (Call Rng (Message × ℕ)),
    let st := ((spqrMachine idealPrims).exec (SpqrState.init idealPrims 0 (directionOf .alice), [])
      cs).1
    2 ≤ st.epoch ∧ st.epoch = st.braid.state.completed ∧ st.braid.state ≠ .poisoned ∧
      ∃ out, (st.ratchetSendKey idealPrims zeroRng).1 = .ok out := by
  refine ⟨idealPrims_answers, ?_⟩
  obtain ⟨cs, hdone, -⟩ := exists_exec_completed idealPrims_correct 0 .alice 2 zeroRng
  obtain ⟨hpoisoned, hepoch, -, -, -, hsend⟩ := epochs_in_step idealPrims 0 .alice cs
  refine ⟨cs, ?_, hepoch, hpoisoned, hsend idealPrims_answers zeroRng⟩
  rw [hepoch]
  exact hdone

/-! ## Send chains -/

namespace State

/-- The states a party can be in without having sent in its epoch. -/
def maybeSilent : State Key → Bool
  | keysUnsampled _ _ => true
  | noHeaderReceived _ _ _ => true
  | headerReceived _ _ _ _ => true
  | _ => false

/-- Receiving alone does not take a party out of these states, and only from the others does it
lead to the next epoch. -/
lemma Receives.maybeSilent {m : Message} {b b' : State Key} {o : Option (EpochSecret Key)}
    (h : Receives P m b b' o) :
    (o = none ∧ b'.epoch = b.epoch ∧ (b.maybeSilent = true → b'.maybeSilent = true)) ∨
      ((∀ x ∈ o, x.epoch = b.epoch) ∧ b'.epoch = b.epoch + 1 ∧ b.maybeSilent = false ∧
        b'.maybeSilent = true) := by
  cases h with
  | ct2Accept => exact .inr ⟨by simp [State.epoch], rfl, rfl, rfl⟩
  | nextEpoch => exact .inr ⟨by simp, rfl, rfl, rfl⟩
  | ignore => exact .inl ⟨rfl, rfl, id⟩
  | hdrMore => exact .inl ⟨rfl, rfl, fun _ => rfl⟩
  | hdrAccept => exact .inl ⟨rfl, rfl, fun _ => rfl⟩
  | hdrReject => exact .inl ⟨rfl, rfl, fun _ => rfl⟩
  | _ => exact .inl ⟨rfl, rfl, Bool.noConfusion⟩

end State

/-- The chain of the sending epoch and later ones are there to send with; the one before only as
long as nothing was sent in the current epoch. -/
def FewSendChains (st : SpqrState Key) : Prop :=
  ∀ e c, st.sendChain e = some c → st.braid.state.epoch - 1 ≤ e ∨
    st.braid.state.maybeSilent = true ∧ st.braid.state.epoch - 1 ≤ e + 1

namespace SpqrState

/-- A send chain is one from before or that of the epoch just incorporated, which starts at 0. -/
lemma sendChain_incorporate {H : Hash Key} {o : Option (EpochSecret Key)} {e : ℕ}
    {c : SckaChain Key} (h : (st.incorporate H o).2.sendChain e = some c) :
    st.sendChain e = some c ∨ (∃ x ∈ o, x.epoch = e) ∧ c.n = 0 := by
  cases o with
  | none => exact .inl h
  | some x =>
      simp only [incorporate, addEpoch] at h
      split at h
      · exact .inl h
      · by_cases he : x.epoch = e
        · rw [← he, sendChain, Finmap.lookup_insert] at h
          obtain rfl := Option.some.inj h
          exact .inr ⟨⟨x, rfl, he⟩, rfl⟩
        · rw [sendChain, Finmap.lookup_insert_of_ne _ (Ne.symm he)] at h
          exact .inl h

lemma sendChain_clearOldEpochs {low e : ℕ} {c : SckaChain Key}
    (h : (st.clearOldEpochs low).sendChain e = some c) : st.sendChain e = some c := by
  unfold clearOldEpochs at h
  split at h
  · rw [sendChain, Map.lookup_erase_eq_ite] at h
    split at h
    · cases h
    · exact h
  · exact h

/-- After a send there is no send chain for the epoch before, and none that was not there except
that of an epoch the send itself completed.  No chain has moved by more than one. -/
lemma sendChain_ratchetSendKey {rng : Rng} {m : Message} {n : ℕ} {key : Key}
    (hsend : st.ratchetSendKey P rng = (.ok (m, n, key), st')) {e : ℕ} {c : SckaChain Key}
    (hc : st'.sendChain e = some c) :
    ∃ b' o, State.Sends P rng st.braid.state b' m o ∧ st'.braid = ⟨b'⟩ ∧
      e + 1 ≠ b'.epoch - 1 ∧ ((∃ c', st.sendChain e = some c' ∧ c.n ≤ c'.n + 1) ∨
        (∃ x ∈ o, x.epoch = e) ∧ c.n ≤ 1) := by
  cases hs : st.braid.state.send P rng with
  | error err =>
      have hfail : st.braid.send P rng = (.error err, st.braid) := BraidState.send_of_error hs
      simp only [ratchetSendKey, hfail] at hsend
      cases hsend
  | ok r =>
      obtain ⟨b', m', o⟩ := r
      have hok : st.braid.send P rng = (.ok ⟨m', b'.epoch - 1, o⟩, ⟨b'⟩) := BraidState.send_of_ok hs
      simp only [ratchetSendKey, hok] at hsend
      have hbraid₁ : ({ st with braid := ⟨b'⟩ }.incorporate P.hash o).2.braid = ⟨b'⟩ := by
        cases o with
        | none => rfl
        | some x => simp only [incorporate, addEpoch]; split <;> rfl
      have hchain₁ : ∀ c, ({ st with braid := ⟨b'⟩ }.incorporate P.hash o).2.sendChain e = some c →
          { st with braid := ⟨b'⟩ }.sendChain e = some c ∨ (∃ x ∈ o, x.epoch = e) ∧ c.n = 0 :=
        fun c hc => sendChain_incorporate hc
      generalize { st with braid := ⟨b'⟩ }.incorporate P.hash o = inc at hsend hbraid₁ hchain₁
      obtain ⟨_ | _, st₁⟩ := inc
      · cases hsend
      simp only at hsend hbraid₁ hchain₁
      -- what is left after dropping the chain before
      generalize hst₂ : (if o.isSome then st₁.clearOldEpochs (b'.epoch - 1) else st₁) = st₂ at hsend
      have hbraid₂ : st₂.braid = ⟨b'⟩ := by
        rw [← hst₂]
        split
        · unfold clearOldEpochs
          split <;> exact hbraid₁
        · exact hbraid₁
      have hchain₂ : ∀ c, st₂.sendChain e = some c → st₁.sendChain e = some c := by
        intro c hc
        rw [← hst₂] at hc
        split at hc
        · exact sendChain_clearOldEpochs hc
        · exact hc
      obtain ⟨hcore, -, -, -, hdrop⟩ := dropSend_spec (s := st₂) (b'.epoch - 1)
      cases hlow : (st₂.dropSend (b'.epoch - 1)).sendChain (b'.epoch - 1) with
      | none =>
          rw [hlow] at hsend
          cases hsend
      | some chain =>
          rw [hlow] at hsend
          obtain ⟨hval, rfl⟩ := Prod.mk.inj hsend
          obtain ⟨rfl, -⟩ := Prod.mk.inj (Except.ok.inj hval)
          refine ⟨b', o, .of_send hs,
            (sameCore_modifyChains _).braid.trans (hcore.braid.trans hbraid₂), ?_⟩
          have hbefore : ∃ c', (st₂.dropSend (b'.epoch - 1)).sendChain e = some c' ∧
              c.n ≤ c'.n + 1 := by
            rw [sendChain_setSend hlow] at hc
            split at hc
            · rename_i heq
              obtain rfl := Option.some.inj hc
              exact ⟨chain, heq ▸ hlow, le_rfl⟩
            · exact ⟨c, hc, Nat.le_succ _⟩
          obtain ⟨c', hc', hmoved⟩ := hbefore
          rw [hdrop] at hc'
          split at hc'
          · cases hc'
          · rename_i hne
            refine ⟨hne, ?_⟩
            rcases hchain₁ c' (hchain₂ c' hc') with hold | ⟨hnew, hzero⟩
            · exact .inl ⟨c', hold, hmoved⟩
            · rw [hzero] at hmoved
              exact .inr ⟨hnew, hmoved⟩

end SpqrState

/-- Sending leaves at most the chains from the sending epoch on. -/
lemma FewSendChains.send (hfew : FewSendChains st) {rng : Rng} {m : Message} {n : ℕ} {key : Key}
    (hsend : st.ratchetSendKey P rng = (.ok (m, n, key), st')) {e : ℕ} {c : SckaChain Key}
    (hc : st'.sendChain e = some c) : st'.braid.state.epoch - 1 ≤ e := by
  obtain ⟨b', o, hshape, hb', hne, hold | ⟨⟨x, hx, rfl⟩, -⟩⟩ :=
    SpqrState.sendChain_ratchetSendKey hsend hc
  · obtain ⟨c', hc', -⟩ := hold
    have hepoch := hshape.epoch_eq.1
    rw [hb']
    show b'.epoch - 1 ≤ e
    rcases hfew e c' hc' with hle | ⟨-, hle⟩ <;> omega
  · have hepoch : x.epoch = b'.epoch := by
      rcases hshape.shape with ⟨rfl, -⟩ | ⟨ss, auth, rfl, -, -, hepoch, -⟩
      · cases hx
      · obtain rfl := Option.some.inj hx
        exact hepoch.symm
    rw [hb', hepoch]
    exact Nat.sub_le _ _

/-- Deriving a receiving key leaves the braid and the send chains alone. -/
lemma Chains.deriveKey_frame {H : Hash Key} {sk : Key} {secrets : List Key} {low : ℕ}
    {accepted : List (ℕ × ℕ)} {sent : List ((ℕ × ℕ) × Key)}
    (h : Chains H sk s secrets low accepted sent st) (e n : ℕ) :
    (st.deriveKey H e n).2.braid = st.braid ∧
      ∀ e', (st.deriveKey H e n).2.sendChain e' = st.sendChain e' := by
  have hderives : SpqrState.Derives H (recvBase H sk secrets s e) e n st (st.deriveKey H e n).1
      (st.deriveKey H e n).2 := SpqrState.derives_deriveKey
        (fun c hc => h.receiving.recvChain_at hc)
  generalize st.deriveKey H e n = out at hderives
  obtain ⟨r, st'⟩ := out
  cases hderives with
  | rejected hnone hwhy => exact ⟨rfl, fun _ => rfl⟩
  | stored hk hcore hchains hmem hskipped =>
      refine ⟨hcore.braid, ?_⟩
      intro e'
      rw [SpqrState.sendChain, hchains]
      rfl
  | fresh hnone hchain hlt hgap hcore hkeys hsend hrecv hmem hskipped =>
      exact ⟨hcore.braid, hsend⟩

/-- Receiving adds no send chain but that of an epoch it completes, and moves none. -/
lemma SpqrLocal.sendChain_ratchetReceiveKey (h : SpqrLocal P sharedSecret s st log) {m : Message}
    {n : ℕ} {e : ℕ} {c : SckaChain Key} (hc : (st.ratchetReceiveKey P m n).2.sendChain e = some c) :
    st.sendChain e = some c ∨ c.n = 0 := by
  cases hr : st.braid.state.receive P m with
  | error err =>
      have hfail : st.braid.receive P m = (.error err, st.braid) := BraidState.receive_of_error hr
      simp only [SpqrState.ratchetReceiveKey, hfail] at hc
      exact .inl hc
  | ok r =>
      obtain ⟨b', o⟩ := r
      have hok : st.braid.receive P m = (.ok ⟨m.epoch - 1, o⟩, ⟨b'⟩) := BraidState.receive_of_ok hr
      obtain ⟨st₁, hinc, -, -, -, h₁⟩ := h.chains.incorporateReceive h.braid (.of_receive hr)
      simp only [SpqrState.ratchetReceiveKey, hok, hinc] at hc
      rw [(h₁.deriveKey_frame (m.epoch - 1) n).2] at hc
      have hc₁ : ({ st with braid := ⟨b'⟩ }.incorporate P.hash o).2.sendChain e = some c := by
        rw [hinc]
        exact hc
      exact (SpqrState.sendChain_incorporate hc₁).imp_right And.right

/-- Receiving keeps what was left. -/
lemma FewSendChains.recv (hfew : FewSendChains st) (h : SpqrLocal P sharedSecret s st log)
    (m : Message) (n : ℕ) : FewSendChains (st.ratchetReceiveKey P m n).2 := by
  cases hr : st.braid.state.receive P m with
  | error err =>
      have hfail : st.braid.receive P m = (.error err, st.braid) := BraidState.receive_of_error hr
      simp only [SpqrState.ratchetReceiveKey, hfail]
      exact hfew
  | ok r =>
      obtain ⟨b', o⟩ := r
      have hok : st.braid.receive P m = (.ok ⟨m.epoch - 1, o⟩, ⟨b'⟩) := BraidState.receive_of_ok hr
      obtain ⟨st₁, hinc, hb₁, -, -, h₁⟩ := h.chains.incorporateReceive h.braid (.of_receive hr)
      obtain ⟨hb', hsame⟩ := h₁.deriveKey_frame (m.epoch - 1) n
      simp only [SpqrState.ratchetReceiveKey, hok, hinc]
      intro e c hc
      rw [hsame] at hc
      have hold : st.sendChain e = some c ∨ ∃ x ∈ o, x.epoch = e := by
        have hc₁ : ({ st with braid := ⟨b'⟩ }.incorporate P.hash o).2.sendChain e = some c := by
          rw [hinc]
          exact hc
        exact (SpqrState.sendChain_incorporate hc₁).imp_right And.left
      rw [hb', hb₁]
      show b'.epoch - 1 ≤ e ∨ b'.maybeSilent = true ∧ b'.epoch - 1 ≤ e + 1
      rcases (State.Receives.of_receive hr).maybeSilent with
        ⟨rfl, hepoch, hsilent⟩ | ⟨hemitted, hepoch, hspoke, hsilent⟩
      · -- still the same epoch
        have hc' := hold.resolve_right (by simp)
        rw [hepoch]
        exact (hfew e c hc').imp_right (fun hbefore => ⟨hsilent hbefore.1, hbefore.2⟩)
      · -- the next epoch, from a state in which the chain before was gone
        refine .inr ⟨hsilent, ?_⟩
        rcases hold with hc' | ⟨x, hx, rfl⟩
        · rcases hfew e c hc' with hle | ⟨hsilent', -⟩
          · omega
          · rw [hspoke] at hsilent'
            cases hsilent'
        · rw [hemitted x hx]
          omega

lemma fewSendChains_inductive (P : Prims Key) (sharedSecret : Key) (s : Side) :
    (spqrMachine P).Inductive (fun st log => SpqrLocal P sharedSecret s st log ∧
      FewSendChains st) where
  send st log rng h := by
    refine ⟨(spqrLocal_inductive P sharedSecret s).send st log rng h.1, ?_⟩
    cases hsend : st.ratchetSendKey P rng with
    | mk r st' =>
        cases r with
        | ok out =>
            rw [spqrMachine_send_fst, hsend]
            exact fun e c hc => .inl (h.2.send hsend hc)
        | error err =>
            obtain ⟨-, rfl⟩ := h.1.of_send_error hsend
            rw [spqrMachine_send_fst, hsend]
            exact h.2
  recv st log m rng h := by
    refine ⟨(spqrLocal_inductive P sharedSecret s).recv st log m rng h.1, ?_⟩
    rw [spqrMachine_recv_fst]
    exact h.2.recv h.1 m.1 m.2

/-! ### Counters -/

/-- A message carries the epoch of the state that its send leaves. -/
lemma SpqrLocal.epoch_of_ratchetSendKey (h : SpqrLocal P sharedSecret s st log) {rng : Rng}
    {m : Message} {n : ℕ} {key : Key} (hsend : st.ratchetSendKey P rng = (.ok (m, n, key), st')) :
    m.epoch = st'.braid.state.epoch := by
  rcases hs : st.braid.state.send P rng with err | ⟨b', m', o⟩
  · have hfail : st.braid.send P rng = (.error err, st.braid) := BraidState.send_of_error hs
    simp only [SpqrState.ratchetSendKey, hfail] at hsend
    exact absurd (Prod.mk.inj hsend).1 (by simp)
  · obtain ⟨n', key', st'', hsend', hb', -⟩ := h.chains.ratchetSendKey h.braid hs
    obtain ⟨heq, rfl⟩ := Prod.mk.inj (hsend.symm.trans hsend')
    obtain ⟨rfl, -⟩ := Prod.mk.inj (Except.ok.inj heq)
    have hepoch := (State.Sends.of_send hs).epoch_eq
    rw [hb', hepoch.2]
    exact hepoch.1.symm

/-- Neither a send chain nor a message has a number greater than the count of messages sent. -/
structure Counted (st : SpqrState Key) (log : List (SpqrEvent Key)) : Prop where
  chain : ∀ e c, st.sendChain e = some c → c.n ≤ (sentKeys log).length
  sent : ∀ p ∈ sentKeys log, p.1.2 ≤ (sentKeys log).length

lemma counted_inductive (P : Prims Key) (sharedSecret : Key) (s : Side) :
    (spqrMachine P).Inductive (fun st log => SpqrLocal P sharedSecret s st log ∧
      Counted st log) where
  send st log rng h := by
    have h' := (spqrLocal_inductive P sharedSecret s).send st log rng h.1
    refine ⟨h', ?_⟩
    rcases hsend : st.ratchetSendKey P rng with ⟨err | ⟨m, n, key⟩, st'⟩
    · obtain ⟨-, rfl⟩ := h.1.of_send_error hsend
      have hcall : (spqrMachine P).send st' rng = (st', none,
          ((braidMachine P).send st'.braid rng).2.2.map SpqrEvent.braid) := by
        simp only [spqrMachine, hsend]
      rw [hcall]
      refine ⟨?_, ?_⟩
      · rw [sentKeys_append, sentKeys_map, List.append_nil]
        exact h.2.chain
      · rw [sentKeys_append, sentKeys_map, List.append_nil]
        exact h.2.sent
    · have hcall : (spqrMachine P).send st rng = (st', some (m, n),
          ((braidMachine P).send st.braid rng).2.2.map SpqrEvent.braid ++ [.sent m n key]) := by
        simp only [spqrMachine, hsend]
      rw [hcall] at h' ⊢
      have hsent : sentKeys (log ++ (((braidMachine P).send st.braid rng).2.2.map SpqrEvent.braid ++
          [.sent m n key])) = sentKeys log ++ [((m.epoch - 1, n), key)] := by
        rw [sentKeys_append, sentKeys_append, sentKeys_map]
        rfl
      have hchain : ∀ e c, st'.sendChain e = some c → c.n ≤ (sentKeys log).length + 1 := by
        intro e c hc
        obtain ⟨-, -, -, -, -, ⟨c', hc', hle⟩ | ⟨-, hle⟩⟩ :=
          SpqrState.sendChain_ratchetSendKey hsend hc
        · exact hle.trans (Nat.succ_le_succ (h.2.chain e c' hc'))
        · exact hle.trans (Nat.succ_le_succ (Nat.zero_le _))
      refine ⟨?_, ?_⟩
      · rw [hsent, List.length_append]
        exact hchain
      · rw [hsent, List.length_append]
        intro p hp
        rcases List.mem_append.mp hp with hp | hp
        · exact (h.2.sent p hp).trans (Nat.le_succ _)
        · -- the message has the number its chain is at now
          obtain rfl := List.mem_singleton.mp hp
          have hsending := h'.chains.sending
          rw [hsent] at hsending
          obtain ⟨hlow, hle⟩ := hsending.le _ _ _
            (List.mem_append_right _ (List.mem_singleton_self _))
          obtain ⟨c, hc⟩ : ∃ c, st'.sendChain (m.epoch - 1) = some c := by
            refine hsending.live _ ?_ (hlow.trans hsending.low_le)
            rw [h.1.epoch_of_ratchetSendKey hsend]
          exact (hle c hc).trans (hchain _ c hc)
  recv st log m rng h := by
    refine ⟨(spqrLocal_inductive P sharedSecret s).recv st log m rng h.1, ?_⟩
    have hquiet : sentKeys ((spqrMachine P).recv st m rng).2 = [] := by
      simp only [spqrMachine]
      split <;> simp [sentKeys, SpqrEvent.sent?]
    refine ⟨?_, ?_⟩
    · rw [spqrMachine_recv_fst, sentKeys_append, hquiet, List.append_nil]
      intro e c hc
      rcases h.1.sendChain_ratchetReceiveKey hc with hc | hzero
      · exact h.2.chain e c hc
      · rw [hzero]
        exact Nat.zero_le _
    · rw [sentKeys_append, hquiet, List.append_nil]
      exact h.2.sent

/-- The counters in a run, with any messages injected. -/
lemma counted_run (P : Prims Key) (sharedSecret : Key) (as : List (Action Rng (Message × ℕ)))
    (s : Side) : Counted (((spqrNet P sharedSecret).run (spqrMachine P) as).node s)
      (((spqrNet P sharedSecret).run (spqrMachine P) as).log s) := by
  have hinit : ∀ t, Counted ((spqrNet P sharedSecret).node t) ((spqrNet P sharedSecret).log t) := by
    intro t
    refine ⟨?_, List.forall_mem_nil _⟩
    intro e c hc
    rcases eq_or_ne e 0 with rfl | hne
    · have hchain := (SpqrState.init_chains P sharedSecret (directionOf t)).1
      obtain rfl := Option.some.inj (hchain.symm.trans hc)
      exact le_rfl
    · have hlookup : (SpqrState.init P sharedSecret (directionOf t)).sendChain e = some c := hc
      simp only [SpqrState.init, SpqrState.sendChain, Finmap.lookup_insert_of_ne _ hne] at hlookup
      cases hlookup
  exact (Net.inductive_run (P := fun t st log => SpqrLocal P sharedSecret t st log ∧ Counted st log)
    (counted_inductive P sharedSecret) as _
    (fun t => ⟨spqrLocal_init P sharedSecret t, hinit t⟩) s).2

/-- **Forward secrecy of the send chains.**  After any calls and then a send that succeeds, the
only chains left to send with are that of the sending epoch and that of the epoch after it. -/
theorem live_send_chains (P : Prims Key) (sharedSecret : Key) (s : Side)
    (cs : List (Call Rng (Message × ℕ))) (rng : Rng) {m : Message} {n : ℕ} {key : Key}
    {st' : SpqrState Key}
    (hsend : ((spqrMachine P).exec (SpqrState.init P sharedSecret (directionOf s), [])
      cs).1.ratchetSendKey P rng = (.ok (m, n, key), st')) {e : ℕ}
    (hlive : (st'.sendChain e).isSome) :
    e = st'.braid.state.epoch - 1 ∨ e = st'.braid.state.epoch := by
  have hinit : FewSendChains (SpqrState.init P sharedSecret (directionOf s)) := by
    intro e c _
    have hepoch : (SpqrState.init P sharedSecret (directionOf s)).braid.state.epoch = 1 := by
      cases s <;> rfl
    rw [hepoch]
    exact .inl (Nat.zero_le e)
  have h := (fewSendChains_inductive P sharedSecret s).exec cs
    (SpqrState.init P sharedSecret (directionOf s), []) ⟨spqrLocal_init P sharedSecret s, hinit⟩
  obtain ⟨c, hc⟩ := Option.isSome_iff_exists.mp hlive
  have hlow := h.2.send hsend hc
  -- no chain is ahead of the last epoch incorporated
  obtain ⟨log', h'⟩ := h.1.of_ratchetSendKey hsend
  obtain ⟨cs', hcs', -⟩ := Option.bind_eq_some_iff.mp hc
  have hhigh := ((h'.chains.epochs.retained e).mp (Finmap.mem_iff.mpr ⟨cs', hcs'⟩)).1
  have hcompleted := st'.braid.state.completed_le_epoch
  rw [h'.epoch_eq] at hhigh
  omega

/-- After two completed epochs the chain of the sending epoch is there, and that of epoch 0 is
gone. -/
theorem live_send_chains_two_epochs : ∃ cs : List (Call Rng (Message × ℕ)), ∃ m n key st',
    ((spqrMachine idealPrims).exec (SpqrState.init idealPrims 0 (directionOf .alice), [])
        cs).1.ratchetSendKey idealPrims zeroRng = (.ok (m, n, key), st') ∧
      2 ≤ st'.braid.state.epoch ∧ (st'.sendChain (st'.braid.state.epoch - 1)).isSome ∧
      ¬ (st'.sendChain 0).isSome := by
  obtain ⟨cs, hdone, m, n, key, st', hsend, hsame⟩ :=
    exists_exec_completed idealPrims_correct 0 .alice 2 zeroRng
  obtain ⟨log', h'⟩ := (spqrLocal_exec idealPrims 0 .alice cs).of_ratchetSendKey hsend
  have htwo : 2 ≤ st'.braid.state.epoch := by
    rw [← hsame]
    exact hdone.trans (State.completed_le_epoch _)
  obtain ⟨c, hc⟩ := h'.chains.sending.live _ le_rfl h'.chains.sending.low_le
  refine ⟨cs, m, n, key, st', hsend, htwo, Option.isSome_iff_exists.mpr ⟨c, hc⟩, ?_⟩
  intro hzero
  rcases live_send_chains idealPrims 0 .alice cs zeroRng hsend hzero with h | h <;> omega

end Exec

end Hushwire
