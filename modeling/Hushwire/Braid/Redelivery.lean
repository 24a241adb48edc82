import Hushwire.Braid.Network

/-!
# Delivering a braid message twice

On an honest network a braid takes no notice of a message it has been handed before: the state
has moved past what the message was for, or it still collects the object the message belongs to
and holds that codeword already.  `State.Absorbs` is that condition on a state and a message; it
makes the receive a no-op (`State.Absorbs.receive`).

That a state absorbs a message it is handed, and keeps absorbing it from then on, is a fact about
the protocol and not about the machine alone: when the owner starts to listen for `ct2`, say, no
`ct2` codeword can have reached it before, because its peer has not been told to send any.  So the
step lemmas are stated for the views of the two parties, with the order of their phases at hand.
-/

namespace Hushwire

open Duplex

variable {Key : Type}

/-- The decoder holds the codeword of `m`, and too few codewords to return its object. -/
structure Decoder.Absorbs (dec : Decoder) (m : Message) : Prop where
  held : ∃ c, m.chunk = some c ∧ c.data.length = chunkBytes ∧ c.index < dec.totalShards ∧
    c.index ∈ dec.received
  incomplete : dec.hasMessage = false

namespace Decoder

variable {rs : ReedSolomon} {dec dec' : Decoder} {m m' : Message}

lemma Absorbs.addChunk (h : dec.Absorbs m) : State.addChunk dec m = .ok dec := by
  obtain ⟨c, hc, hlen, hlt, hmem⟩ := h.held
  simp [State.addChunk, hc, Decoder.addChunk, hlen, not_le.mpr hlt, Map.orInsert_of_mem hmem]

lemma Absorbs.message (h : dec.Absorbs m) : dec.message rs = .ok none := by
  rw [Decoder.message, h.incomplete]
  rfl

/-- A decoder that still returns nothing absorbs what it was just given. -/
lemma absorbs_of_addChunk (hadd : State.addChunk dec m = .ok dec')
    (hhas : dec'.hasMessage = false) :
    dec'.Absorbs m := by
  refine ⟨?_, hhas⟩
  unfold State.addChunk at hadd
  split at hadd
  · cases hadd
  · rename_i c hc
    unfold Decoder.addChunk at hadd
    split_ifs at hadd with hlen hindex
    cases hadd
    exact ⟨c, hc, not_not.mp hlen, not_le.mp hindex, Map.mem_orInsert.mpr (.inl rfl)⟩

/-- And what it absorbed before. -/
lemma Absorbs.of_addChunk (h : dec.Absorbs m) (hadd : State.addChunk dec m' = .ok dec')
    (hhas : dec'.hasMessage = false) : dec'.Absorbs m := by
  refine ⟨?_, hhas⟩
  obtain ⟨c, hc, hlen, hlt, hmem⟩ := h.held
  unfold State.addChunk at hadd
  split at hadd
  · cases hadd
  · unfold Decoder.addChunk at hadd
    split_ifs at hadd
    cases hadd
    exact ⟨c, hc, hlen, hlt, Map.mem_orInsert.mpr (.inr hmem)⟩

/-- One codeword is not enough for an object of more than one shard. -/
lemma hasMessage_addChunk_new {len : ℕ} (hlen : 1 < dataShardsFor len)
    (hadd : State.addChunk (new len) m = .ok dec) : dec.hasMessage = false := by
  unfold State.addChunk at hadd
  split at hadd
  · cases hadd
  · rename_i c hc
    unfold Decoder.addChunk at hadd
    split_ifs at hadd
    cases hadd
    have hcard : Map.len (Map.orInsert (new len).received c.index c.data) ≤ 1 := by
      rw [Map.len, Map.keys_orInsert]
      exact (Finset.card_insert_le _ _).trans (by simp [new])
    exact decide_eq_false (not_le.mpr (hcard.trans_lt hlen))

end Decoder

namespace State

/-- Receiving `m` would change nothing: the state drops it, or holds its codeword already. -/
def Absorbs (m : Message) : State Key → Prop
  | headerSent epoch _ _ ct1Dec _ => m.epoch = epoch ∧ m.mtype = .ct1 → ct1Dec.Absorbs m
  | ekSentCt1Received epoch _ _ _ ct2Dec => m.epoch = epoch ∧ m.mtype = .ct2 → ct2Dec.Absorbs m
  | noHeaderReceived epoch _ hdrDec => m.epoch = epoch ∧ m.mtype = .hdr → hdrDec.Absorbs m
  | ct1Sampled epoch _ _ _ _ _ ekDec =>
      m.epoch = epoch ∧ (m.mtype = .ek ∨ m.mtype = .ekCt1Ack) → m.mtype = .ek ∧ ekDec.Absorbs m
  | ct1Acknowledged epoch _ _ _ _ ekDec =>
      m.epoch = epoch ∧ m.mtype = .ekCt1Ack → ekDec.Absorbs m
  | st => ¬ st.Listens m

variable {P : Prims Key} {m : Message} {st : State Key}

lemma absorbs_of_not_listens (h : ¬ st.Listens m) : st.Absorbs m := by
  cases st <;> first | exact h | exact fun hl => absurd hl h

/-- **An absorbed message changes nothing.** -/
theorem Absorbs.receive (h : st.Absorbs m) : st.receive P m = .ok (st, none) := by
  by_cases hl : st.Listens m
  swap
  · exact receive_of_not_listens P hl
  cases st with
  | headerSent | ekSentCt1Received | noHeaderReceived | ct1Acknowledged =>
      have hdec := h hl
      simp [State.receive, recvHeaderSent, recvEkSentCt1Received, recvNoHeaderReceived,
        recvCt1Acknowledged, hl.1, hl.2, hdec.addChunk, hdec.message, bind, Except.bind, pure,
        Except.pure]
  | ct1Sampled =>
      obtain ⟨htype, hdec⟩ := h hl
      simp [State.receive, recvCt1Sampled, hl.1, htype, hdec.addChunk, hdec.message, bind,
        Except.bind, pure, Except.pure]
  | _ => exact absurd hl h

end State

/-! ## The two parties -/

section Parties

variable {P : Prims Key} {x : Exchange Key} {po pe : ℕ} {st st' : State Key} {m m' : Message}
  {o : Option (EpochSecret Key)}

/-- A `ct1` codeword of this epoch is sent only once the randomness is drawn. -/
lemma EncMsg.phase_of_ct1 (h : EncMsg P x pe m) (hm : m.epoch = x.epoch ∧ m.mtype = .ct1) :
    2 ≤ pe := by
  cases h with
  | old h => exact absurd hm.1 h.ne
  | ct1 hpe => exact hpe
  | _ => cases hm.2

lemma EncMsg.codeword_of_ct2 (h : EncMsg P x pe m) (hm : m.epoch = x.epoch ∧ m.mtype = .ct2) :
    5 ≤ pe ∧ ∃ c, m = .carrying x.epoch .ct2 c ∧ IsCodeword P.rs (x.ct2WithMac P) c := by
  cases h with
  | old h => exact absurd hm.1 h.ne
  | ct2 hpe hc => exact ⟨hpe, _, rfl, hc⟩
  | _ => cases hm.2

lemma OwnerMsg.codeword_of_hdr (h : OwnerMsg P x po m) (hm : m.epoch = x.epoch ∧ m.mtype = .hdr) :
    ∃ c, m = .carrying x.epoch .hdr c ∧ IsCodeword P.rs (x.headerWithMac P) c := by
  cases h with
  | old h => exact absurd hm.1 h.ne
  | hdr _ hc => exact ⟨_, rfl, hc⟩
  | _ => cases hm.2

/-- An `ek_vector` codeword of this epoch is sent only once `ct1` has begun to arrive. -/
lemma OwnerMsg.phase_of_ek (h : OwnerMsg P x po m)
    (hm : m.epoch = x.epoch ∧ (m.mtype = .ek ∨ m.mtype = .ekCt1Ack)) : 2 ≤ po := by
  cases h with
  | old h => exact absurd hm.1 h.ne
  | ek hpo => exact hpo
  | ekCt1Ack hpo => omega
  | _ => rcases hm.2 with h | h <;> cases h

lemma OwnerMsg.phase_of_next (h : OwnerMsg P x po m) (hm : m.epoch = x.epoch + 1) : 5 ≤ po := by
  cases h with
  | old h => omega
  | next hpo => exact hpo
  | _ => exact absurd hm (by simp [Message.idle, Message.carrying])

/-- **The owner absorbs** what it receives, and what it has absorbed before. -/
lemma OwnerView.absorbs_recv (hP : P.Correct) (v : OwnerView P (Decoder.Genuine P.rs) x po st)
    (hord : Order po pe) (hm' : EncMsg P x pe m') (hr : State.Receives P m' st st' o) :
    st'.Absorbs m' ∧ ∀ m, EncMsg P x pe m → st.Absorbs m → st'.Absorbs m := by
  cases hr with
  | ignore hl => exact ⟨State.absorbs_of_not_listens hl, fun m _ h => h⟩
  | ct1First hepoch htype hadd henc =>
      have hhas := Decoder.hasMessage_addChunk_new (by decide) hadd
      exact ⟨fun _ => Decoder.absorbs_of_addChunk hadd hhas, fun m _ h hl => absurd hl h⟩
  | ct1More hepoch htype hadd hmsg =>
      have hhas := Decoder.hasMessage_of_message hmsg
      exact ⟨fun _ => Decoder.absorbs_of_addChunk hadd hhas,
        fun m _ h hl => (h hl).of_addChunk hadd hhas⟩
  | ct1Done hepoch htype hadd hmsg =>
      -- no `ct2` codeword has been sent yet
      cases v with
      | headerSent hdec henc =>
          refine ⟨fun hl => (nomatch htype.symm.trans hl.2), ?_⟩
          intro m hm _ hl
          have := (hm.codeword_of_ct2 hl).1
          have := hord.ack_after_ct1
          omega
  | ct2First hepoch htype hadd =>
      have hhas := Decoder.hasMessage_addChunk_new (by decide) hadd
      exact ⟨fun _ => Decoder.absorbs_of_addChunk hadd hhas, fun m _ h hl => absurd hl h⟩
  | ct2More hepoch htype hadd hmsg =>
      have hhas := Decoder.hasMessage_of_message hmsg
      exact ⟨fun _ => Decoder.absorbs_of_addChunk hadd hhas,
        fun m _ h hl => (h hl).of_addChunk hadd hhas⟩
  | ct2Accept hepoch htype hadd hmsg hkem hvfy =>
      -- what has been sent so far belongs to this epoch or an earlier one
      cases v with
      | ekSentCt1Received hdec =>
          have hpast : ∀ m, EncMsg P x pe m → ¬ (m.epoch = x.epoch + 1 ∧ m.mtype = .hdr) := by
            intro m hm hl
            have := hm.epoch_le
            omega
          exact ⟨fun hl => absurd hl (hpast m' hm'), fun m hm _ hl => absurd hl (hpast m hm)⟩
  | ct2Reject hepoch htype hadd hmsg hkem hvfy =>
      -- codewords of the peer put together give its ciphertext, and that is not rejected
      cases v with
      | ekSentCt1Received hdec =>
          obtain ⟨-, c, rfl, hc⟩ := hm'.codeword_of_ct2 ⟨hepoch, htype⟩
          obtain ⟨dec', hadd', hgen, -⟩ := hdec.addChunk hP.restores hc
          obtain rfl := Except.ok.inj (hadd'.symm.trans hadd)
          obtain rfl := hgen.eq_of_message hP.restores
            Exchange.streamable_ct2WithMac.totalShardsFor_le hmsg
          cases (Exchange.vfyCt_ct2WithMac hP hkem).symm.trans hvfy
  | hdrMore hepoch | hdrAccept hepoch | hdrReject hepoch =>
      -- the next header is not sent before the peer has moved on
      cases v with
      | finished hdec =>
          have := hm'.epoch_le
          omega
  | _ => cases v

/-- **The encapsulator absorbs** what it receives, and what it has absorbed before. -/
lemma EncView.absorbs_recv (hP : P.Correct) (v : EncView P (Decoder.Genuine P.rs) x pe st)
    (hord : Order po pe) (hm' : OwnerMsg P x po m') (hr : State.Receives P m' st st' o) :
    st'.Absorbs m' ∧ ∀ m, OwnerMsg P x po m → st.Absorbs m → st'.Absorbs m := by
  -- before `ct2` streams the owner cannot have finished the epoch
  have hnext : pe < 5 → ∀ m, OwnerMsg P x po m → ¬ m.epoch = x.epoch + 1 := by
    intro hpe m hm hl
    have := hm.phase_of_next hl
    have := hord.ct2_after_ack
    omega
  cases hr with
  | ignore hl => exact ⟨State.absorbs_of_not_listens hl, fun m _ h => h⟩
  | hdrMore hepoch htype hadd hmsg =>
      have hhas := Decoder.hasMessage_of_message hmsg
      exact ⟨fun _ => Decoder.absorbs_of_addChunk hadd hhas,
        fun m _ h hl => (h hl).of_addChunk hadd hhas⟩
  | hdrAccept => exact ⟨id, fun m _ _ => id⟩
  | hdrReject hepoch htype hadd hmsg hvfy =>
      cases v with
      | noHeaderReceived hdec =>
          obtain ⟨c, rfl, hc⟩ := hm'.codeword_of_hdr ⟨hepoch, htype⟩
          obtain ⟨dec', hadd', hgen, -⟩ := hdec.addChunk hP.restores hc
          obtain rfl := Except.ok.inj (hadd'.symm.trans hadd)
          obtain rfl := hgen.eq_of_message hP.restores
            Exchange.streamable_headerWithMac.totalShardsFor_le hmsg
          cases Exchange.vfyHdr_headerWithMac.symm.trans hvfy
  | ekMore hepoch htype hadd hmsg =>
      have hhas := Decoder.hasMessage_of_message hmsg
      exact ⟨fun _ => ⟨htype, Decoder.absorbs_of_addChunk hadd hhas⟩,
        fun m _ h hl => ⟨(h hl).1, (h hl).2.of_addChunk hadd hhas⟩⟩
  | ekDone hepoch htype hadd hmsg hval =>
      -- an acknowledgement would have moved the state on
      refine ⟨fun hl => (nomatch htype.symm.trans hl.2), ?_⟩
      intro m _ h hl
      have hek := (h ⟨hl.1, .inr hl.2⟩).1
      rw [hl.2] at hek
      cases hek
  | ackFirst hepoch htype hadd hmsg =>
      have hhas := Decoder.hasMessage_of_message hmsg
      exact ⟨fun _ => Decoder.absorbs_of_addChunk hadd hhas,
        fun m _ h hl => (h ⟨hl.1, .inr hl.2⟩).2.of_addChunk hadd hhas⟩
  | ackMore hepoch htype hadd hmsg =>
      have hhas := Decoder.hasMessage_of_message hmsg
      exact ⟨fun _ => Decoder.absorbs_of_addChunk hadd hhas,
        fun m _ h hl => (h hl).of_addChunk hadd hhas⟩
  | ackFirstDone | ackAfterEk | ackDone =>
      cases v
      exact ⟨hnext (by omega) m' hm', fun m hm _ => hnext (by omega) m hm⟩
  | nextEpoch => exact ⟨id, fun m _ _ => id⟩
  | _ => cases v

/-- Sending does not bring back what the owner has absorbed. -/
lemma OwnerView.absorbs_send (v : OwnerView P (Decoder.Genuine P.rs) x po st) (hord : Order po pe)
    {rng : Rng} (hs : State.Sends P rng st st' m' o) (hm : EncMsg P x pe m) (h : st.Absorbs m) :
    st'.Absorbs m := by
  cases hs with
  | sampleKeys =>
      cases v
      intro hl
      have := hm.phase_of_ct1 hl
      have := hord.header_after_keys
      omega
  | encapsulate => cases v
  | _ => exact h

/-- Nor what the encapsulator has. -/
lemma EncView.absorbs_send (v : EncView P (Decoder.Genuine P.rs) x pe st) (hord : Order po pe)
    {rng : Rng} (hs : State.Sends P rng st st' m' o) (hm : OwnerMsg P x po m) (h : st.Absorbs m) :
    st'.Absorbs m := by
  cases hs with
  | encapsulate =>
      cases v
      intro hl
      have := hm.phase_of_ek hl
      have := hord.ct1_after_encaps
      omega
  | sampleKeys => cases v
  | _ => exact h

end Parties

/-! ## Over the network -/

section Network

variable {P : Prims Key} {b : Braids Key} {owner : Side} {x : Exchange Key} {po pe : ℕ}
  {base : List (EpochSecret Key)} {s : Side} {st' : State Key} {m' : Message}
  {o : Option (EpochSecret Key)}

lemma Sync.absorbs_recv (hP : P.Correct) (h : Sync P (Decoder.Genuine P.rs) b owner x po pe base)
    (hm' : m' ∈ b.sent s.other) (hrecv : (b.node s).receive P m' = .ok (st', o)) :
    st'.Absorbs m' ∧ ∀ m ∈ b.sent s.other, (b.node s).Absorbs m → st'.Absorbs m := by
  have hr := State.Receives.of_receive hrecv
  rcases Side.eq_or_eq_other owner s with rfl | rfl
  · obtain ⟨hself, hold⟩ := h.owner_view.absorbs_recv hP h.order (h.enc_sent m' hm') hr
    exact ⟨hself, fun m hm => hold m (h.enc_sent m hm)⟩
  · rw [Side.other_other] at hm' ⊢
    obtain ⟨hself, hold⟩ := h.enc_view.absorbs_recv hP h.order (h.owner_sent m' hm') hr
    exact ⟨hself, fun m hm => hold m (h.owner_sent m hm)⟩

lemma Sync.absorbs_send (h : Sync P (Decoder.Genuine P.rs) b owner x po pe base) {rng : Rng}
    (hsend : (b.node s).send P rng = .ok (st', m', o)) :
    ∀ m ∈ b.sent s.other, (b.node s).Absorbs m → st'.Absorbs m := by
  intro m hm
  rcases Side.eq_or_eq_other owner s with rfl | rfl
  · exact h.owner_view.absorbs_send h.order (.of_send hsend) (h.enc_sent m hm)
  · rw [Side.other_other] at hm
    exact h.enc_view.absorbs_send h.order (.of_send hsend) (h.owner_sent m hm)

/-- Every message that was delivered is absorbed where it was delivered. -/
def Absorbing (net : BraidNet Key) : Prop :=
  ∀ s, ∀ i ∈ net.got s, ∃ m, (net.sent s.other)[i]? = some m ∧ (net.node s).state.Absorbs m

lemma absorbing_step (hP : P.Correct) {net : BraidNet Key} {a : Action Rng Message}
    (h : Joint P (Decoder.Genuine P.rs) (braidsOf net) ∧ Absorbing net) (ha : a.Honest) :
    Joint P (Decoder.Genuine P.rs) (braidsOf (net.step (braidMachine P) a)) ∧
      Absorbing (net.step (braidMachine P) a) := by
  refine ⟨joint_step hP h.1 ha, ?_⟩
  obtain ⟨⟨owner, x, po, pe, base, hsync⟩, habs⟩ := h
  cases a with
  | send s rng =>
      obtain ⟨st', m', o, -, -, -, hsend, -⟩ := hsync.send hP s rng
      have hcall := braidMachine_send_of_ok hsend
      rw [Net.step_send]
      refine Net.forall_side s ?_ ?_
      · intro i hi
        obtain ⟨m, hm, h⟩ := habs s i hi
        refine ⟨m, by rwa [Net.sendAt_sent_other], ?_⟩
        rw [Net.sendAt_node_self]
        exact (congrArg (fun r => r.1.state.Absorbs m) hcall).mpr
          (hsync.absorbs_send hsend m (List.mem_of_getElem? hm) h)
      · intro i hi
        obtain ⟨m, hm, h⟩ := habs s.other i hi
        rw [Side.other_other] at hm ⊢
        refine ⟨m, ?_, by rwa [Net.sendAt_node_other]⟩
        rw [Net.sendAt_sent_self, List.getElem?_append_left (List.getElem?_eq_some_iff.mp hm).1]
        exact hm
  | deliver s i r =>
      cases hm' : (net.sent s.other)[i]? with
      | none => rwa [Net.step_deliver_none r hm']
      | some m' =>
          have hmem : m' ∈ (braidsOf net).sent s.other := List.mem_of_getElem? hm'
          obtain ⟨st', o, -, -, -, -, -, hrecv, -⟩ := hsync.recv hP (tolerant_genuine hP) s hmem
            (hsync.acceptsOnly_genuine hP hmem)
          obtain ⟨hself, hold⟩ := hsync.absorbs_recv hP hmem hrecv
          have hcall := braidMachine_recv_of_ok r hrecv
          rw [Net.step_deliver_some r hm']
          refine Net.forall_side s ?_ ?_
          · intro j hj
            rw [Net.deliverAt_got_self, List.mem_append, List.mem_singleton] at hj
            rw [Net.deliverAt_sent, Net.deliverAt_node, Net.recvAt_node_self]
            rcases hj with hj | rfl
            · obtain ⟨m, hm, h⟩ := habs s j hj
              exact ⟨m, hm, (congrArg (fun r => r.1.state.Absorbs m) hcall).mpr
                (hold m (List.mem_of_getElem? hm) h)⟩
            · exact ⟨m', hm', (congrArg (fun r => r.1.state.Absorbs m') hcall).mpr hself⟩
          · intro j hj
            rw [Net.deliverAt_got_other] at hj
            rw [Net.deliverAt_sent, Net.deliverAt_node, Net.recvAt_node_other]
            exact habs s.other j hj
  | inject s m r => exact ha.elim

/-- **On an honest network a second delivery changes nothing.** -/
theorem absorbing_run (hP : P.Correct) (authSeed : Key) (as : List (Action Rng Message))
    (has : ∀ a ∈ as, a.Honest) : Absorbing ((braidNet P authSeed).run (braidMachine P) as) := by
  have hinit : Absorbing (braidNet P authSeed) := fun s i hi => absurd hi List.not_mem_nil
  exact (Net.run_invariant
    (P := fun net => Joint P (Decoder.Genuine P.rs) (braidsOf net) ∧ Absorbing net)
    (Q := fun _ a => a.Honest) (fun _ _ => absorbing_step hP) as _
    ⟨joint_braidNet (tolerant_genuine hP) authSeed, hinit⟩ (Net.along_of_forall as _ has)).2

end Network

end Hushwire
