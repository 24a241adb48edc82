import Hushwire.Braid.Invariant

/-!
# Injected codewords

What a network that also injects messages can and cannot do to the progress of two braids.

The two objects that carry a MAC, header and `ct2`, recover: foreign codewords in their
decoders cost one reset.  `recovers_from_harmless` is the liveness result for runs in which
every injected message is either ignored by the state it reaches or collected by one of these
two decoders.  The decoders stay `Decoder.Shaped`, which is all the joint invariant asks of
them, and unforgeability keeps foreign objects out.

The other transitions take codewords on trust.  `wedged_run` is the shortest way to exploit
that: one `ct1` codeword of anybody's making takes an owner that is still streaming its header
to the next phase, it never streams the header again, and its peer waits for it forever.
-/

namespace Hushwire

open Duplex

variable {Key : Type}

/-! ## Decoders with foreign codewords -/

namespace Decoder

/-- A decoder for objects of the length of `obj`, with codewords of anyone's making. -/
structure Shaped (obj : Bytes) (dec : Decoder) : Prop where
  len_eq : dec.len = obj.length
  dataShards_eq : dec.dataShards = dataShardsFor obj.length
  recoveryShards_eq : dec.recoveryShards = recoveryShardsFor obj.length
  received_shape : ∀ i d, dec.received.lookup i = some d →
    i < totalShardsFor obj.length ∧ d.length = chunkBytes

variable {obj : Bytes} {dec dec' : Decoder} {c : Chunk}

lemma shaped_new (obj : Bytes) : (new obj.length).Shaped obj where
  len_eq := rfl
  dataShards_eq := rfl
  recoveryShards_eq := rfl
  received_shape := by
    intro i d h
    simp [new] at h

lemma Shaped.reset (h : dec.Shaped obj) : dec.reset.Shaped obj where
  len_eq := h.len_eq
  dataShards_eq := h.dataShards_eq
  recoveryShards_eq := h.recoveryShards_eq
  received_shape := by
    intro i d hd
    simp [Decoder.reset] at hd

lemma Shaped.of_length (h : dec.Shaped obj) {obj' : Bytes} (hlen : obj'.length = obj.length) :
    dec.Shaped obj' where
  len_eq := hlen ▸ h.len_eq
  dataShards_eq := hlen ▸ h.dataShards_eq
  recoveryShards_eq := hlen ▸ h.recoveryShards_eq
  received_shape := hlen ▸ h.received_shape

lemma addChunk_eq_ok (h : dec.addChunk c = .ok dec') :
    c.data.length = chunkBytes ∧ c.index < dec.totalShards ∧
      dec' = { dec with received := Map.orInsert dec.received c.index c.data } := by
  unfold addChunk at h
  split at h
  · cases h
  · rename_i hlen
    split at h
    · cases h
    · rename_i hindex
      exact ⟨not_not.mp hlen, not_le.mp hindex, (Except.ok.inj h).symm⟩

/-- Whatever codeword is admitted, the shape stays. -/
lemma Shaped.addChunk (h : dec.Shaped obj) (hadd : dec.addChunk c = .ok dec') :
    dec'.Shaped obj := by
  obtain ⟨hlen, hindex, rfl⟩ := addChunk_eq_ok hadd
  refine ⟨h.len_eq, h.dataShards_eq, h.recoveryShards_eq, ?_⟩
  intro i d hd
  rcases Map.lookup_orInsert hd with hold | ⟨rfl, rfl, -⟩
  · exact h.received_shape i d hold
  · rw [totalShards, h.dataShards_eq, h.recoveryShards_eq] at hindex
    exact ⟨hindex, hlen⟩

lemma Shaped.keys_subset (h : dec.Shaped obj) :
    dec.received.keys ⊆ Finset.range (totalShardsFor obj.length) := by
  intro i hi
  obtain ⟨d, hd⟩ := Finmap.mem_iff.mp (Finmap.mem_keys.mp hi)
  exact Finset.mem_range.mpr (h.received_shape i d hd).1

/-- With enough codewords held, the missing originals are restored, to something. -/
lemma Shaped.restore {P : Prims Key} (hR : P.Robust) (hobj : Streamable obj)
    (h : dec.Shaped obj) (hcard : dataShardsFor obj.length ≤ dec.received.keys.card) :
    ∃ restored, dec.restore P.rs = .ok restored ∧
      ∀ i, i < dataShardsFor obj.length → dec.received.lookup i = none →
        ∃ s, restored i = some s ∧ s.length = chunkBytes := by
  have hk : dec.dataShards = dataShardsFor obj.length := h.dataShards_eq
  have hr : dec.recoveryShards = recoveryShardsFor obj.length := h.recoveryShards_eq
  have hk16 : u16 (dataShardsFor obj.length) = dataShardsFor obj.length :=
    u16_of_lt (hobj.dataShardsFor_le.trans_lt (by norm_num))
  unfold Decoder.restore
  rw [hk, hr]
  split
  · rename_i hall
    refine ⟨fun _ => none, rfl, ?_⟩
    intro i hi hnone
    rw [hk16, List.all_eq_true] at hall
    have hmem := of_decide_eq_true (hall i (List.mem_range.mpr hi))
    exact absurd hmem (Finmap.lookup_eq_none.mp hnone)
  · have horig : ∀ i d, (if i < dataShardsFor obj.length then dec.received.lookup i else none) =
        some d → i < dataShardsFor obj.length ∧ d.length = chunkBytes := by
      intro i d hd
      split at hd
      · rename_i hi
        exact ⟨hi, (h.received_shape i d hd).2⟩
      · cases hd
    have hrecv : ∀ j d, dec.received.lookup (j + dataShardsFor obj.length) = some d →
        j < recoveryShardsFor obj.length ∧ d.length = chunkBytes := by
      intro j d hd
      obtain ⟨hlt, hlen⟩ := h.received_shape _ d hd
      unfold totalShardsFor at hlt
      exact ⟨by omega, hlen⟩
    have hcount : dataShardsFor obj.length ≤
        ((Finset.range (dataShardsFor obj.length)).filter (fun i =>
          (if i < dataShardsFor obj.length then dec.received.lookup i else none).isSome)).card +
        ((Finset.range (recoveryShardsFor obj.length)).filter (fun j =>
          (dec.received.lookup (j + dataShardsFor obj.length)).isSome)).card :=
      hcard.trans (card_handed_eq h.keys_subset).le
    obtain ⟨restored, hdec, hrest⟩ := hR.decode_total _ _ _ _ (dataShardsFor_pos _)
      hobj.dataShardsFor_le (recoveryShardsFor_pos _)
      ((recoveryShardsFor_le _).trans (by norm_num)) horig hrecv hcount
    refine ⟨restored, by rw [hdec], ?_⟩
    intro i hi hnone
    exact hrest i hi (by rw [if_pos hi]; exact hnone)

/-- Reading out a well-shaped decoder never fails, and what comes out has the right length. -/
lemma Shaped.message {P : Prims Key} (hR : P.Robust) (hobj : Streamable obj)
    (h : dec.Shaped obj) :
    ∃ o, dec.message P.rs = .ok o ∧ ∀ obj', o = some obj' → obj'.length = obj.length := by
  have hhas : dec.hasMessage = decide (dataShardsFor obj.length ≤ dec.received.keys.card) := by
    rw [hasMessage, h.dataShards_eq, Map.len]
  by_cases hcard : dataShardsFor obj.length ≤ dec.received.keys.card
  swap
  · refine ⟨none, ?_, by simp⟩
    rw [Decoder.message, hhas, decide_eq_false hcard]
    rfl
  obtain ⟨restored, hrestore, hrest⟩ := h.restore hR hobj hcard
  have hshard : ∀ i ∈ List.range dec.dataShards, ∃ d, dec.shard restored i = .ok d ∧
      d.length = chunkBytes := by
    intro i hi
    have hik : i < dataShardsFor obj.length := h.dataShards_eq ▸ List.mem_range.mp hi
    have hi16 : u16 i = i := u16_of_lt
      ((hik.trans_le hobj.dataShardsFor_le).trans (by norm_num))
    rw [shard, hi16]
    cases hd : dec.received.lookup i with
    | some d => exact ⟨d, rfl, (h.received_shape i d hd).2⟩
    | none =>
        obtain ⟨d, hd', hlen⟩ := hrest i hik hd
        exact ⟨d, by simp [hd'], hlen⟩
  choose! f hf hflen using hshard
  have hmap := mapM_eq_ok hf
  refine ⟨some (((List.range dec.dataShards).map f).flatten.take dec.len), ?_, ?_⟩
  · rw [Decoder.message, hhas, decide_eq_true hcard, if_pos rfl, hrestore]
    simp [bind, Except.bind, hmap, pure, Except.pure]
  · intro obj' heq
    have hlen : ((List.range dec.dataShards).map f).flatten.length =
        dec.dataShards * chunkBytes := by
      have hconst : ((List.range dec.dataShards).map f).map List.length =
          List.replicate dec.dataShards chunkBytes := by
        rw [List.map_map, List.eq_replicate_iff]
        refine ⟨by simp, ?_⟩
        intro n hn
        obtain ⟨i, hi, rfl⟩ := List.mem_map.mp hn
        exact hflen i hi
      rw [List.length_flatten, hconst, List.sum_replicate, smul_eq_mul]
    rw [← Option.some.inj heq, List.length_take, hlen, h.len_eq, h.dataShards_eq]
    exact min_eq_left (le_dataShardsFor _)

end Decoder

/-- Foreign codewords are no obstacle to the party lemmas. -/
lemma tolerant_shaped {P : Prims Key} (hP : P.Correct) (hR : P.Robust) :
    Tolerant P Decoder.Shaped where
  sized obj dec h := ⟨h.len_eq, h.dataShards_eq, h.recoveryShards_eq⟩
  fresh := Decoder.shaped_new
  reset obj dec h := h.reset
  add obj dec c hobj h hc := by
    have hindex : ¬ dec.totalShards ≤ c.index := by
      rw [Decoder.totalShards, h.dataShards_eq, h.recoveryShards_eq]
      exact not_le.mpr (hc.index_lt hP.restores)
    have hadd : dec.addChunk c =
        .ok { dec with received := Map.orInsert dec.received c.index c.data } := by
      simp [Decoder.addChunk, hc.length_data hP.restores, hindex]
    exact ⟨_, hadd, h.addChunk hadd, Map.keys_orInsert _ _ _⟩
  message obj dec hobj h := by
    obtain ⟨o, hmsg, -⟩ := h.message hR hobj
    exact ⟨o, hmsg⟩
  decapsulate x dec obj h hmsg := by
    obtain ⟨o, hmsg', hlen⟩ := h.message hR Exchange.streamable_ct2WithMac
    have hobj : obj.length = ct2Len + macSize := by
      rw [← Exchange.length_ct2WithMac (P := P) (x := x)]
      exact hlen obj (Except.ok.inj (hmsg'.symm.trans hmsg))
    have htake : (obj.take ct2Len).length = ct2Len := by
      rw [List.length_take, hobj]
      exact min_eq_left (Nat.le_add_right _ _)
    obtain ⟨ss, hss⟩ := hR.decapsulate_total (x.dk P) (x.ct1 P) (obj.take ct2Len)
      (P.kem.keyPairFromSeed_length _) (Exchange.length_ct1 hP) htake
    refine ⟨ss, ?_⟩
    simp only [Kem.decapsulate, Exchange.length_ct1 hP, htake, ne_eq, not_true_eq_false, if_false,
      hss]
    rfl

/-! ## What unforgeability gives -/

section Unforgeability

variable {P : Prims Key} {D : Bytes → Decoder → Prop} {b : Braids Key} {owner : Side}
  {x : Exchange Key} {po pe : ℕ} {base : List (EpochSecret Key)}

lemma State.acceptedTag_epoch {st : State Key} {m : Message} {q : MacQuery Key}
    (h : st.acceptedTag P m = some q) : q.epoch = st.epoch := by
  cases st with
  | noHeaderReceived | ekSentCt1Received =>
      simp only [State.acceptedTag] at h
      repeat' split at h
      all_goals cases h
      all_goals rfl
  | _ => cases h

lemma Sync.epoch_le (h : Sync P D b owner x po pe base) (s : Side) :
    x.epoch ≤ (b.node s).epoch := by
  rcases Side.eq_or_eq_other owner s with rfl | rfl
  · exact h.owner_view.epoch_le
  · exact h.enc_view.epoch_eq.ge

/-- A tag that was accepted and computed belongs to the exchange. -/
lemma Sync.acceptsOnly_of_computed (h : Sync P D b owner x po pe base) {s : Side} {m : Message}
    (hcomp : ∀ q, (b.node s).acceptedTag P m = some q → ∃ t, q ∈ b.tags t) :
    AcceptsOnly P x m (b.node s) := by
  intro q hq
  obtain ⟨t, ht⟩ := hcomp q hq
  have hepoch := State.acceptedTag_epoch hq
  have hle := h.epoch_le s
  cases h.tags_of t q ht with
  | old hlt => omega
  | header => exact .inl rfl
  | ct2 => exact .inr rfl

end Unforgeability

/-! ## Harmless injections -/

/-- The state collects an object that carries a MAC. -/
def State.AwaitsTagged : State Key → Prop
  | .ekSentCt1Received _ _ _ _ _ => True
  | .noHeaderReceived _ _ _ => True
  | _ => False

/-- An injected message is harmless when the peer has sent it anyway, when it is ignored, or
when it reaches a state that collects an object with a MAC. -/
def Harmless (net : BraidNet Key) : Action Rng Message → Prop
  | .send _ _ => True
  | .deliver _ _ _ => True
  | .inject s m _ => m ∈ net.sent s.other ∨
      ((net.node s).state.Listens m → (net.node s).state.AwaitsTagged)

section Harmless

variable {P : Prims Key} {b : Braids Key} {owner : Side} {x : Exchange Key} {po pe : ℕ}
  {base : List (EpochSecret Key)} {st st' : State Key} {m : Message}
  {o : Option (EpochSecret Key)}

lemma Decoder.Shaped.of_addChunk {obj : Bytes} {dec dec' : Decoder} (h : dec.Shaped obj)
    (hadd : State.addChunk dec m = .ok dec') : dec'.Shaped obj := by
  unfold State.addChunk at hadd
  split at hadd
  · cases hadd
  · exact h.addChunk hadd

lemma State.Receives.eq_of_not_listens (h : st.receive P m = .ok (st', o)) (hl : ¬ st.Listens m) :
    st' = st ∧ o = none := by
  rw [State.receive_of_not_listens P hl] at h
  cases h
  exact ⟨rfl, rfl⟩

/-- **The owner and a harmless message.**  Foreign `ct2` codewords fill the decoder or have it
reset; what finishes the epoch is the exchange's own `ct2`. -/
lemma OwnerView.inject (hP : P.Correct) (v : OwnerView P Decoder.Shaped x po st)
    (hord : Order po pe) (hharm : st.Listens m → st.AwaitsTagged)
    (hacc : AcceptsOnly P x m st) (hrecv : st.receive P m = .ok (st', o)) :
    ∃ po', o = (if po < po' ∧ po' = 5 then some (x.secret P) else none) ∧
      OwnerView P Decoder.Shaped x po' st' ∧ Order po' pe ∧ po ≤ po' ∧ (1 ≤ po' → 1 ≤ po) := by
  by_cases hl : st.Listens m
  swap
  · obtain ⟨rfl, rfl⟩ := State.Receives.eq_of_not_listens hrecv hl
    exact ⟨po, by simp, v, hord, le_rfl, id⟩
  have htagged := hharm hl
  have hcases := State.Receives.of_receive hrecv
  cases v with
  | ekSentCt1Received hdec =>
      cases hcases with
      | ignore => exact ⟨4, by simp, .ekSentCt1Received hdec, hord, le_rfl, id⟩
      | ct2More _ _ hadd _ =>
          exact ⟨4, by simp, .ekSentCt1Received (hdec.of_addChunk hadd), hord, le_rfl, id⟩
      | ct2Reject _ _ hadd _ _ _ =>
          exact ⟨4, by simp, .ekSentCt1Received (hdec.of_addChunk hadd).reset, hord, le_rfl, id⟩
      | ct2Accept hepoch htype hadd hmsg hkem hvfy =>
          have hq := hacc.ct2Tag (State.acceptedTag_ct2 hepoch htype hadd hmsg hkem hvfy)
          have hss := rawSs_of_ct2Tag hP hkem hq
          subst hss
          refine ⟨5, by simp [Exchange.secret, Exchange.ss], .finished ?_, ?_, by omega, by omega⟩
          · intro obj hobj
            exact hobj ▸ Decoder.shaped_new obj
          · have := hord.ct2_after_ack
            constructor <;> omega
  | finished hdec =>
      cases hcases with
      | ignore => exact ⟨5, by simp, .finished hdec, hord, le_rfl, id⟩
      | hdrMore _ _ hadd _ =>
          exact ⟨5, by simp, .finished (fun obj hobj => (hdec obj hobj).of_addChunk hadd), hord,
            le_rfl, id⟩
      | hdrReject _ _ hadd _ _ =>
          exact ⟨5, by simp, .finished (fun obj hobj => ((hdec obj hobj).of_addChunk hadd).reset),
            hord, le_rfl, id⟩
      | hdrAccept hepoch htype hadd hmsg hvfy =>
          -- a header of the next epoch: nobody has computed its tag yet
          have hq := hacc.headerTag (State.acceptedTag_hdr hepoch htype hadd hmsg hvfy)
          exact absurd (congrArg MacQuery.epoch hq) (Nat.succ_ne_self _)
  | _ => exact htagged.elim

/-- **The encapsulator and a harmless message.** -/
lemma EncView.inject (v : EncView P Decoder.Shaped x pe st) (hord : Order po pe)
    (hharm : st.Listens m → st.AwaitsTagged) (hacc : AcceptsOnly P x m st)
    (hsampled : ∀ q, st.acceptedTag P m = some q → 1 ≤ po)
    (huns : po = 0 → ∀ rng, EncView P Decoder.Shaped (x.withSeed rng) pe st)
    (hrecv : st.receive P m = .ok (st', o)) :
    ∃ pe', o = none ∧ EncView P Decoder.Shaped x pe' st' ∧ Order po pe' ∧ pe ≤ pe' ∧
      (2 ≤ pe' → pe' = pe) ∧
      (po = 0 → ∀ rng, EncView P Decoder.Shaped (x.withSeed rng) pe' st') := by
  by_cases hl : st.Listens m
  swap
  · obtain ⟨rfl, rfl⟩ := State.Receives.eq_of_not_listens hrecv hl
    exact ⟨pe, rfl, v, hord, le_rfl, fun _ => rfl, huns⟩
  have htagged := hharm hl
  have hcases := State.Receives.of_receive hrecv
  have hlen : ∀ y z : Exchange Key, (y.headerWithMac P).length = (z.headerWithMac P).length :=
    fun y z => Exchange.length_headerWithMac.trans Exchange.length_headerWithMac.symm
  cases v with
  | noHeaderReceived hdec =>
      cases hcases with
      | ignore =>
          exact ⟨0, rfl, .noHeaderReceived hdec, hord, le_rfl, fun _ => rfl, huns⟩
      | hdrMore _ _ hadd _ =>
          have hdec' := hdec.of_addChunk hadd
          exact ⟨0, rfl, .noHeaderReceived hdec', hord, le_rfl, fun _ => rfl,
            fun _ rng => .noHeaderReceived (hdec'.of_length (hlen _ _))⟩
      | hdrReject _ _ hadd _ _ =>
          have hdec' := (hdec.of_addChunk hadd).reset
          exact ⟨0, rfl, .noHeaderReceived hdec', hord, le_rfl, fun _ => rfl,
            fun _ rng => .noHeaderReceived (hdec'.of_length (hlen _ _))⟩
      | hdrAccept hepoch htype hadd hmsg hvfy =>
          have htag := State.acceptedTag_hdr hepoch htype hadd hmsg hvfy
          have hpo := hsampled _ htag
          have hheader := congrArg MacQuery.data (hacc.headerTag htag)
          refine ⟨1, rfl, ?_, ?_, by omega, by omega, by omega⟩
          · have hview : EncView P Decoder.Shaped x 1 (.headerReceived x.epoch x.auth (x.header P)
                (Decoder.new pk2Len)) := .headerReceived rfl
            rwa [show x.header P = _ from hheader.symm] at hview
          · have := hord.ct1_after_encaps
            constructor <;> omega
  | _ => exact htagged.elim

lemma State.tagsOnReceive_of_harmless (hharm : st.Listens m → st.AwaitsTagged) :
    st.tagsOnReceive P m = [] := by
  cases st with
  | ct1Sampled | ct1Acknowledged | ekReceivedCt1Sampled =>
      refine if_neg ?_
      rintro ⟨hepoch, htype⟩
      exact hharm (by simp [State.Listens, hepoch, htype])
  | _ => rfl

/-- **A harmless injection** leaves the parties in step. -/
lemma Sync.inject (hP : P.Correct) (h : Sync P Decoder.Shaped b owner x po pe base) (s : Side)
    (hharm : (b.node s).Listens m → (b.node s).AwaitsTagged)
    (hcomp : ∀ q, (b.node s).acceptedTag P m = some q → ∃ t, q ∈ b.tags t)
    (hrecv : (b.node s).receive P m = .ok (st', o)) :
    ∃ po' pe', Sync P Decoder.Shaped (b.put s st' o.toList [] ((b.node s).tagsOnReceive P m))
      owner x po' pe' base := by
  have hacc := h.acceptsOnly_of_computed hcomp
  rcases Side.eq_or_eq_other owner s with rfl | rfl
  · obtain ⟨po', rfl, hview, hord, hle, hback⟩ :=
      h.owner_view.inject hP h.order hharm hacc hrecv
    exact ⟨po', pe, (h.recvd_owner m hview hord hle hback).1⟩
  · have hsampled : ∀ q, (b.node owner.other).acceptedTag P m = some q → 1 ≤ po := by
      intro q hq
      obtain ⟨t, ht⟩ := hcomp q hq
      have hepoch := State.acceptedTag_epoch hq
      have hle := h.epoch_le owner.other
      cases h.tags_of t q ht with
      | old hlt => omega
      | header hpo => exact hpo
      | ct2 hpe => exact h.order.header_after_keys (by omega)
    obtain ⟨pe', rfl, hview, hord, hle, hsame, huns⟩ :=
      h.enc_view.inject h.order hharm hacc hsampled h.unsampled hrecv
    rw [State.tagsOnReceive_of_harmless hharm]
    refine ⟨po, pe', (h.recvd_enc hview hord hle ?_ huns (by simp) ?_).1⟩
    · intro hpe
      exact hsame hpe ▸ hpe
    · rintro rfl
      exact List.mem_append_left _ (h.ct2_tag (hsame (by omega)).symm)

end Harmless

/-! ## Recovery -/

section Recovery

variable {P : Prims Key} {net : BraidNet Key} {s : Side}

/-- A failed receive that computed no tag leaves everything as it was. -/
lemma braids_recvAt_of_error {m : Message} (r : Rng) {e : CryptoError}
    (h : (net.node s).state.receive P m = .error e)
    (hts : (net.node s).state.tagsOnReceive P m = []) :
    braidsOf (net.recvAt (braidMachine P) s m r) = braidsOf net := by
  have hcall : (braidMachine P).recv (net.node s) m r = (net.node s, []) := by
    simp [braidMachine_recv_of_error r h, hts]
  simp [Net.recvAt, hcall, Function.update_eq_self]

lemma joint_recv_shaped (hP : P.Correct) (hR : P.Robust) {m : Message} (r : Rng)
    (h : Joint P Decoder.Shaped (braidsOf net)) (hm : m ∈ net.sent s.other)
    (hforge : ∀ q, (net.node s).state.acceptedTag P m = some q → Computed net q) :
    Joint P Decoder.Shaped (braidsOf (net.recvAt (braidMachine P) s m r)) := by
  obtain ⟨owner, x, po, pe, base, h⟩ := h
  obtain ⟨st', o, owner', x', po', pe', base', hrecv, h', -⟩ :=
    h.recv hP (tolerant_shaped hP hR) s hm (h.acceptsOnly_of_computed hforge)
  rw [braids_recvAt r hrecv]
  exact ⟨_, _, _, _, _, h'⟩

/-- **One step with harmless injections.** -/
lemma joint_step_shaped (hP : P.Correct) (hR : P.Robust) {a : Action Rng Message}
    (h : Joint P Decoder.Shaped (braidsOf net)) (ha : Harmless net a ∧ Unforgeable P net a) :
    Joint P Decoder.Shaped (braidsOf (net.step (braidMachine P) a)) := by
  obtain ⟨hharm, hforge⟩ := ha
  cases a with
  | send s rng =>
      obtain ⟨st', m, o, hsend, h'⟩ := h.send hP s rng
      rw [Net.step_send, braids_sendAt hsend]
      exact h'
  | deliver s i r =>
      cases hm : (net.sent s.other)[i]? with
      | none => rwa [Net.step_deliver_none r hm]
      | some m =>
          rw [Net.step_deliver_some r hm, braids_deliverAt]
          exact joint_recv_shaped hP hR r h (List.mem_of_getElem? hm) (hforge m hm)
  | inject s m r =>
      rw [Net.step_inject]
      rcases hharm with hm | hharm
      · exact joint_recv_shaped hP hR r h hm hforge
      cases hrecv : (net.node s).state.receive P m with
      | error e =>
          rwa [braids_recvAt_of_error r hrecv (State.tagsOnReceive_of_harmless hharm)]
      | ok p =>
          obtain ⟨st', o⟩ := p
          obtain ⟨owner, x, po, pe, base, h⟩ := h
          obtain ⟨po', pe', h'⟩ := h.inject hP s hharm hforge hrecv
          rw [braids_recvAt r hrecv]
          exact ⟨_, _, _, _, _, h'⟩

/-- However an honest network goes on from here, no MAC is forged. -/
def ForgeryFree (P : Prims Key) (net : BraidNet Key) : Prop :=
  ∀ bs : List (Action Rng Message), (∀ b ∈ bs, b.Honest) →
    Net.Along (braidMachine P) (Unforgeable P) net bs

lemma ForgeryFree.exchange (h : ForgeryFree P net) (s : Side) (r r' : Rng) :
    ForgeryFree P (net.exchange (braidMachine P) s r r') := by
  obtain ⟨as, has, hrun⟩ := Net.exists_run_exchange (A := braidMachine P) net s r r'
  intro bs hbs
  have hall : ∀ a ∈ as ++ bs, a.Honest := by
    intro a ha
    rcases List.mem_append.mp ha with ha | ha
    · exact has a ha
    · exact hbs a ha
  have halong := ((Net.along_append as bs net).mp (h _ hall)).2
  rwa [hrun] at halong

lemma ForgeryFree.trusting (h : ForgeryFree P net) : Trusting P Decoder.Shaped net := by
  intro s rng m owner x po pe base hm hsync
  have halong := h [.send s rng, .deliver s.other (net.sent s).length rng] (by
    intro a ha
    simp only [List.mem_cons, List.not_mem_nil, or_false] at ha
    rcases ha with rfl | rfl <;> trivial)
  have hget : ((net.sendAt (braidMachine P) s rng).sent s.other.other)[(net.sent s).length]? =
      some m := by
    rw [Side.other_other, Net.sendAt_sent_self, hm]
    simp
  have hacc := hsync.acceptsOnly_of_computed (halong.2.1 m hget)
  rwa [braids_sendAt_node_other] at hacc

/-- **Recovery from harmless injections.**  Take any run in which every injected message is
ignored, is one the peer has sent, or is collected by the header or the `ct2` decoder, and
assume that no MAC is forged in it or after it.  Then there is a number of loss-free rounds
after which both parties have emitted the secret of every epoch up to the higher of the two
current ones. -/
theorem recovers_from_harmless (hP : P.Correct) (hR : P.Robust) (authSeed : Key)
    (as : List (Action Rng Message))
    (hharm : Net.Along (braidMachine P) Harmless (braidNet P authSeed) as)
    (hforge : ∀ bs : List (Action Rng Message), (∀ b ∈ bs, b.Honest) →
      Net.Along (braidMachine P) (Unforgeable P) (braidNet P authSeed) (as ++ bs)) :
    ∃ N, ∀ ρs : List (Net.Round Rng), ρs.length = N →
      ∀ s e, 1 ≤ e →
        e ≤ max (((braidNet P authSeed).run (braidMachine P) as).node .alice).state.epoch
          (((braidNet P authSeed).run (braidMachine P) as).node .bob).state.epoch →
        ∃ y ∈ secretsOf (((braidNet P authSeed).run (braidMachine P) as).rounds (braidMachine P) ρs)
          s, y.epoch = e := by
  have T := tolerant_shaped hP hR
  have hfree : ForgeryFree P ((braidNet P authSeed).run (braidMachine P) as) := by
    intro bs hbs
    exact ((Net.along_append as bs _).mp (hforge bs hbs)).2
  have halong : Net.Along (braidMachine P) (fun net a => Harmless net a ∧ Unforgeable P net a)
      (braidNet P authSeed) as := by
    have hunf := hforge [] (by simp)
    rw [List.append_nil] at hunf
    exact Net.along_and as _ hharm hunf
  obtain ⟨owner, x, po, pe, base, h⟩ := Net.run_invariant
    (P := fun net => Joint P Decoder.Shaped (braidsOf net))
    (fun _ _ => joint_step_shaped hP hR) as _ (joint_braidNet T authSeed) halong
  generalize (braidNet P authSeed).run (braidMachine P) as = net at *
  generalize max (net.node .alice).state.epoch (net.node .bob).state.epoch = epoch
  refine ⟨distance P (11 * (epoch + 1)) (braidsOf net) owner x po pe, ?_⟩
  intro ρs hlen s e he hle
  have hreach := Net.rounds_reach
    (B := fun n net => Near P Decoder.Shaped (11 * (epoch + 1)) n net ∧ ForgeryFree P net)
    (A := braidMachine P) ?_ ρs _ net ⟨⟨owner, x, po, pe, base, h, le_rfl⟩, hfree⟩ hlen.ge
  · exact hreach.1.emitted s he hle
  intro n net ρ hn
  have hfree' := hn.2.exchange .alice ρ.aliceSend ρ.bobRecv
  exact ⟨near_round hP T _ n ρ hn.2.trusting hfree'.trusting hn.1,
    hfree'.exchange .bob ρ.bobSend ρ.aliceRecv⟩

/-- A header codeword that does not complete a header with a valid tag stays in the decoder, or is
thrown away with the rest of it. -/
lemma inject_hdr {s : Side} {epoch : ℕ} {auth : Authenticator Key} {dec dec' : Decoder} {c : Chunk}
    {o : Option Bytes} (hnode : net.node s = ⟨.noHeaderReceived epoch auth dec⟩)
    (hadd : dec.addChunk c = .ok dec') (hmsg : dec'.message P.rs = .ok o)
    (hvfy : ∀ obj ∈ o, auth.vfyHdr P.hash epoch (obj.take pk1Len) (obj.drop pk1Len) ≠ .ok ())
    (r : Rng) :
    net.step (braidMachine P) (.inject s (.carrying epoch .hdr c) r) =
        { net with
          node := Function.update net.node s
            ⟨.noHeaderReceived epoch auth (if o.isSome then dec'.reset else dec')⟩ } ∧
      Harmless net (.inject s (.carrying epoch .hdr c) r) ∧
      Unforgeable P net (.inject s (.carrying epoch .hdr c) r) := by
  have hadd' : State.addChunk dec ⟨epoch, .hdr, some c⟩ = .ok dec' := hadd
  have hrecv : (State.noHeaderReceived epoch auth dec).receive P (.carrying epoch .hdr c) =
      .ok (.noHeaderReceived epoch auth (if o.isSome then dec'.reset else dec'), none) ∧
      (State.noHeaderReceived epoch auth dec).acceptedTag P (.carrying epoch .hdr c) = none := by
    rcases o with - | obj
    · simp [State.receive, State.recvNoHeaderReceived, State.acceptedTag, Message.carrying, hmsg,
        hadd', bind, Except.bind, pure, Except.pure]
    · rcases hres : auth.vfyHdr P.hash epoch (obj.take pk1Len) (obj.drop pk1Len) with err | ⟨⟩
      · simp [State.receive, State.recvNoHeaderReceived, State.acceptedTag, Message.carrying, hmsg,
          hadd', hres, bind, Except.bind, pure, Except.pure]
      · exact absurd hres (hvfy obj rfl)
  refine ⟨?_, .inr fun _ => ?_, ?_⟩
  · rw [Net.step_inject, Net.recvAt, hnode, braidMachine_recv_of_ok r hrecv.1]
    simp [State.tagsOnReceive, Function.update_eq_self]
  · rw [hnode]
    trivial
  · intro q hq
    rw [hnode, hrecv.2] at hq
    cases hq

/-- A codeword that belongs to nothing. -/
def zeroChunk : Chunk := ⟨0, List.replicate chunkBytes 0⟩

/-- A header with this tag, in three codewords. -/
def forgedCodewords (tag : Bytes) : List Chunk := [zeroChunk, ⟨1, zeroChunk.data⟩, ⟨2, tag⟩]

/-- Before anything else happens, Bob is handed the three codewords. -/
def forgedHeader (tag : Bytes) : List (Action Rng Message) :=
  (forgedCodewords tag).map fun c => .inject .bob (.carrying initialEpoch .hdr c) zeroRng

/-- The header decoder with the first `n` of them. -/
def forgedDecoder (tag : Bytes) (n : ℕ) : Decoder :=
  { Decoder.new (pk1Len + macSize) with
    received := ((forgedCodewords tag).take n).foldl
      (fun held c => Finmap.insert c.index c.data held) ∅ }

lemma message_forgedDecoder (rs : ReedSolomon) {tag : Bytes} (hlen : tag.length = 32) :
    (forgedDecoder tag 3).message rs = .ok (some (List.replicate pk1Len 0 ++ tag)) := by
  have hread : (forgedDecoder tag 3).message rs =
      .ok (some ((zeroChunk.data ++ (zeroChunk.data ++ (tag ++ []))).take
        (pk1Len + macSize))) := rfl
  have hall : (List.replicate pk1Len 0 ++ tag).length = pk1Len + macSize := by
    rw [List.length_append, List.length_replicate, hlen]
    rfl
  rw [hread, List.append_nil, ← List.append_assoc, zeroChunk, List.replicate_append_replicate]
  exact congrArg (fun obj => Except.ok (some obj)) (List.take_of_length_le hall.le)

/-- The network with Bob holding the first `n` of them. -/
def forgedNet (P : Prims Key) (authSeed : Key) (tag : Bytes) (n : ℕ) : BraidNet Key :=
  { braidNet P authSeed with
    node := Function.update (braidNet P authSeed).node .bob ⟨.noHeaderReceived initialEpoch
      (Authenticator.init P.hash initialEpoch authSeed) (forgedDecoder tag n)⟩ }

lemma forgedNet_zero (authSeed : Key) (tag : Bytes) :
    forgedNet P authSeed tag 0 = braidNet P authSeed := by
  have hself : Function.update (braidNet P authSeed).node .bob ⟨.noHeaderReceived initialEpoch
      (Authenticator.init P.hash initialEpoch authSeed) (forgedDecoder tag 0)⟩ =
      (braidNet P authSeed).node := Function.update_eq_self _ _
  rw [forgedNet, hself]

/-- **A forged header leaves no trace.**  Bob collects it, finds its tag wrong and starts over. -/
lemma forgedHeader_rejected (authSeed : Key) {tag : Bytes} (hlen : tag.length = 32)
    (hne : (Authenticator.init P.hash initialEpoch authSeed).macHdr P.hash initialEpoch
      (List.replicate pk1Len 0) ≠ tag) :
    (braidNet P authSeed).run (braidMachine P) (forgedHeader tag) = braidNet P authSeed ∧
      Net.Along (braidMachine P) Harmless (braidNet P authSeed) (forgedHeader tag) ∧
      Net.Along (braidMachine P) (Unforgeable P) (braidNet P authSeed) (forgedHeader tag) := by
  have hnode (n : ℕ) : (forgedNet P authSeed tag n).node .bob = ⟨.noHeaderReceived initialEpoch
      (Authenticator.init P.hash initialEpoch authSeed) (forgedDecoder tag n)⟩ := by
    simp only [forgedNet, Function.update_self]
  have hagain (n : ℕ) (st : BraidState Key) : { forgedNet P authSeed tag n with
      node := Function.update (forgedNet P authSeed tag n).node .bob st } =
      { braidNet P authSeed with
        node := Function.update (braidNet P authSeed).node .bob st } := by
    rw [forgedNet, Function.update_idem]
  have hnone : ∀ obj ∈ (none : Option Bytes),
      (Authenticator.init P.hash initialEpoch authSeed).vfyHdr P.hash initialEpoch
        (obj.take pk1Len) (obj.drop pk1Len) ≠ .ok () := fun _ hobj => by cases hobj
  have hvfy : ∀ obj ∈ some (List.replicate pk1Len 0 ++ tag),
      (Authenticator.init P.hash initialEpoch authSeed).vfyHdr P.hash initialEpoch
        (obj.take pk1Len) (obj.drop pk1Len) ≠ .ok () := by
    rintro obj ⟨⟩
    rw [List.take_left' List.length_replicate, List.drop_left' List.length_replicate,
      Authenticator.vfyHdr, Auth.verify, if_neg (not_not.mpr hlen), if_neg hne]
    intro h
    cases h
  have hadd : (forgedDecoder tag 2).addChunk ⟨2, tag⟩ = .ok (forgedDecoder tag 3) :=
    if_neg (not_not.mpr hlen)
  obtain ⟨hstep₁, hharm₁, hunf₁⟩ := inject_hdr (c := zeroChunk) (hnode 0) rfl rfl hnone zeroRng
  obtain ⟨hstep₂, hharm₂, hunf₂⟩ := inject_hdr (c := ⟨1, zeroChunk.data⟩) (hnode 1) rfl rfl hnone
    zeroRng
  obtain ⟨hstep₃, hharm₃, hunf₃⟩ := inject_hdr (hnode 2) hadd (message_forgedDecoder P.rs hlen) hvfy
    zeroRng
  have hnext₁ : (forgedNet P authSeed tag 0).step (braidMachine P) _ = forgedNet P authSeed tag 1 :=
    hstep₁.trans (hagain 0 _)
  have hnext₂ : (forgedNet P authSeed tag 1).step (braidMachine P) _ = forgedNet P authSeed tag 2 :=
    hstep₂.trans (hagain 1 _)
  have hnext₃ : (forgedNet P authSeed tag 2).step (braidMachine P) _ = forgedNet P authSeed tag 0 :=
    hstep₃.trans (hagain 2 _)
  rw [← forgedNet_zero authSeed tag]
  refine ⟨?_, ⟨hharm₁, ?_⟩, hunf₁, ?_⟩
  · simp only [forgedHeader, forgedCodewords, List.map_cons, List.map_nil, Net.run_cons,
      Net.run_nil, hnext₁, hnext₂, hnext₃]
  · rw [hnext₁]
    refine ⟨hharm₂, ?_⟩
    rw [hnext₂]
    exact ⟨hharm₃, trivial⟩
  · rw [hnext₁]
    refine ⟨hunf₂, ?_⟩
    rw [hnext₂]
    exact ⟨hunf₃, trivial⟩

/-- A header that somebody makes up, and the two parties finish the epoch. -/
theorem recovers_from_forgedHeader : ∃ tag : Bytes, tag.length = 32 ∧
    Net.Along (braidMachine idealPrims) Harmless (braidNet idealPrims 0) (forgedHeader tag) ∧
    ∃ N, ∀ ρs : List (Net.Round Rng), ρs.length = N →
      ∀ s e, 1 ≤ e →
        e ≤ max (((braidNet idealPrims 0).run (braidMachine idealPrims) (forgedHeader tag)).node
            .alice).state.epoch
          (((braidNet idealPrims 0).run (braidMachine idealPrims) (forgedHeader tag)).node
            .bob).state.epoch →
        ∃ y ∈ secretsOf (((braidNet idealPrims 0).run (braidMachine idealPrims)
          (forgedHeader tag)).rounds (braidMachine idealPrims) ρs) s, y.epoch = e := by
  -- any tag but the right one
  obtain ⟨tag, hlen, hne⟩ : ∃ tag : Bytes, tag.length = 32 ∧
      (Authenticator.init idealPrims.hash initialEpoch 0).macHdr idealPrims.hash initialEpoch
        (List.replicate pk1Len 0) ≠ tag := by
    by_contra! hall
    have hboth := (hall (List.replicate 32 0) List.length_replicate).symm.trans
      (hall (List.replicate 32 1) List.length_replicate)
    exact absurd hboth (by decide)
  obtain ⟨hsame, hharm, hunf⟩ := forgedHeader_rejected (P := idealPrims) 0 hlen hne
  refine ⟨tag, hlen, hharm, recovers_from_harmless idealPrims_correct idealPrims_robust 0
    (forgedHeader tag) hharm ?_⟩
  intro bs hbs
  refine (Net.along_append _ bs _).mpr ⟨hunf, ?_⟩
  rw [hsame]
  exact unforgeable_honest idealPrims_correct 0 bs hbs

end Recovery

/-! ## The wedge -/

section Wedge

variable {P : Prims Key} {net : BraidNet Key} {c₀ : Chunk}

/-- Alice has moved on to the `ek_vector` while Bob holds one header codeword, `c₀`, and will
never be sent another one. -/
structure Wedged (c₀ : Chunk) (b : Braids Key) : Prop where
  alice : ∃ auth dk ct1Dec ekEnc, b.node .alice = .headerSent initialEpoch auth dk ct1Dec ekEnc
  bob : ∃ auth hdrDec, b.node .bob = .noHeaderReceived initialEpoch auth hdrDec ∧
    hdrDec.dataShards = dataShardsFor (pk1Len + macSize) ∧ hdrDec.received.keys ⊆ {c₀.index}
  alice_sent : ∀ m ∈ b.sent .alice, m = .carrying initialEpoch .hdr c₀ ∨ m.mtype = .ek
  bob_sent : ∀ m ∈ b.sent .bob, m = .idle initialEpoch
  silent : ∀ s, b.out s = []

/-- Nothing a wedged party is sent makes it act on a tag, emit a secret or change its state,
except for `c₀` entering Bob's decoder once more. -/
lemma Wedged.recv {b : Braids Key} (h : Wedged c₀ b) {s : Side} {m : Message}
    (hm : m ∈ b.sent s.other) :
    (b.node s).acceptedTag P m = none ∧ (b.node s).tagsOnReceive P m = [] ∧
      ((∃ e, (b.node s).receive P m = .error e) ∨
        ∃ st', (b.node s).receive P m = .ok (st', none) ∧ Wedged c₀ (b.put s st' [] [] [])) := by
  -- a message that is not listened to is the simple case
  have hignored : ¬ (b.node s).Listens m → (b.node s).acceptedTag P m = none ∧
      (b.node s).tagsOnReceive P m = [] ∧ ((∃ e, (b.node s).receive P m = .error e) ∨
        ∃ st', (b.node s).receive P m = .ok (st', none) ∧
          Wedged c₀ (b.put s st' [] [] [])) := by
    intro hl
    refine ⟨acceptedTag_of_not_listens hl,
      State.tagsOnReceive_of_harmless (fun hl' => absurd hl' hl), .inr ⟨b.node s,
        State.receive_of_not_listens P hl, ?_⟩⟩
    simpa [Braids.put] using h
  cases s with
  | alice =>
      obtain ⟨auth, dk, ct1Dec, ekEnc, hst⟩ := h.alice
      refine hignored ?_
      rw [hst, h.bob_sent m hm]
      simp [State.Listens, Message.idle]
  | bob =>
      obtain ⟨auth, hdrDec, hst, hshards, hkeys⟩ := h.bob
      rcases h.alice_sent m hm with rfl | htype
      swap
      · refine hignored ?_
        rw [hst]
        rintro ⟨-, htype'⟩
        rw [htype] at htype'
        cases htype'
      rw [hst]
      cases hadd : hdrDec.addChunk c₀ with
      | error e =>
          refine ⟨?_, rfl, .inl ⟨e, ?_⟩⟩
          · simp [State.acceptedTag, State.addChunk, Message.carrying, hadd, bind, Except.bind]
          · simp [State.receive, State.recvNoHeaderReceived, State.addChunk, Message.carrying, hadd,
              bind, Except.bind]
      | ok hdrDec' =>
          obtain ⟨-, -, hdec'⟩ := Decoder.addChunk_eq_ok hadd
          have hshards' : hdrDec'.dataShards = dataShardsFor (pk1Len + macSize) := by
            rw [hdec', ← hshards]
          have hkeys' : hdrDec'.received.keys ⊆ {c₀.index} := by
            rw [hdec', Map.keys_orInsert]
            exact Finset.insert_subset (Finset.mem_singleton_self _) hkeys
          -- one codeword is not enough for a header
          have hmsg : hdrDec'.message P.rs = .ok none := by
            have hcard := Finset.card_le_card hkeys'
            have hthree : dataShardsFor (pk1Len + macSize) = 3 := by decide
            rw [Finset.card_singleton] at hcard
            have hfew : ¬ 3 ≤ hdrDec'.received.keys.card := by omega
            simp [Decoder.message, Decoder.hasMessage, hshards', hthree, Map.len, hfew]
          refine ⟨?_, rfl, .inr ⟨.noHeaderReceived initialEpoch auth hdrDec', ?_, ?_⟩⟩
          · simp [State.acceptedTag, State.addChunk, Message.carrying, hadd, hmsg, bind,
              Except.bind]
          · simp [State.receive, State.recvNoHeaderReceived, State.addChunk, Message.carrying, hadd,
              hmsg, bind, Except.bind, pure, Except.pure]
          · constructor
            · simpa [Braids.put] using h.alice
            · exact ⟨auth, hdrDec', b.put_node_self .bob _ _ _ _, hshards', hkeys'⟩
            · simpa [Braids.put] using h.alice_sent
            · simpa [Braids.put] using h.bob_sent
            · intro t
              cases t <;> simpa [Braids.put] using h.silent _

lemma Wedged.send {b : Braids Key} (h : Wedged c₀ b) (s : Side) (rng : Rng) :
    (b.node s).tagsOnSend P rng = [] ∧ ∃ st' m, (b.node s).send P rng = .ok (st', m, none) ∧
      Wedged c₀ (b.put s st' [] [m] []) := by
  cases s with
  | alice =>
      obtain ⟨auth, dk, ct1Dec, ekEnc, hst⟩ := h.alice
      rw [hst]
      refine ⟨rfl, _, _, rfl, ⟨⟨auth, dk, ct1Dec, _, b.put_node_self .alice _ _ _ _⟩, ?_, ?_,
        ?_, ?_⟩⟩
      · simpa [Braids.put] using h.bob
      · intro m hm
        simp only [Braids.put, Function.update_self, List.mem_append, List.mem_singleton] at hm
        rcases hm with hm | rfl
        · exact h.alice_sent m hm
        · exact .inr rfl
      · simpa [Braids.put] using h.bob_sent
      · intro t
        cases t <;> simpa [Braids.put] using h.silent _
  | bob =>
      obtain ⟨auth, hdrDec, hst, hdec⟩ := h.bob
      rw [hst]
      refine ⟨rfl, _, _, rfl, ⟨?_, ⟨auth, hdrDec, by simp [Braids.put], hdec⟩, ?_, ?_, ?_⟩⟩
      · simpa [Braids.put] using h.alice
      · simpa [Braids.put] using h.alice_sent
      · intro m hm
        simp only [Braids.put, Function.update_self, List.mem_append, List.mem_singleton] at hm
        rcases hm with hm | rfl
        · exact h.bob_sent m hm
        · rfl
      · intro t
        cases t <;> simpa [Braids.put] using h.silent _

/-- An honest network does not get two wedged parties out of it. -/
lemma Wedged.step {a : Action Rng Message} (h : Wedged c₀ (braidsOf net)) (ha : a.Honest) :
    Wedged c₀ (braidsOf (net.step (braidMachine P) a)) := by
  cases a with
  | send s rng =>
      obtain ⟨htags, st', m, hsend, h'⟩ := h.send (P := P) s rng
      have hsend' : (net.node s).state.send P rng = .ok (st', m, none) := hsend
      have htags' : (net.node s).state.tagsOnSend P rng = [] := htags
      rw [Net.step_send, braids_sendAt hsend', htags']
      exact h'
  | deliver s i r =>
      cases hm : (net.sent s.other)[i]? with
      | none => rwa [Net.step_deliver_none r hm]
      | some m =>
          rw [Net.step_deliver_some r hm, braids_deliverAt]
          obtain ⟨-, htags, ⟨e, hrecv⟩ | ⟨st', hrecv, h'⟩⟩ :=
            h.recv (P := P) (List.mem_of_getElem? hm)
          · rwa [braids_recvAt_of_error r hrecv htags]
          · have htags' : (net.node s).state.tagsOnReceive P m = [] := htags
            rw [braids_recvAt r hrecv, htags']
            exact h'
  | inject s m r => exact ha.elim

/-- Alice samples her keys and sends the first header codeword `c₀`. -/
lemma exists_sampled (hP : P.Correct) (authSeed : Key) (rng : Rng) :
    ∃ c₀ auth dk ekVector headerEnc ekEnc ts,
      braidsOf ((braidNet P authSeed).sendAt (braidMachine P) .alice rng) =
        (braidsOf (braidNet P authSeed)).put .alice
          (.keysSampled initialEpoch auth dk ekVector headerEnc) []
          [.carrying initialEpoch .hdr c₀] ts ∧
      (((braidNet P authSeed).sendAt (braidMachine P) .alice rng).node .alice).state =
        .keysSampled initialEpoch auth dk ekVector headerEnc ∧
      Encoder.new P.rs ekVector = .ok ekEnc := by
  have hview : OwnerView P (Decoder.Genuine P.rs)
    (.fresh initialEpoch (Authenticator.init P.hash initialEpoch authSeed)) 0
    ((braidNet P authSeed).node .alice).state := .keysUnsampled
  obtain ⟨x, st', po', m, hsend, hview', -, -, ⟨-, rfl, rfl⟩ | ⟨hne, -⟩⟩ := hview.send hP rng
  swap
  · exact absurd rfl hne
  obtain ⟨c₀, rfl⟩ : ∃ c₀, m = .carrying initialEpoch .hdr c₀ := by
    cases State.Sends.of_send hsend
    exact ⟨_, rfl⟩
  cases hview' with
  | keysSampled henc =>
      obtain ⟨ekEnc, hek⟩ := Encoder.exists_new hP.rs
        (Exchange.streamable_ekVector (P := P) (x := Exchange.withSeed _ rng))
      have hput := braids_sendAt hsend
      exact ⟨c₀, _, _, _, _, ekEnc, _, hput, (congrArg (fun b => b.node .alice) hput).trans
        (Braids.put_node_self _ _ _ _ _ _), hek⟩

/-- A `ct1` codeword that nobody sent takes Alice to the next phase. -/
lemma wedged_of_inject (hP : P.Correct) (authSeed : Key) (rng r : Rng) {c : Chunk}
    (hindex : c.index < totalShardsFor ct1Len) (hdata : c.data.length = chunkBytes) :
    ∃ c₀, Wedged c₀ (braidsOf ((braidNet P authSeed).run (braidMachine P)
      [.send .alice rng, .inject .alice (.carrying initialEpoch .ct1 c) r])) := by
  obtain ⟨c₀, auth, dk, ekVector, headerEnc, ekEnc, ts, hsend, hnode, hek⟩ :=
    exists_sampled hP authSeed rng
  have hindex' : ¬ (Decoder.new ct1Len).totalShards ≤ c.index := not_le.mpr hindex
  have hadd : (Decoder.new ct1Len).addChunk c = .ok { Decoder.new ct1Len with
      received := Map.orInsert (Decoder.new ct1Len).received c.index c.data } := by
    simp [Decoder.addChunk, hdata, hindex']
  have hrecv : (((braidNet P authSeed).sendAt (braidMachine P) .alice rng).node
      .alice).state.receive P (.carrying initialEpoch .ct1 c) = .ok (.headerSent initialEpoch auth
        dk { Decoder.new ct1Len with
          received := Map.orInsert (Decoder.new ct1Len).received c.index c.data } ekEnc, none) := by
    rw [hnode]
    simp [State.receive, State.recvKeysSampled, State.addChunk, Message.carrying, hadd, hek, bind,
      Except.bind, pure, Except.pure]
  refine ⟨c₀, ?_⟩
  rw [Net.run_cons, Net.run_cons, Net.run_nil, Net.step_send, Net.step_inject,
    braids_recvAt r hrecv, hsend]
  constructor
  · exact ⟨_, _, _, _, Braids.put_node_self _ _ _ _ _ _⟩
  · exact ⟨_, _, rfl, rfl, Finset.empty_subset _⟩
  · intro m hm
    simp only [Braids.put, Function.update_self, List.append_nil] at hm
    exact .inl (List.mem_singleton.mp hm)
  · intro m hm
    cases hm
  · intro s
    cases s <;> rfl

/-- **One `ct1` codeword of anybody's making wedges the braid.**  It reaches an owner that is
still streaming its header; from then on, whatever an honest network does, no party ever emits
the secret of epoch 1, and no MAC is even looked at. -/
theorem wedged_run (hP : P.Correct) (authSeed : Key) (rng r : Rng) {c : Chunk}
    (hindex : c.index < totalShardsFor ct1Len) (hdata : c.data.length = chunkBytes)
    (bs : List (Action Rng Message)) (hbs : ∀ b ∈ bs, b.Honest) :
    Net.Along (braidMachine P) (Unforgeable P) (braidNet P authSeed)
      ([.send .alice rng, .inject .alice (.carrying initialEpoch .ct1 c) r] ++ bs) ∧
    ∀ s, secretsOf ((braidNet P authSeed).run (braidMachine P)
      ([.send .alice rng, .inject .alice (.carrying initialEpoch .ct1 c) r] ++ bs)) s = [] := by
  obtain ⟨c₀, hwedged⟩ := wedged_of_inject hP authSeed rng r hindex hdata
  have hhonest := Net.along_of_forall (A := braidMachine P) bs ((braidNet P authSeed).run
    (braidMachine P) [.send .alice rng, .inject .alice (.carrying initialEpoch .ct1 c) r]) hbs
  refine ⟨(Net.along_append _ bs _).mpr ⟨⟨trivial, ?_, trivial⟩, ?_⟩, ?_⟩
  · -- Alice holds no object with a MAC when the codeword reaches her
    intro q hq
    obtain ⟨_, _, _, _, _, _, _, -, hnode, -⟩ := exists_sampled hP authSeed rng
    rw [Net.step_send, hnode] at hq
    cases hq
  · refine Net.along_of_invariant (P := fun net => Wedged c₀ (braidsOf net))
      (Q := fun _ a => a.Honest) (fun _ _ => Wedged.step) ?_ bs _ hwedged hhonest
    intro net a h ha
    cases a with
    | send s r => trivial
    | deliver s i r =>
        intro m hm q hq
        have hnone := (h.recv (P := P) (List.mem_of_getElem? hm)).1
        cases hnone.symm.trans hq
    | inject s m r => exact ha.elim
  · rw [Net.run_append]
    exact (Net.run_invariant (P := fun net => Wedged c₀ (braidsOf net))
      (fun _ _ => Wedged.step) bs _ hwedged hhonest).silent

/-- The wedge with primitives that do all that is asked of them. -/
theorem zeroChunk_wedges :
    idealPrims.Correct ∧ idealPrims.Robust ∧ idealPrims.kem.Binding ∧
    zeroChunk.index < totalShardsFor ct1Len ∧ zeroChunk.data.length = chunkBytes ∧
    ∀ bs : List (Action Rng Message), (∀ b ∈ bs, b.Honest) →
      Net.Along (braidMachine idealPrims) (Unforgeable idealPrims) (braidNet idealPrims 0)
        ([.send .alice zeroRng,
          .inject .alice (.carrying initialEpoch .ct1 zeroChunk) zeroRng] ++ bs) ∧
      ∀ s, secretsOf ((braidNet idealPrims 0).run (braidMachine idealPrims)
        ([.send .alice zeroRng,
          .inject .alice (.carrying initialEpoch .ct1 zeroChunk) zeroRng] ++ bs)) s = [] :=
  ⟨idealPrims_correct, idealPrims_robust, Ideal.kem_binding, by decide, by decide,
    wedged_run idealPrims_correct 0 zeroRng zeroRng (by decide) (by decide)⟩

end Wedge

end Hushwire
