import Hushwire.Braid.Tags
import Hushwire.Braid.Transitions

/-!
# The two parties of an epoch

`OwnerView x po st` says that `st` is where the keypair owner of the exchange `x` stands in
its phase `po`, `EncView x pe st` the same of the encapsulator; every authenticator, decoder
and encoder in the state is pinned to the values of `x`.  `OwnerMsg` and `EncMsg` list what
the two can have sent by then, and `Order` the pairs of phases they can be in together.

The owner goes through `0` keys unsampled, `1` keys sampled, `2` header sent, `3` ct1
received, `4` ek sent, `5` epoch finished (and waiting for the next header); the encapsulator
through `0` no header, `1` header received, `2` ct1 sampled, `3` ek received, `4` ct1
acknowledged, `5` ct2 sampled.

The lemmas `OwnerView.send`, `OwnerView.recv`, `EncView.send` and `EncView.recv` are the
protocol: each call succeeds, and moves the party along its phases.

The decoders of the two objects that carry a MAC may hold more than codewords of `x` when
the network injects messages, so what is known of them is a parameter `D` of the views;
`Tolerant` is what the party lemmas need of it.
-/

namespace Hushwire

variable {Key : Type}

/-! ## Views -/

/-- Where the owner of `x` stands in phase `po`. -/
inductive OwnerView (P : Prims Key) (D : Bytes → Decoder → Prop) (x : Exchange Key) :
    ℕ → State Key → Prop
  | keysUnsampled : OwnerView P D x 0 (.keysUnsampled x.epoch x.auth)
  | keysSampled {headerEnc} (henc : headerEnc.Encodes P.rs (x.headerWithMac P)) :
      OwnerView P D x 1 (.keysSampled x.epoch x.auth (x.dk P) (x.ekVector P) headerEnc)
  | headerSent {ct1Dec ekEnc} (hdec : ct1Dec.Genuine P.rs (x.ct1 P))
      (henc : ekEnc.Encodes P.rs (x.ekVector P)) :
      OwnerView P D x 2 (.headerSent x.epoch x.auth (x.dk P) ct1Dec ekEnc)
  | ct1Received {ekEnc} (henc : ekEnc.Encodes P.rs (x.ekVector P)) :
      OwnerView P D x 3 (.ct1Received x.epoch x.auth (x.dk P) (x.ct1 P) ekEnc)
  | ekSentCt1Received {ct2Dec} (hdec : D (x.ct2WithMac P) ct2Dec) :
      OwnerView P D x 4 (.ekSentCt1Received x.epoch x.auth (x.dk P) (x.ct1 P) ct2Dec)
  | finished {hdrDec} (hdec : ∀ obj : Bytes, obj.length = pk1Len + macSize → D obj hdrDec) :
      OwnerView P D x 5 (.noHeaderReceived (x.epoch + 1) (x.nextAuth P) hdrDec)

/-- Where the encapsulator of `x` stands in phase `pe`. -/
inductive EncView (P : Prims Key) (D : Bytes → Decoder → Prop) (x : Exchange Key) :
    ℕ → State Key → Prop
  | noHeaderReceived {hdrDec} (hdec : D (x.headerWithMac P) hdrDec) :
      EncView P D x 0 (.noHeaderReceived x.epoch x.auth hdrDec)
  | headerReceived {ekDec} (hdec : ekDec = Decoder.new pk2Len) :
      EncView P D x 1 (.headerReceived x.epoch x.auth (x.header P) ekDec)
  | ct1Sampled {ct1Enc ekDec} (henc : ct1Enc.Encodes P.rs (x.ct1 P))
      (hdec : ekDec.Genuine P.rs (x.ekVector P)) :
      EncView P D x 2 (.ct1Sampled x.epoch (x.nextAuth P) (x.header P) (x.encapsSecret P)
        (x.ct1 P) ct1Enc ekDec)
  | ekReceivedCt1Sampled {ct1Enc} (henc : ct1Enc.Encodes P.rs (x.ct1 P)) :
      EncView P D x 3 (.ekReceivedCt1Sampled x.epoch (x.nextAuth P) (x.encapsSecret P)
        (x.ct1 P) (x.ekVector P) ct1Enc)
  | ct1Acknowledged {ekDec} (hdec : ekDec.Genuine P.rs (x.ekVector P)) :
      EncView P D x 4 (.ct1Acknowledged x.epoch (x.nextAuth P) (x.encapsSecret P) (x.header P)
        (x.ct1 P) ekDec)
  | ct2Sampled {ct2Enc} (henc : ct2Enc.Encodes P.rs (x.ct2WithMac P)) :
      EncView P D x 5 (.ct2Sampled x.epoch (x.nextAuth P) ct2Enc)

/-- What the owner of `x` has sent by phase `po`. -/
inductive OwnerMsg (P : Prims Key) (x : Exchange Key) (po : ℕ) : Message → Prop
  | old {m} (h : m.epoch < x.epoch) : OwnerMsg P x po m
  | idle : OwnerMsg P x po (.idle x.epoch)
  | hdr {c} (hpo : 1 ≤ po) (hc : IsCodeword P.rs (x.headerWithMac P) c) :
      OwnerMsg P x po (.carrying x.epoch .hdr c)
  | ek {c} (hpo : 2 ≤ po) (hc : IsCodeword P.rs (x.ekVector P) c) :
      OwnerMsg P x po (.carrying x.epoch .ek c)
  | ekCt1Ack {c} (hpo : 3 ≤ po) (hc : IsCodeword P.rs (x.ekVector P) c) :
      OwnerMsg P x po (.carrying x.epoch .ekCt1Ack c)
  | next (hpo : 5 ≤ po) : OwnerMsg P x po (.idle (x.epoch + 1))

/-- What the encapsulator of `x` has sent by phase `pe`. -/
inductive EncMsg (P : Prims Key) (x : Exchange Key) (pe : ℕ) : Message → Prop
  | old {m} (h : m.epoch < x.epoch) : EncMsg P x pe m
  | idle : EncMsg P x pe (.idle x.epoch)
  | ct1 {c} (hpe : 2 ≤ pe) (hc : IsCodeword P.rs (x.ct1 P) c) :
      EncMsg P x pe (.carrying x.epoch .ct1 c)
  | ct2 {c} (hpe : 5 ≤ pe) (hc : IsCodeword P.rs (x.ct2WithMac P) c) :
      EncMsg P x pe (.carrying x.epoch .ct2 c)

/-- The phases the two parties of an exchange can be in together. -/
structure Order (po pe : ℕ) : Prop where
  header_after_keys : 1 ≤ pe → 1 ≤ po
  ct1_after_encaps : 2 ≤ po → 2 ≤ pe
  ek_after_ct1 : 3 ≤ pe → 2 ≤ po
  ack_after_ct1 : 4 ≤ pe → 3 ≤ po
  ct2_after_ack : 4 ≤ po → 5 ≤ pe

/-- What the party lemmas ask of the condition on the authenticated decoders: a fresh and a
reset decoder meet it, admitting a codeword keeps it, and whatever object comes out can be
taken apart and decapsulated. -/
structure Tolerant (P : Prims Key) (D : Bytes → Decoder → Prop) : Prop where
  sized : ∀ obj dec, D obj dec → dec.len = obj.length ∧
    dec.dataShards = dataShardsFor obj.length ∧ dec.recoveryShards = recoveryShardsFor obj.length
  fresh : ∀ obj : Bytes, D obj (Decoder.new obj.length)
  reset : ∀ obj dec, D obj dec → D obj dec.reset
  add : ∀ obj dec c, Streamable obj → D obj dec → IsCodeword P.rs obj c →
    ∃ dec', dec.addChunk c = .ok dec' ∧ D obj dec' ∧
      dec'.received.keys = insert c.index dec.received.keys
  message : ∀ obj dec, Streamable obj → D obj dec → ∃ o, dec.message P.rs = .ok o
  decapsulate : ∀ (x : Exchange Key) dec obj, D (x.ct2WithMac P) dec →
    dec.message P.rs = .ok (some obj) →
    ∃ raw, Kem.decapsulate P.kem (x.dk P) (x.ct1 P) (obj.take ct2Len) = .ok raw

/-- The condition on decoders in a run without injections. -/
lemma tolerant_genuine {P : Prims Key} (hP : P.Correct) :
    Tolerant P (Decoder.Genuine P.rs) where
  sized obj dec h := ⟨h.len_eq, h.dataShards_eq, h.recoveryShards_eq⟩
  fresh := Decoder.genuine_new P.rs
  reset obj dec h := ⟨h.len_eq, h.dataShards_eq, h.recoveryShards_eq, by
    intro i d hd
    simp [Decoder.reset] at hd⟩
  add obj dec c _ h hc := h.addChunk hP.restores hc
  message obj dec hobj h := ⟨_, h.message hP.restores hobj.totalShardsFor_le⟩
  decapsulate x dec obj h hobj := by
    rw [h.eq_of_message hP.restores Exchange.streamable_ct2WithMac.totalShardsFor_le hobj,
      Exchange.take_ct2WithMac]
    exact ⟨_, Exchange.kem_decapsulate hP⟩

/-! ## What each handler does with a codeword of the exchange -/

section Handlers

variable {P : Prims Key} {D : Bytes → Decoder → Prop} {x : Exchange Key}

open State

lemma not_listens_of_epoch_lt {m : Message} {st : State Key} (h : m.epoch < st.epoch) :
    ¬ st.Listens m := by
  have hne : m.epoch ≠ st.epoch := h.ne
  have hne' : m.epoch ≠ st.epoch + 1 := by omega
  cases st <;> simp_all [Listens, State.epoch]

/-- The first `ct1` codeword tells the owner that its header arrived. -/
lemma receive_ct1First (hP : P.Correct) {c : Chunk} (hc : IsCodeword P.rs (x.ct1 P) c)
    (auth : Authenticator Key) (dk : Bytes) (headerEnc : Encoder) :
    ∃ ct1Dec ekEnc, ct1Dec.Genuine P.rs (x.ct1 P) ∧ ekEnc.Encodes P.rs (x.ekVector P) ∧
      (keysSampled x.epoch auth dk (x.ekVector P) headerEnc).receive P
        (.carrying x.epoch .ct1 c) = .ok (headerSent x.epoch auth dk ct1Dec ekEnc, none) := by
  have hnew := Decoder.genuine_new P.rs (x.ct1 P)
  rw [Exchange.length_ct1 hP] at hnew
  obtain ⟨ct1Dec, hadd, hgen, -⟩ := hnew.addChunk hP.restores hc
  obtain ⟨ekEnc, henc⟩ := Encoder.exists_new hP.rs (Exchange.streamable_ekVector (x := x))
  refine ⟨ct1Dec, ekEnc, hgen, Encoder.encodes_of_new henc, ?_⟩
  simp [receive, recvKeysSampled, Message.carrying, addChunk, hadd, henc, bind, Except.bind,
    pure, Except.pure]

lemma receive_ct1 (hP : P.Correct) {c : Chunk} (hc : IsCodeword P.rs (x.ct1 P) c)
    {ct1Dec : Decoder} (hdec : ct1Dec.Genuine P.rs (x.ct1 P)) (auth : Authenticator Key)
    (dk : Bytes) (ekEnc : Encoder) :
    ∃ ct1Dec', ct1Dec'.Genuine P.rs (x.ct1 P) ∧
      ct1Dec'.received.keys = insert c.index ct1Dec.received.keys ∧
      (headerSent x.epoch auth dk ct1Dec ekEnc).receive P (.carrying x.epoch .ct1 c) =
        .ok (if dataShardsFor ct1Len ≤ ct1Dec'.received.keys.card
          then ct1Received x.epoch auth dk (x.ct1 P) ekEnc
          else headerSent x.epoch auth dk ct1Dec' ekEnc, none) := by
  obtain ⟨ct1Dec', hadd, hgen, hkeys⟩ := hdec.addChunk hP.restores hc
  have hmsg := hgen.message hP.restores (Exchange.streamable_ct1 hP).totalShardsFor_le
  rw [Exchange.length_ct1 hP] at hmsg
  refine ⟨ct1Dec', hgen, hkeys, ?_⟩
  by_cases hcard : dataShardsFor ct1Len ≤ ct1Dec'.received.keys.card
  · rw [if_pos hcard] at hmsg ⊢
    simp [receive, recvHeaderSent, Message.carrying, addChunk, hadd, hmsg, bind, Except.bind,
      pure, Except.pure]
  · rw [if_neg hcard] at hmsg ⊢
    simp [receive, recvHeaderSent, Message.carrying, addChunk, hadd, hmsg, bind, Except.bind,
      pure, Except.pure]

/-- The first `ct2` codeword tells the owner that its `ek_vector` arrived. -/
lemma receive_ct2First (T : Tolerant P D) {c : Chunk}
    (hc : IsCodeword P.rs (x.ct2WithMac P) c) (auth : Authenticator Key) (dk ct1 : Bytes)
    (ekEnc : Encoder) :
    ∃ ct2Dec, D (x.ct2WithMac P) ct2Dec ∧
      (ct1Received x.epoch auth dk ct1 ekEnc).receive P (.carrying x.epoch .ct2 c) =
        .ok (ekSentCt1Received x.epoch auth dk ct1 ct2Dec, none) := by
  have hnew := T.fresh (x.ct2WithMac P)
  rw [Exchange.length_ct2WithMac] at hnew
  obtain ⟨ct2Dec, hadd, hD, -⟩ := T.add _ _ c Exchange.streamable_ct2WithMac hnew hc
  refine ⟨ct2Dec, hD, ?_⟩
  simp [receive, recvCt1Received, Message.carrying, addChunk, hadd, bind, Except.bind, pure,
    Except.pure]

/-- An accepted ciphertext tag of the exchange pins the secret that was decapsulated. -/
lemma rawSs_of_ct2Tag (hP : P.Correct) {auth : Authenticator Key} {ct2 : Bytes}
    {raw : Key} (hraw : Kem.decapsulate P.kem (x.dk P) (x.ct1 P) ct2 = .ok raw)
    (hq : MacQuery.ciphertext auth x.epoch (x.ct1 P ++ ct2) = x.ct2Tag P) : raw = x.rawSs P := by
  have hct2 : ct2 = x.ct2 P := List.append_cancel_left (congrArg MacQuery.data hq)
  rw [hct2, Exchange.kem_decapsulate hP] at hraw
  exact (Except.ok.inj hraw).symm

/-- **A `ct2` codeword at the owner.**  The object is incomplete, or complete and accepted,
or complete and thrown away; what is accepted is the exchange's own ciphertext. -/
lemma receive_ct2 (T : Tolerant P D) {c : Chunk} (hc : IsCodeword P.rs (x.ct2WithMac P) c)
    {ct2Dec : Decoder} (hdec : D (x.ct2WithMac P) ct2Dec)
    (hacc : ∀ q, (ekSentCt1Received x.epoch x.auth (x.dk P) (x.ct1 P) ct2Dec).acceptedTag P
      (.carrying x.epoch .ct2 c) = some q → q = x.ct2Tag P) (hP : P.Correct) :
    ∃ ct2Dec', ct2Dec.addChunk c = .ok ct2Dec' ∧ D (x.ct2WithMac P) ct2Dec' ∧
      ct2Dec'.received.keys = insert c.index ct2Dec.received.keys ∧
      (((ekSentCt1Received x.epoch x.auth (x.dk P) (x.ct1 P) ct2Dec).receive P
          (.carrying x.epoch .ct2 c) =
            .ok (ekSentCt1Received x.epoch x.auth (x.dk P) (x.ct1 P) ct2Dec', none) ∧
          ct2Dec'.message P.rs = .ok none) ∨
        ((ekSentCt1Received x.epoch x.auth (x.dk P) (x.ct1 P) ct2Dec).receive P
          (.carrying x.epoch .ct2 c) =
            .ok (noHeaderReceived (x.epoch + 1) (x.nextAuth P)
              (Decoder.new (pk1Len + macSize)), some (x.secret P))) ∨
        ((ekSentCt1Received x.epoch x.auth (x.dk P) (x.ct1 P) ct2Dec).receive P
          (.carrying x.epoch .ct2 c) =
            .ok (ekSentCt1Received x.epoch x.auth (x.dk P) (x.ct1 P) ct2Dec'.reset, none) ∧
          ∃ obj, ct2Dec'.message P.rs = .ok (some obj) ∧ obj ≠ x.ct2WithMac P)) := by
  obtain ⟨ct2Dec', hadd, hD, hkeys⟩ := T.add _ _ c Exchange.streamable_ct2WithMac hdec hc
  refine ⟨ct2Dec', hadd, hD, hkeys, ?_⟩
  obtain ⟨_ | obj, hmsg⟩ := T.message _ _ Exchange.streamable_ct2WithMac hD
  · left
    refine ⟨?_, hmsg⟩
    simp [receive, recvEkSentCt1Received, Message.carrying, addChunk, hadd, hmsg, bind,
      Except.bind, pure, Except.pure]
  · obtain ⟨raw, hraw⟩ := T.decapsulate x _ _ hD hmsg
    cases hvfy : (x.auth.update P.hash x.epoch (Auth.kdfOk P.hash raw x.epoch)).vfyCt P.hash
        x.epoch (x.ct1 P ++ obj.take ct2Len) (obj.drop ct2Len) with
    | ok u =>
        right; left
        -- the accepted tag is the exchange's, so its data is, and so is the secret
        have hq := hacc _ (acceptedTag_ct2 rfl rfl hadd hmsg hraw hvfy)
        have hss := rawSs_of_ct2Tag hP hraw hq
        subst hss
        simp [receive, recvEkSentCt1Received, Message.carrying, addChunk, hadd, hmsg, hraw, hvfy,
          bind, Except.bind, pure, Except.pure, Exchange.nextAuth, Exchange.secret, Exchange.ss]
    | error e =>
        right; right
        refine ⟨?_, obj, hmsg, ?_⟩
        · simp [receive, recvEkSentCt1Received, Message.carrying, addChunk, hadd, hmsg, hraw,
            hvfy, bind, Except.bind, pure, Except.pure]
        · intro hobj
          rw [hobj] at hraw hvfy
          cases (Exchange.vfyCt_ct2WithMac hP hraw).symm.trans hvfy

/-- **A header codeword at the encapsulator.**  Incomplete, accepted or thrown away; what is
accepted is the exchange's own header. -/
lemma receive_hdr (T : Tolerant P D) {c : Chunk} (hc : IsCodeword P.rs (x.headerWithMac P) c)
    {hdrDec : Decoder} (hdec : D (x.headerWithMac P) hdrDec)
    (hacc : ∀ q, (noHeaderReceived x.epoch x.auth hdrDec).acceptedTag P
      (.carrying x.epoch .hdr c) = some q → q = x.headerTag P) :
    ∃ hdrDec', hdrDec.addChunk c = .ok hdrDec' ∧ D (x.headerWithMac P) hdrDec' ∧
      hdrDec'.received.keys = insert c.index hdrDec.received.keys ∧
      (((noHeaderReceived x.epoch x.auth hdrDec).receive P (.carrying x.epoch .hdr c) =
            .ok (noHeaderReceived x.epoch x.auth hdrDec', none) ∧
          hdrDec'.message P.rs = .ok none) ∨
        ((noHeaderReceived x.epoch x.auth hdrDec).receive P (.carrying x.epoch .hdr c) =
          .ok (headerReceived x.epoch x.auth (x.header P) (Decoder.new pk2Len), none)) ∨
        ((noHeaderReceived x.epoch x.auth hdrDec).receive P (.carrying x.epoch .hdr c) =
            .ok (noHeaderReceived x.epoch x.auth hdrDec'.reset, none) ∧
          ∃ obj, hdrDec'.message P.rs = .ok (some obj) ∧ obj ≠ x.headerWithMac P)) := by
  obtain ⟨hdrDec', hadd, hD, hkeys⟩ := T.add _ _ c Exchange.streamable_headerWithMac hdec hc
  refine ⟨hdrDec', hadd, hD, hkeys, ?_⟩
  obtain ⟨_ | obj, hmsg⟩ := T.message _ _ Exchange.streamable_headerWithMac hD
  · left
    refine ⟨?_, hmsg⟩
    simp [receive, recvNoHeaderReceived, Message.carrying, addChunk, hadd, hmsg, bind,
      Except.bind, pure, Except.pure]
  · cases hvfy : x.auth.vfyHdr P.hash x.epoch (obj.take pk1Len) (obj.drop pk1Len) with
    | ok u =>
        right; left
        have hq := hacc _ (acceptedTag_hdr rfl rfl hadd hmsg hvfy)
        have hhdr : obj.take pk1Len = x.header P := congrArg MacQuery.data hq
        rw [hhdr] at hvfy
        simp [receive, recvNoHeaderReceived, Message.carrying, addChunk, hadd, hmsg, hhdr, hvfy,
          bind, Except.bind, pure, Except.pure]
    | error e =>
        right; right
        refine ⟨?_, obj, hmsg, ?_⟩
        · simp [receive, recvNoHeaderReceived, Message.carrying, addChunk, hadd, hmsg, hvfy,
            bind, Except.bind, pure, Except.pure]
        · intro hobj
          rw [hobj] at hvfy
          cases Exchange.vfyHdr_headerWithMac.symm.trans hvfy

/-- An `ek_vector` codeword at the encapsulator that still streams `ct1`. -/
lemma receive_ek (hP : P.Correct) {c : Chunk} (hc : IsCodeword P.rs (x.ekVector P) c)
    {ekDec : Decoder} (hdec : ekDec.Genuine P.rs (x.ekVector P)) (auth : Authenticator Key)
    (encapsSecret ct1 : Bytes) (ct1Enc : Encoder) :
    ∃ ekDec', ekDec'.Genuine P.rs (x.ekVector P) ∧
      (ct1Sampled x.epoch auth (x.header P) encapsSecret ct1 ct1Enc ekDec).receive P
        (.carrying x.epoch .ek c) =
        .ok (if dataShardsFor pk2Len ≤ ekDec'.received.keys.card
          then ekReceivedCt1Sampled x.epoch auth encapsSecret ct1 (x.ekVector P) ct1Enc
          else ct1Sampled x.epoch auth (x.header P) encapsSecret ct1 ct1Enc ekDec', none) := by
  obtain ⟨ekDec', hadd, hgen, -⟩ := hdec.addChunk hP.restores hc
  have hmsg := hgen.message hP.restores Exchange.streamable_ekVector.totalShardsFor_le
  have hval := Exchange.kem_validatePublicKey (x := x) hP
  rw [Exchange.length_ekVector] at hmsg
  refine ⟨ekDec', hgen, ?_⟩
  by_cases hcard : dataShardsFor pk2Len ≤ ekDec'.received.keys.card
  · rw [if_pos hcard] at hmsg ⊢
    simp [receive, recvCt1Sampled, Message.carrying, addChunk, hadd, hmsg, hval, bind,
      Except.bind, pure, Except.pure]
  · rw [if_neg hcard] at hmsg ⊢
    simp [receive, recvCt1Sampled, Message.carrying, addChunk, hadd, hmsg, bind, Except.bind,
      pure, Except.pure]

lemma exists_ct2Enc (hP : P.Correct) :
    ∃ ct2Enc, Encoder.Encodes P.rs (x.ct2WithMac P) ct2Enc ∧
      buildCt2Encoder P (x.nextAuth P) x.epoch (x.encapsSecret P) (x.ekVector P) (x.ct1 P) =
        .ok ct2Enc := by
  obtain ⟨ct2Enc, hnew⟩ := Encoder.exists_new hP.rs (Exchange.streamable_ct2WithMac (x := x))
  refine ⟨ct2Enc, Encoder.encodes_of_new hnew, ?_⟩
  rw [Exchange.buildCt2Encoder_eq hP, hnew]

/-- An acknowledging `ek_vector` codeword at the encapsulator that still streams `ct1`. -/
lemma receive_ekAck (hP : P.Correct) {c : Chunk} (hc : IsCodeword P.rs (x.ekVector P) c)
    {ekDec : Decoder} (hdec : ekDec.Genuine P.rs (x.ekVector P)) (ct1Enc : Encoder) :
    ∃ ekDec' ct2Enc, ekDec'.Genuine P.rs (x.ekVector P) ∧
      ct2Enc.Encodes P.rs (x.ct2WithMac P) ∧
      (ct1Sampled x.epoch (x.nextAuth P) (x.header P) (x.encapsSecret P) (x.ct1 P) ct1Enc
        ekDec).receive P (.carrying x.epoch .ekCt1Ack c) =
        .ok (if dataShardsFor pk2Len ≤ ekDec'.received.keys.card
          then ct2Sampled x.epoch (x.nextAuth P) ct2Enc
          else ct1Acknowledged x.epoch (x.nextAuth P) (x.encapsSecret P) (x.header P) (x.ct1 P)
            ekDec', none) := by
  obtain ⟨ekDec', hadd, hgen, -⟩ := hdec.addChunk hP.restores hc
  obtain ⟨ct2Enc, hencodes, hct2⟩ := exists_ct2Enc (x := x) hP
  have hmsg := hgen.message hP.restores Exchange.streamable_ekVector.totalShardsFor_le
  have hval := Exchange.kem_validatePublicKey (x := x) hP
  rw [Exchange.length_ekVector] at hmsg
  refine ⟨ekDec', ct2Enc, hgen, hencodes, ?_⟩
  by_cases hcard : dataShardsFor pk2Len ≤ ekDec'.received.keys.card
  · rw [if_pos hcard] at hmsg ⊢
    simp [receive, recvCt1Sampled, Message.carrying, addChunk, hadd, hmsg, hval, hct2, bind,
      Except.bind, pure, Except.pure]
  · rw [if_neg hcard] at hmsg ⊢
    simp [receive, recvCt1Sampled, Message.carrying, addChunk, hadd, hmsg, bind, Except.bind,
      pure, Except.pure]

/-- The acknowledgement that finishes `ct1` once the `ek_vector` is known. -/
lemma receive_ackAfterEk (hP : P.Correct) (c : Chunk) (ct1Enc : Encoder) :
    ∃ ct2Enc, ct2Enc.Encodes P.rs (x.ct2WithMac P) ∧
      (ekReceivedCt1Sampled x.epoch (x.nextAuth P) (x.encapsSecret P) (x.ct1 P) (x.ekVector P)
        ct1Enc).receive P (.carrying x.epoch .ekCt1Ack c) =
        .ok (ct2Sampled x.epoch (x.nextAuth P) ct2Enc, none) := by
  obtain ⟨ct2Enc, hencodes, hct2⟩ := exists_ct2Enc (x := x) hP
  refine ⟨ct2Enc, hencodes, ?_⟩
  simp [receive, recvEkReceivedCt1Sampled, Message.carrying, hct2, bind, Except.bind, pure,
    Except.pure]

/-- A further `ek_vector` codeword at the encapsulator whose `ct1` is acknowledged. -/
lemma receive_ackMore (hP : P.Correct) {c : Chunk} (hc : IsCodeword P.rs (x.ekVector P) c)
    {ekDec : Decoder} (hdec : ekDec.Genuine P.rs (x.ekVector P)) :
    ∃ ekDec' ct2Enc, ekDec'.Genuine P.rs (x.ekVector P) ∧
      ekDec'.received.keys = insert c.index ekDec.received.keys ∧
      ct2Enc.Encodes P.rs (x.ct2WithMac P) ∧
      (ct1Acknowledged x.epoch (x.nextAuth P) (x.encapsSecret P) (x.header P) (x.ct1 P)
        ekDec).receive P (.carrying x.epoch .ekCt1Ack c) =
        .ok (if dataShardsFor pk2Len ≤ ekDec'.received.keys.card
          then ct2Sampled x.epoch (x.nextAuth P) ct2Enc
          else ct1Acknowledged x.epoch (x.nextAuth P) (x.encapsSecret P) (x.header P) (x.ct1 P)
            ekDec', none) := by
  obtain ⟨ekDec', hadd, hgen, hkeys⟩ := hdec.addChunk hP.restores hc
  obtain ⟨ct2Enc, hencodes, hct2⟩ := exists_ct2Enc (x := x) hP
  have hmsg := hgen.message hP.restores Exchange.streamable_ekVector.totalShardsFor_le
  have hval := Exchange.kem_validatePublicKey (x := x) hP
  rw [Exchange.length_ekVector] at hmsg
  refine ⟨ekDec', ct2Enc, hgen, hkeys, hencodes, ?_⟩
  by_cases hcard : dataShardsFor pk2Len ≤ ekDec'.received.keys.card
  · rw [if_pos hcard] at hmsg ⊢
    simp [receive, recvCt1Acknowledged, Message.carrying, addChunk, hadd, hmsg, hval, hct2, bind,
      Except.bind, pure, Except.pure]
  · rw [if_neg hcard] at hmsg ⊢
    simp [receive, recvCt1Acknowledged, Message.carrying, addChunk, hadd, hmsg, bind,
      Except.bind, pure, Except.pure]

end Handlers

/-! ## The parties -/

section Parties

variable {P : Prims Key} {D : Bytes → Decoder → Prop} {x : Exchange Key} {po pe : ℕ}
  {st : State Key}

/-- The receive accepts no tag but those of the exchange. -/
def AcceptsOnly (P : Prims Key) (x : Exchange Key) (m : Message) (st : State Key) : Prop :=
  ∀ q, st.acceptedTag P m = some q → q = x.headerTag P ∨ q = x.ct2Tag P

lemma AcceptsOnly.ct2Tag {epoch : ℕ} {auth : Authenticator Key} {dk ct1 : Bytes}
    {ct2Dec : Decoder} {m : Message}
    (h : AcceptsOnly P x m (.ekSentCt1Received epoch auth dk ct1 ct2Dec)) {q : MacQuery Key}
    (hq : (State.ekSentCt1Received epoch auth dk ct1 ct2Dec).acceptedTag P m = some q) :
    q = x.ct2Tag P := by
  refine (h q hq).resolve_left ?_
  rintro rfl
  simp only [State.acceptedTag] at hq
  repeat' split at hq
  all_goals first
    | cases hq
    | exact MacQuery.header_ne_ciphertext _ _ _ _ _ _ (Option.some.inj hq).symm

lemma AcceptsOnly.headerTag {epoch : ℕ} {auth : Authenticator Key} {hdrDec : Decoder}
    {m : Message} (h : AcceptsOnly P x m (.noHeaderReceived epoch auth hdrDec))
    {q : MacQuery Key} (hq : (State.noHeaderReceived epoch auth hdrDec).acceptedTag P m = some q) :
    q = x.headerTag P := by
  refine (h q hq).resolve_right ?_
  rintro rfl
  simp only [State.acceptedTag] at hq
  repeat' split at hq
  all_goals first
    | cases hq
    | exact MacQuery.header_ne_ciphertext _ _ _ _ _ _ (Option.some.inj hq)

lemma acceptedTag_of_not_listens {m : Message} (h : ¬ st.Listens m) :
    st.acceptedTag P m = none := by
  cases st <;> first | rfl | exact if_neg h

lemma OwnerView.epoch_le (v : OwnerView P D x po st) : x.epoch ≤ st.epoch := by
  cases v <;> simp [State.epoch]

lemma OwnerView.epoch_le_succ (v : OwnerView P D x po st) : st.epoch ≤ x.epoch + 1 := by
  cases v <;> simp [State.epoch]

lemma EncView.epoch_eq (v : EncView P D x pe st) : st.epoch = x.epoch := by
  cases v <;> rfl

/-- **The owner receives** a message of the encapsulator: it stays, or moves on to a later
phase; finishing the epoch emits its secret. -/
lemma OwnerView.recv (hP : P.Correct) (T : Tolerant P D) (v : OwnerView P D x po st)
    (hord : Order po pe) {m : Message} (hm : EncMsg P x pe m) (hacc : AcceptsOnly P x m st) :
    ∃ st' po', st.receive P m = .ok (st', if po < po' ∧ po' = 5 then some (x.secret P) else none) ∧
      OwnerView P D x po' st' ∧ Order po' pe ∧ po ≤ po' ∧ (1 ≤ po' → 1 ≤ po) := by
  by_cases hl : st.Listens m
  swap
  · exact ⟨st, po, by simp [State.receive_of_not_listens P hl], v, hord, le_rfl, id⟩
  -- only a `ct1` or a `ct2` codeword of this epoch is left
  cases hm with
  | old h => exact absurd hl (not_listens_of_epoch_lt (h.trans_le v.epoch_le))
  | idle => cases v <;> simp [State.Listens, Message.idle] at hl
  | ct1 hpe hc =>
      cases v with
      | keysSampled henc =>
          obtain ⟨ct1Dec, ekEnc, hgen, hek, hrecv⟩ := receive_ct1First hP hc x.auth (x.dk P) _
          refine ⟨_, 2, by simpa using hrecv, .headerSent hgen hek, ?_, by omega, by omega⟩
          have := hord.ack_after_ct1
          constructor <;> omega
      | headerSent hdec henc =>
          obtain ⟨ct1Dec', hgen, -, hrecv⟩ := receive_ct1 hP hc hdec x.auth (x.dk P) _
          split at hrecv
          · refine ⟨_, 3, by simpa using hrecv, .ct1Received henc, ?_, by omega, by omega⟩
            constructor <;> omega
          · exact ⟨_, 2, by simpa using hrecv, .headerSent hgen henc, hord, le_rfl, id⟩
      | _ => simp [State.Listens, Message.carrying] at hl
  | ct2 hpe hc =>
      cases v with
      | ct1Received henc =>
          obtain ⟨ct2Dec, hD, hrecv⟩ := receive_ct2First T hc x.auth (x.dk P) (x.ct1 P) _
          refine ⟨_, 4, by simpa using hrecv, .ekSentCt1Received hD, ?_, by omega, by omega⟩
          constructor <;> omega
      | ekSentCt1Received hdec =>
          obtain ⟨ct2Dec', -, hD, -, ⟨hrecv, -⟩ | hrecv | ⟨hrecv, -⟩⟩ :=
            receive_ct2 T hc hdec (fun q hq => hacc.ct2Tag hq) hP
          · exact ⟨_, 4, by simpa using hrecv, .ekSentCt1Received hD, hord, le_rfl, id⟩
          · refine ⟨_, 5, by simpa using hrecv, .finished ?_, ?_, by omega, by omega⟩
            · intro obj hobj
              exact hobj ▸ T.fresh obj
            · constructor <;> omega
          · exact ⟨_, 4, by simpa using hrecv, .ekSentCt1Received (T.reset _ _ hD),
              hord, le_rfl, id⟩
      | _ => simp [State.Listens, Message.carrying] at hl

lemma OwnerView.tagsOnReceive (v : OwnerView P D x po st) (m : Message) :
    st.tagsOnReceive P m = [] := by
  cases v <;> rfl

lemma ct2Tags_eq (hP : P.Correct) :
    State.ct2Tags P (x.nextAuth P) x.epoch (x.encapsSecret P) (x.ekVector P) (x.ct1 P) =
      [x.ct2Tag P] := by
  simp [State.ct2Tags, Exchange.kem_encapsulate2 hP, Exchange.ct2Tag]

lemma eq_ekVector_of_completedEk (hP : P.Correct) {c : Chunk}
    (hc : IsCodeword P.rs (x.ekVector P) c) {ekDec : Decoder}
    (hdec : ekDec.Genuine P.rs (x.ekVector P)) {header ekVector : Bytes} {mtype : MsgType}
    (h : State.completedEk P (.carrying x.epoch mtype c) header ekDec = some ekVector) :
    ekVector = x.ekVector P := by
  obtain ⟨ekDec', hadd, hgen, -⟩ := hdec.addChunk hP.restores hc
  simp only [State.completedEk, State.addChunk, Message.carrying, hadd, bind, Except.bind] at h
  split at h
  · rename_i obj hobj
    have hsame := hgen.eq_of_message hP.restores Exchange.streamable_ekVector.totalShardsFor_le hobj
    split at h
    · exact (Option.some.inj h).symm.trans hsame
    · cases h
  · cases h

/-- A tag computed on receipt is that of the exchange's `ct2`. -/
lemma EncView.tagsOnReceive (hP : P.Correct) (v : EncView P D x pe st) {m : Message}
    (hm : OwnerMsg P x po m) {q : MacQuery Key} (hq : q ∈ st.tagsOnReceive P m) :
    q = x.ct2Tag P ∧ 2 ≤ pe := by
  -- a tag is computed only on an acknowledgement of this epoch, which carries a codeword
  have hcodeword : m.epoch = x.epoch ∧ m.mtype = .ekCt1Ack →
      ∃ c, m = .carrying x.epoch .ekCt1Ack c ∧ IsCodeword P.rs (x.ekVector P) c := by
    rintro ⟨hepoch, htype⟩
    cases hm with
    | old h => exact absurd hepoch h.ne
    | ekCt1Ack _ hc => exact ⟨_, rfl, hc⟩
    | _ => cases htype
  cases v with
  | ct1Sampled henc hdec =>
      simp only [State.tagsOnReceive] at hq
      split at hq
      · rename_i hack
        obtain ⟨c, rfl, hc⟩ := hcodeword hack
        split at hq
        · rename_i hek
          rw [eq_ekVector_of_completedEk hP hc hdec hek, ct2Tags_eq hP] at hq
          exact ⟨List.mem_singleton.mp hq, le_rfl⟩
        · cases hq
      · cases hq
  | ct1Acknowledged hdec =>
      simp only [State.tagsOnReceive] at hq
      split at hq
      · rename_i hack
        obtain ⟨c, rfl, hc⟩ := hcodeword hack
        split at hq
        · rename_i hek
          rw [eq_ekVector_of_completedEk hP hc hdec hek, ct2Tags_eq hP] at hq
          exact ⟨List.mem_singleton.mp hq, by omega⟩
        · cases hq
      · cases hq
  | ekReceivedCt1Sampled henc =>
      simp only [State.tagsOnReceive] at hq
      split at hq
      · rw [ct2Tags_eq hP] at hq
        exact ⟨List.mem_singleton.mp hq, by omega⟩
      · cases hq
  | _ => cases hq

/-- Whoever samples keys computes a header tag. -/
lemma exists_mem_tagsOnSend {rng : Rng} {epoch : ℕ} {auth : Authenticator Key} {st' : State Key}
    {m : Message} {o : Option (EpochSecret Key)}
    (h : State.Sends P rng (.keysUnsampled epoch auth) st' m o) :
    ∃ q, q ∈ (State.keysUnsampled epoch auth).tagsOnSend P rng := by
  cases h with
  | sampleKeys hpk henc =>
      simp only [State.tagsOnSend, hpk]
      exact ⟨_, List.mem_singleton_self _⟩

lemma exists_mem_ct2Tags {auth : Authenticator Key} {epoch : ℕ} {es ek ct1 : Bytes}
    {ct2Enc : Encoder} (h : State.buildCt2Encoder P auth epoch es ek ct1 = .ok ct2Enc) :
    ∃ q, q ∈ State.ct2Tags P auth epoch es ek ct1 := by
  obtain ⟨ct2, hkem, -⟩ := Result.of_bind_eq_ok h
  simp only [State.ct2Tags, hkem]
  exact ⟨_, List.mem_singleton_self _⟩

/-- Whoever starts to stream `ct2` computes its tag. -/
lemma exists_mem_tagsOnReceive {m : Message} {st' : State Key} {o : Option (EpochSecret Key)}
    {epoch : ℕ} {auth : Authenticator Key} {ct2Enc : Encoder} (h : State.Receives P m st st' o)
    (hst' : st' = .ct2Sampled epoch auth ct2Enc) (hne : st' ≠ st) :
    ∃ q, q ∈ st.tagsOnReceive P m := by
  cases h with
  | ignore => exact absurd rfl hne
  | ackFirstDone hepoch htype hadd hmsg hval hct2 =>
      simpa [State.tagsOnReceive, State.completedEk, hepoch, htype, hadd, hmsg, hval, bind,
        Except.bind] using exists_mem_ct2Tags hct2
  | ackAfterEk hepoch htype hct2 =>
      simpa [State.tagsOnReceive, hepoch, htype] using exists_mem_ct2Tags hct2
  | ackDone hepoch htype hadd hmsg hval hct2 =>
      simpa [State.tagsOnReceive, State.completedEk, hepoch, htype, hadd, hmsg, hval, bind,
        Except.bind] using exists_mem_ct2Tags hct2
  | _ => cases hst'

/-- **The encapsulator receives** a message of the owner: it stays, moves on to a later phase,
or, when the owner has finished, becomes the owner of the next epoch. -/
lemma EncView.recv (hP : P.Correct) (T : Tolerant P D) (v : EncView P D x pe st)
    (hord : Order po pe) {m : Message} (hm : OwnerMsg P x po m) (hacc : AcceptsOnly P x m st) :
    (∃ st' pe', st.receive P m = .ok (st', none) ∧ EncView P D x pe' st' ∧ Order po pe' ∧
      pe ≤ pe' ∧ (2 ≤ pe' → 2 ≤ pe) ∧ (po = 0 → st' = st ∧ pe' = pe)) ∨
    (5 ≤ po ∧ pe = 5 ∧
      st.receive P m = .ok (.keysUnsampled (x.epoch + 1) (x.nextAuth P), none)) := by
  by_cases hl : st.Listens m
  swap
  · exact .inl ⟨st, pe, State.receive_of_not_listens P hl, v, hord, le_rfl, id, fun _ => ⟨rfl, rfl⟩⟩
  cases hm with
  | old h => exact absurd hl (not_listens_of_epoch_lt (v.epoch_eq.symm ▸ h))
  | idle => cases v <;> simp [State.Listens, Message.idle] at hl
  | hdr hpo hc =>
      cases v with
      | noHeaderReceived hdec =>
          left
          obtain ⟨hdrDec', -, hD, -, ⟨hrecv, -⟩ | hrecv | ⟨hrecv, -⟩⟩ :=
            receive_hdr T hc hdec (fun q hq => hacc.headerTag hq)
          · exact ⟨_, 0, hrecv, .noHeaderReceived hD, hord, le_rfl, id, by omega⟩
          · refine ⟨_, 1, hrecv, .headerReceived rfl, ?_, by omega, by omega, by omega⟩
            have := hord.ct1_after_encaps
            constructor <;> omega
          · exact ⟨_, 0, hrecv, .noHeaderReceived (T.reset _ _ hD), hord, le_rfl, id, by omega⟩
      | _ => simp [State.Listens, Message.carrying] at hl
  | ek hpo hc =>
      cases v with
      | ct1Sampled henc hdec =>
          left
          obtain ⟨ekDec', hgen, hrecv⟩ := receive_ek hP hc hdec (x.nextAuth P)
            (x.encapsSecret P) (x.ct1 P) _
          split at hrecv
          · refine ⟨_, 3, hrecv, .ekReceivedCt1Sampled henc, ?_, by omega, by omega, by omega⟩
            have := hord.ct2_after_ack
            constructor <;> omega
          · exact ⟨_, 2, hrecv, .ct1Sampled henc hgen, hord, le_rfl, id, by omega⟩
      | _ => simp [State.Listens, Message.carrying] at hl
  | ekCt1Ack hpo hc =>
      cases v with
      | ct1Sampled henc hdec =>
          left
          obtain ⟨ekDec', ct2Enc, hgen, hct2, hrecv⟩ := receive_ekAck hP hc hdec _
          split at hrecv
          · refine ⟨_, 5, hrecv, .ct2Sampled hct2, ?_, by omega, by omega, by omega⟩
            constructor <;> omega
          · refine ⟨_, 4, hrecv, .ct1Acknowledged hgen, ?_, by omega, by omega, by omega⟩
            have := hord.ct2_after_ack
            constructor <;> omega
      | ekReceivedCt1Sampled henc =>
          left
          obtain ⟨ct2Enc, hct2, hrecv⟩ := receive_ackAfterEk (x := x) hP _ _
          refine ⟨_, 5, hrecv, .ct2Sampled hct2, ?_, by omega, by omega, by omega⟩
          constructor <;> omega
      | ct1Acknowledged hdec =>
          left
          obtain ⟨ekDec', ct2Enc, hgen, -, hct2, hrecv⟩ := receive_ackMore hP hc hdec
          split at hrecv
          · refine ⟨_, 5, hrecv, .ct2Sampled hct2, ?_, by omega, by omega, by omega⟩
            constructor <;> omega
          · exact ⟨_, 4, hrecv, .ct1Acknowledged hgen, hord, le_rfl, id, by omega⟩
      | _ => simp [State.Listens, Message.carrying] at hl
  | next hpo =>
      cases v with
      | ct2Sampled henc =>
          right
          refine ⟨hpo, rfl, ?_⟩
          simp [State.receive, State.recvCt2Sampled, Message.idle]
      | _ => simp [State.Listens, Message.idle] at hl

/-- **The owner sends**: its keys are sampled on the first call, every other call leaves the
phase. -/
lemma OwnerView.send (hP : P.Correct) (v : OwnerView P D x po st) (rng : Rng) :
    ∃ x' st' po' m, st.send P rng = .ok (st', m, none) ∧ OwnerView P D x' po' st' ∧
      OwnerMsg P x' po' m ∧ (∀ q ∈ st.tagsOnSend P rng, q = x'.headerTag P) ∧
      (po = 0 ∧ po' = 1 ∧ x' = x.withSeed rng ∨ po ≠ 0 ∧ po' = po ∧ x' = x) := by
  cases v with
  | keysUnsampled =>
      have hpk : Kem.publicKeyParts P.kem (Kem.generateKeypair P.kem (rng.fill seedLen)) =
          .ok ((x.withSeed rng).header P, (x.withSeed rng).ekVector P) :=
        Exchange.kem_publicKeyParts (x := x.withSeed rng)
      obtain ⟨enc, hnew⟩ := Encoder.exists_new hP.rs
        (Exchange.streamable_headerWithMac (P := P) (x := x.withSeed rng))
      obtain ⟨hc, -, henc⟩ := (Encoder.encodes_of_new hnew).nextChunk hP.restores
        Exchange.streamable_headerWithMac.totalShardsFor_le
      refine ⟨x.withSeed rng, .keysSampled x.epoch x.auth ((x.withSeed rng).dk P)
        ((x.withSeed rng).ekVector P) enc.nextChunk.2, 1, .carrying x.epoch .hdr enc.nextChunk.1,
        ?_, .keysSampled henc, .hdr le_rfl hc, ?_, .inl ⟨rfl, rfl, rfl⟩⟩
      · have hnew' : Encoder.new P.rs ((x.withSeed rng).header P ++
            x.auth.macHdr P.hash x.epoch ((x.withSeed rng).header P)) = .ok enc := hnew
        simp only [State.send, hpk, bind, Except.bind, hnew']
        rfl
      · intro q hq
        simp only [State.tagsOnSend, hpk, List.mem_singleton] at hq
        exact hq
  | keysSampled henc =>
      obtain ⟨hc, -, henc'⟩ := henc.nextChunk hP.restores
        Exchange.streamable_headerWithMac.totalShardsFor_le
      exact ⟨x, _, 1, _, rfl, .keysSampled henc', .hdr le_rfl hc, by simp [State.tagsOnSend],
        .inr ⟨by omega, rfl, rfl⟩⟩
  | headerSent hdec henc =>
      obtain ⟨hc, -, henc'⟩ := henc.nextChunk hP.restores
        Exchange.streamable_ekVector.totalShardsFor_le
      exact ⟨x, _, 2, _, rfl, .headerSent hdec henc', .ek le_rfl hc, by simp [State.tagsOnSend],
        .inr ⟨by omega, rfl, rfl⟩⟩
  | ct1Received henc =>
      obtain ⟨hc, -, henc'⟩ := henc.nextChunk hP.restores
        Exchange.streamable_ekVector.totalShardsFor_le
      exact ⟨x, _, 3, _, rfl, .ct1Received henc', .ekCt1Ack le_rfl hc,
        by simp [State.tagsOnSend], .inr ⟨by omega, rfl, rfl⟩⟩
  | ekSentCt1Received hdec =>
      exact ⟨x, _, 4, _, rfl, .ekSentCt1Received hdec, .idle, by simp [State.tagsOnSend],
        .inr ⟨by omega, rfl, rfl⟩⟩
  | finished hdec =>
      exact ⟨x, _, 5, _, rfl, .finished hdec, .next le_rfl, by simp [State.tagsOnSend],
        .inr ⟨by omega, rfl, rfl⟩⟩

/-- **The encapsulator sends**: with the header at hand it encapsulates and emits the epoch's
secret, every other call leaves the phase. -/
lemma EncView.send (hP : P.Correct) (v : EncView P D x pe st) (rng : Rng) :
    ∃ x' st' pe' m o, st.send P rng = .ok (st', m, o) ∧ EncView P D x' pe' st' ∧
      EncMsg P x' pe' m ∧ st.tagsOnSend P rng = [] ∧
      (pe = 1 ∧ pe' = 2 ∧ x' = x.withRand rng ∧ o = some (x'.secret P) ∨
        pe ≠ 1 ∧ pe' = pe ∧ x' = x ∧ o = none ∧ (pe = 0 → st' = st)) := by
  cases v with
  | headerReceived hdec =>
      have hkem : Kem.encapsulate1 P.kem (x.header P) (rng.fill encapsRandomnessLen) =
          .ok ((x.withRand rng).ct1 P, (x.withRand rng).encapsSecret P,
            (x.withRand rng).rawSs P) := Exchange.kem_encapsulate1 (x := x.withRand rng) hP
      obtain ⟨enc, hnew⟩ := Encoder.exists_new hP.rs
        (Exchange.streamable_ct1 (x := x.withRand rng) hP)
      obtain ⟨hc, -, henc⟩ := (Encoder.encodes_of_new hnew).nextChunk hP.restores
        (Exchange.streamable_ct1 hP).totalShardsFor_le
      have hgen := Decoder.genuine_new P.rs ((x.withRand rng).ekVector P)
      rw [Exchange.length_ekVector, ← hdec] at hgen
      refine ⟨x.withRand rng, _, 2, .carrying x.epoch .ct1 enc.nextChunk.1,
        some ((x.withRand rng).secret P), ?_, .ct1Sampled henc hgen, .ct1 le_rfl hc, rfl,
        .inl ⟨rfl, rfl, rfl, rfl⟩⟩
      simp only [State.send, hkem, bind, Except.bind, hnew]
      rfl
  | noHeaderReceived hdec =>
      exact ⟨x, _, 0, _, _, rfl, .noHeaderReceived hdec, .idle, rfl,
        .inr ⟨by omega, rfl, rfl, rfl, fun _ => rfl⟩⟩
  | ct1Sampled henc hdec =>
      obtain ⟨hc, -, henc'⟩ := henc.nextChunk hP.restores
        (Exchange.streamable_ct1 hP).totalShardsFor_le
      exact ⟨x, _, 2, _, _, rfl, .ct1Sampled henc' hdec, .ct1 le_rfl hc, rfl,
        .inr ⟨by omega, rfl, rfl, rfl, by omega⟩⟩
  | ekReceivedCt1Sampled henc =>
      obtain ⟨hc, -, henc'⟩ := henc.nextChunk hP.restores
        (Exchange.streamable_ct1 hP).totalShardsFor_le
      exact ⟨x, _, 3, _, _, rfl, .ekReceivedCt1Sampled henc', .ct1 (by omega) hc, rfl,
        .inr ⟨by omega, rfl, rfl, rfl, by omega⟩⟩
  | ct1Acknowledged hdec =>
      exact ⟨x, _, 4, _, _, rfl, .ct1Acknowledged hdec, .idle, rfl,
        .inr ⟨by omega, rfl, rfl, rfl, by omega⟩⟩
  | ct2Sampled henc =>
      obtain ⟨hc, -, henc'⟩ := henc.nextChunk hP.restores
        Exchange.streamable_ct2WithMac.totalShardsFor_le
      exact ⟨x, _, 5, _, _, rfl, .ct2Sampled henc', .ct2 le_rfl hc, rfl,
        .inr ⟨by omega, rfl, rfl, rfl, by omega⟩⟩

/-- What a genuine decoder yields is the exchange's own object, so the owner accepts nothing
else. -/
lemma OwnerView.acceptsOnly (hP : P.Correct) (v : OwnerView P (Decoder.Genuine P.rs) x po st)
    {m : Message} (hm : EncMsg P x pe m) : AcceptsOnly P x m st := by
  intro q hq
  by_cases hl : st.Listens m
  swap
  · rw [acceptedTag_of_not_listens hl] at hq
    cases hq
  cases v with
  | ekSentCt1Received hdec =>
      cases hm with
      | ct2 _ hc =>
          obtain ⟨dec', hadd, hgen, -⟩ := hdec.addChunk hP.restores hc
          have hmsg := hgen.message hP.restores Exchange.streamable_ct2WithMac.totalShardsFor_le
          by_cases hcard : dataShardsFor (x.ct2WithMac P).length ≤ dec'.received.keys.card
          · rw [if_pos hcard] at hmsg
            have hnext : x.auth.update P.hash x.epoch (Auth.kdfOk P.hash (x.rawSs P) x.epoch) =
                x.nextAuth P := rfl
            simp only [State.acceptedTag, State.addChunk, Message.carrying, and_self, if_true,
              hadd, bind, Except.bind, hmsg, Exchange.take_ct2WithMac,
              Exchange.drop_ct2WithMac, Exchange.kem_decapsulate hP, hnext,
              Authenticator.vfyCt_macCt] at hq
            exact .inr (Option.some.inj hq).symm
          · rw [if_neg hcard] at hmsg
            simp [State.acceptedTag, State.addChunk, Message.carrying, hadd, hmsg, bind,
              Except.bind] at hq
      | old h => exact absurd hl.1 h.ne
      | _ => cases hl.2
  | finished hdec =>
      have hlt : m.epoch < x.epoch + 1 := by
        cases hm with
        | old h => exact h.trans (Nat.lt_succ_self _)
        | _ => exact Nat.lt_succ_self _
      exact absurd hl.1 hlt.ne
  | _ => cases hq

lemma EncView.acceptsOnly (hP : P.Correct) (v : EncView P (Decoder.Genuine P.rs) x pe st)
    {m : Message} (hm : OwnerMsg P x po m) : AcceptsOnly P x m st := by
  intro q hq
  by_cases hl : st.Listens m
  swap
  · rw [acceptedTag_of_not_listens hl] at hq
    cases hq
  cases v with
  | noHeaderReceived hdec =>
      cases hm with
      | hdr _ hc =>
          obtain ⟨dec', hadd, hgen, -⟩ := hdec.addChunk hP.restores hc
          have hmsg := hgen.message hP.restores Exchange.streamable_headerWithMac.totalShardsFor_le
          by_cases hcard : dataShardsFor (x.headerWithMac P).length ≤ dec'.received.keys.card
          · rw [if_pos hcard] at hmsg
            simp only [State.acceptedTag, State.addChunk, Message.carrying, and_self, if_true,
              hadd, bind, Except.bind, hmsg, Exchange.take_headerWithMac,
              Exchange.drop_headerWithMac, Authenticator.vfyHdr_macHdr] at hq
            exact .inl (Option.some.inj hq).symm
          · rw [if_neg hcard] at hmsg
            simp [State.acceptedTag, State.addChunk, Message.carrying, hadd, hmsg, bind,
              Except.bind] at hq
      | old h => exact absurd hl.1 h.ne
      | _ => cases hl.2
  | _ => cases hq

end Parties

end Hushwire
