import Hushwire.Braid.Network
import Hushwire.Library.Cycle

/-!
# Loss never deadlocks the braid

In every pair of phases two honest parties can be in, one of them is the *leader*: its next
message, delivered, moves the pair on.  Either the message itself starts a new phase, or it
is one more codeword of the object the follower is collecting, and the collector's distance
to the whole object (`Cycle.wait`) falls.  A decoder that was fed foreign codewords has to be
emptied once before it can succeed; `Dirty` marks that, and it never becomes true again
within a phase.

`distance` puts stage, `Dirty` and `Cycle.wait` into one number that falls with every
loss-free round, and `no_deadlock` counts rounds with it.
-/

namespace Hushwire

open Duplex

variable {Key : Type}

namespace State

/-- What a state streams, and where in the cycle its encoder stands. -/
def stream : State Key → Option (MsgType × ℕ)
  | keysSampled _ _ _ _ headerEnc => some (.hdr, headerEnc.cursor)
  | headerSent _ _ _ _ ekEnc => some (.ek, ekEnc.cursor)
  | ct1Received _ _ _ _ ekEnc => some (.ek, ekEnc.cursor)
  | ct1Sampled _ _ _ _ _ ct1Enc _ => some (.ct1, ct1Enc.cursor)
  | ekReceivedCt1Sampled _ _ _ _ _ ct1Enc => some (.ct1, ct1Enc.cursor)
  | ct2Sampled _ _ ct2Enc => some (.ct2, ct2Enc.cursor)
  | _ => none

/-- The object a state needs to move on, and the decoder that collects it. -/
def await : State Key → Option (MsgType × Decoder)
  | headerSent _ _ _ ct1Dec _ => some (.ct1, ct1Dec)
  | ekSentCt1Received _ _ _ _ ct2Dec => some (.ct2, ct2Dec)
  | noHeaderReceived _ _ hdrDec => some (.hdr, hdrDec)
  | ct1Acknowledged _ _ _ _ _ ekDec => some (.ek, ekDec)
  | _ => none

/-- The follower's distance to the object the leader streams. -/
def lag (leader follower : State Key) : ℕ :=
  match leader.stream, follower.await with
  | some (k, c), some (k', dec) =>
      if k = k' then Cycle.wait dec.totalShards dec.received.keys c else 0
  | _, _ => 0

/-- The decoder of an object that carries a MAC holds something foreign. -/
def Dirty (P : Prims Key) (x : Exchange Key) (st : State Key) : Prop :=
  match st.await with
  | some (.hdr, dec) => ¬ dec.Genuine P.rs (x.headerWithMac P)
  | some (.ct2, dec) => ¬ dec.Genuine P.rs (x.ct2WithMac P)
  | _ => False

variable {P : Prims Key}

/-- Sending never touches a decoder. -/
lemma Sends.await_eq {rng : Rng} {st st' : State Key} {m : Message}
    {o : Option (EpochSecret Key)} (h : Sends P rng st st' m o) : st'.await = st.await := by
  cases h <;> rfl

end State

/-- The owner's next message is the one that counts. -/
def OwnerLeads (po pe : ℕ) : Prop := po = 0 ∨ (po = 1 ∧ pe = 0) ∨ (po = 3 ∧ pe < 5) ∨ po = 5

instance (po pe : ℕ) : Decidable (OwnerLeads po pe) := by
  unfold OwnerLeads
  infer_instance

section Progress

variable {P : Prims Key} {D : Bytes → Decoder → Prop} {x : Exchange Key} {po pe : ℕ}
  {a a' c c' : State Key} {rng : Rng} {m : Message} {o o' : Option (EpochSecret Key)}

/-- The follower has come closer to its object, or has thrown away a foreign one. -/
def Closer (P : Prims Key) (x : Exchange Key) (a c a' c' : State Key) : Prop :=
  (State.lag a' c' < State.lag a c ∧ (c'.Dirty P x → c.Dirty P x)) ∨
    (c.Dirty P x ∧ ¬ c'.Dirty P x)

/-- A codeword that left the object incomplete was one step towards it. -/
lemma lag_lt {k : MsgType} {cursor n : ℕ} {dec dec' : Decoder} (ha : a.stream = some (k, cursor))
    (ha' : a'.stream = some (k, cursor + 1)) (hc : c.await = some (k, dec))
    (hc' : c'.await = some (k, dec')) (hn : dec.totalShards = n) (hn' : dec'.totalShards = n)
    (hkeys : dec'.received.keys = insert (cursor % n) dec.received.keys)
    (hcard : dec'.received.keys.card < n) :
    State.lag a' c' < State.lag a c := by
  simp only [State.lag, ha, ha', hc, hc', if_true, hn, hn', hkeys]
  refine Cycle.wait_insert_lt ?_
  rw [Finset.sdiff_nonempty]
  intro hsub
  have hle : n ≤ dec.received.keys.card := by simpa using Finset.card_le_card hsub
  have hmono := Finset.card_le_card (Finset.subset_insert (cursor % n) dec.received.keys)
  rw [hkeys] at hcard
  omega

lemma Decoder.card_lt_of_message_eq_none {rs : ReedSolomon} {dec : Decoder}
    (h : dec.message rs = .ok none) : dec.received.keys.card < dec.dataShards :=
  not_le.mp (of_decide_eq_false (Decoder.hasMessage_of_message h))

/-- A decoder that throws a complete object away is clean afterwards. -/
lemma Tolerant.genuine_reset (T : Tolerant P D) {obj : Bytes} {dec : Decoder} (h : D obj dec) :
    dec.reset.Genuine P.rs obj := by
  obtain ⟨hlen, hdata, hrecovery⟩ := T.sized obj dec h
  refine ⟨hlen, hdata, hrecovery, ?_⟩
  intro i d hd
  simp [Decoder.reset] at hd

lemma Tolerant.totalShards (T : Tolerant P D) {obj : Bytes} {dec : Decoder} (h : D obj dec) :
    dec.totalShards = totalShardsFor obj.length := by
  obtain ⟨-, hdata, hrecovery⟩ := T.sized obj dec h
  rw [Decoder.totalShards, hdata, hrecovery, totalShardsFor]

/-- A codeword of the exchange does not soil a clean decoder. -/
lemma genuine_of_addChunk (hP : P.Correct) {obj : Bytes} {dec dec' : Decoder} {ch : Chunk}
    (h : dec.Genuine P.rs obj) (hc : IsCodeword P.rs obj ch) (hadd : dec.addChunk ch = .ok dec') :
    dec'.Genuine P.rs obj := by
  obtain ⟨dec'', hadd', hgen, -⟩ := h.addChunk hP.restores hc
  rw [hadd] at hadd'
  exact Except.ok.inj hadd' ▸ hgen

section Objects

variable {obj got : Bytes} {dec dec' : Decoder} {ch : Chunk}

/-- A follower whose object is still incomplete has come closer to it. -/
lemma closer_of_incomplete (hP : P.Correct) (T : Tolerant P D) {k : MsgType} {cursor : ℕ}
    (ha : a.stream = some (k, cursor)) (ha' : a'.stream = some (k, cursor + 1))
    (hc : c.await = some (k, dec)) (hc' : c'.await = some (k, dec'))
    (hdirty : c.Dirty P x ↔ ¬ dec.Genuine P.rs obj)
    (hdirty' : c'.Dirty P x ↔ ¬ dec'.Genuine P.rs obj) (hdec : D obj dec) (hD : D obj dec')
    (hcode : IsCodeword P.rs obj ch) (hadd : dec.addChunk ch = .ok dec')
    (hkeys : dec'.received.keys =
      insert (cursor % totalShardsFor obj.length) dec.received.keys)
    (hmsg : dec'.message P.rs = .ok none) : Closer P x a c a' c' := by
  refine .inl ⟨?_, ?_⟩
  · refine lag_lt ha ha' hc hc' (T.totalShards hdec) (T.totalShards hD) hkeys ?_
    refine (Decoder.card_lt_of_message_eq_none hmsg).trans ?_
    rw [(T.sized _ _ hD).2.1]
    exact dataShardsFor_lt_total _
  · rw [hdirty, hdirty']
    intro hsoiled hgen
    exact hsoiled (genuine_of_addChunk hP hgen hcode hadd)

/-- One that has thrown its object away had a foreign codeword, and has none any more. -/
lemma closer_of_thrown (hP : P.Correct) (T : Tolerant P D)
    (hdirty : c.Dirty P x ↔ ¬ dec.Genuine P.rs obj)
    (hdirty' : c'.Dirty P x ↔ ¬ dec'.reset.Genuine P.rs obj) (hD : D obj dec')
    (hcode : IsCodeword P.rs obj ch) (hadd : dec.addChunk ch = .ok dec') (hobj : Streamable obj)
    (hmsg : dec'.message P.rs = .ok (some got)) (hne : got ≠ obj) : Closer P x a c a' c' := by
  refine .inr ⟨?_, ?_⟩
  · rw [hdirty]
    intro hgen
    exact hne ((genuine_of_addChunk hP hgen hcode hadd).eq_of_message hP.restores
      hobj.totalShardsFor_le hmsg)
  · rw [hdirty', not_not]
    exact T.genuine_reset hD

end Objects

/-- **The owner leads**: its message, delivered, brings a pair that stays in its phases closer
to the next one. -/
lemma owner_progress (hP : P.Correct) (T : Tolerant P D) (v : OwnerView P D x po a)
    (w : EncView P D x pe c) (hord : Order po pe) (hlead : OwnerLeads po pe)
    (hsend : a.send P rng = .ok (a', m, o)) (hrecv : c.receive P m = .ok (c', o'))
    (hacc : AcceptsOnly P x m c) (v' : OwnerView P D x po a') (w' : EncView P D x pe c') :
    Closer P x a c a' c' := by
  rcases hlead with rfl | ⟨rfl, rfl⟩ | ⟨rfl, hpe⟩ | rfl
  · -- keys unsampled: sending samples them
    cases v
    cases State.Sends.of_send hsend
    cases v'
  · -- the header is being streamed
    cases v with | keysSampled henc =>
    cases w with | noHeaderReceived hdec =>
    cases State.Sends.of_send hsend
    obtain ⟨hcode, hindex, -⟩ := henc.nextChunk hP.restores
      Exchange.streamable_headerWithMac.totalShardsFor_le
    obtain ⟨dec', hadd, hD, hkeys, ⟨hrecv', hmsg⟩ | hrecv' | ⟨hrecv', obj, hmsg, hobj⟩⟩ :=
      receive_hdr T hcode hdec (fun q hq => hacc.headerTag hq)
    · rw [hrecv'] at hrecv
      cases hrecv
      exact closer_of_incomplete hP T rfl rfl rfl rfl .rfl .rfl hdec hD hcode hadd
        (hindex ▸ hkeys) hmsg
    · rw [hrecv'] at hrecv
      cases hrecv
      cases w'
    · rw [hrecv'] at hrecv
      cases hrecv
      exact closer_of_thrown hP T .rfl .rfl hD hcode hadd
        Exchange.streamable_headerWithMac hmsg hobj
  · -- `ct1` has arrived: the owner acknowledges it
    cases v with | ct1Received henc =>
    cases State.Sends.of_send hsend
    obtain ⟨hcode, hindex, -⟩ := henc.nextChunk hP.restores
      Exchange.streamable_ekVector.totalShardsFor_le
    cases w with
    | noHeaderReceived => exact absurd (hord.ct1_after_encaps (by omega)) (by omega)
    | headerReceived => exact absurd (hord.ct1_after_encaps (by omega)) (by omega)
    | ct1Sampled henc' hdec =>
        obtain ⟨dec', ct2Enc, -, -, hrecv'⟩ := receive_ekAck hP hcode hdec _
        rw [hrecv'] at hrecv
        split at hrecv <;> cases hrecv <;> cases w'
    | ekReceivedCt1Sampled henc' =>
        obtain ⟨ct2Enc, -, hrecv'⟩ := receive_ackAfterEk (x := x) hP _ _
        rw [hrecv'] at hrecv
        cases hrecv
        cases w'
    | ct1Acknowledged hdec =>
        obtain ⟨dec', ct2Enc, hgen, hkeys, -, hrecv'⟩ := receive_ackMore hP hcode hdec
        rw [hrecv'] at hrecv
        split at hrecv
        · cases hrecv
          cases w'
        · rename_i hcard
          cases hrecv
          have hT := tolerant_genuine hP
          refine .inl ⟨lag_lt rfl rfl rfl rfl (hT.totalShards hdec) (hT.totalShards hgen)
            (hindex ▸ hkeys) ?_, id⟩
          rw [Exchange.length_ekVector]
          exact (not_le.mp hcard).trans (dataShardsFor_lt_total _)
    | ct2Sampled => omega
  · -- the owner has finished: its next message ends the epoch for the peer
    cases v with | finished hdec =>
    cases State.Sends.of_send hsend
    have hpe : pe = 5 := le_antisymm w.phase_le (hord.ct2_after_ack (by omega))
    subst hpe
    cases w with | ct2Sampled henc =>
    simp only [State.receive, State.recvCt2Sampled, Message.idle, if_true] at hrecv
    cases hrecv
    cases w'

/-- **The encapsulator leads** in all other phases. -/
lemma enc_progress (hP : P.Correct) (T : Tolerant P D) (v : OwnerView P D x po c)
    (w : EncView P D x pe a) (hord : Order po pe) (hlead : ¬ OwnerLeads po pe)
    (hsend : a.send P rng = .ok (a', m, o)) (hrecv : c.receive P m = .ok (c', o'))
    (hacc : AcceptsOnly P x m c) (v' : OwnerView P D x po c') (w' : EncView P D x pe a') :
    Closer P x a c a' c' := by
  unfold OwnerLeads at hlead
  cases v with
  | keysUnsampled => omega
  | finished hdec => omega
  | keysSampled henc =>
      cases w with
      | noHeaderReceived => omega
      | headerReceived hdec =>
          -- the header has arrived: sending encapsulates
          cases State.Sends.of_send hsend
          cases w'
      | ct1Sampled henc' hdec =>
          -- the first `ct1` codeword moves the owner on
          cases State.Sends.of_send hsend
          obtain ⟨hcode, -, -⟩ := henc'.nextChunk hP.restores
            (Exchange.streamable_ct1 hP).totalShardsFor_le
          obtain ⟨ct1Dec, ekEnc, -, -, hrecv'⟩ := receive_ct1First hP hcode x.auth (x.dk P) _
          rw [hrecv'] at hrecv
          cases hrecv
          cases v'
      | _ => exact absurd (hord.ek_after_ct1 (by omega)) (by omega)
  | @headerSent ct1Dec ekEnc hdec henc =>
      -- `ct1` is being streamed, with or without the `ek_vector` at hand
      have hT := tolerant_genuine hP
      have hstream : ∀ {enc : Encoder}, enc.Encodes P.rs (x.ct1 P) →
          m = .carrying x.epoch .ct1 enc.nextChunk.1 → a.stream = some (.ct1, enc.cursor) →
          a'.stream = some (.ct1, enc.cursor + 1) →
          Closer P x a (.headerSent x.epoch x.auth (x.dk P) ct1Dec ekEnc) a' c' := by
        intro enc hct1 hm ha ha'
        subst hm
        obtain ⟨hcode, hindex, -⟩ :=
          hct1.nextChunk hP.restores (Exchange.streamable_ct1 hP).totalShardsFor_le
        obtain ⟨ct1Dec', hgen, hkeys, hrecv'⟩ := receive_ct1 hP hcode hdec x.auth (x.dk P) _
        rw [hrecv'] at hrecv
        split at hrecv
        · cases hrecv
          cases v'
        · rename_i hcard
          cases hrecv
          refine .inl ⟨lag_lt ha ha' rfl rfl (hT.totalShards hdec) (hT.totalShards hgen)
            (hindex ▸ hkeys) ?_, id⟩
          rw [Exchange.length_ct1 hP]
          exact (not_le.mp hcard).trans (dataShardsFor_lt_total _)
      cases w with
      | ct1Sampled henc' hdec' =>
          cases State.Sends.of_send hsend
          exact hstream henc' rfl rfl rfl
      | ekReceivedCt1Sampled henc' =>
          cases State.Sends.of_send hsend
          exact hstream henc' rfl rfl rfl
      | noHeaderReceived => exact absurd (hord.ct1_after_encaps (by omega)) (by omega)
      | headerReceived => exact absurd (hord.ct1_after_encaps (by omega)) (by omega)
      | ct1Acknowledged => exact absurd (hord.ack_after_ct1 (by omega)) (by omega)
      | ct2Sampled => exact absurd (hord.ack_after_ct1 (by omega)) (by omega)
  | ct1Received henc =>
      -- the first `ct2` codeword moves the owner on
      have hpe : pe = 5 := le_antisymm w.phase_le (by omega)
      subst hpe
      cases w with | ct2Sampled henc' =>
      cases State.Sends.of_send hsend
      obtain ⟨hcode, -, -⟩ := henc'.nextChunk hP.restores
        Exchange.streamable_ct2WithMac.totalShardsFor_le
      obtain ⟨ct2Dec, -, hrecv'⟩ := receive_ct2First T hcode x.auth (x.dk P) (x.ct1 P) _
      rw [hrecv'] at hrecv
      cases hrecv
      cases v'
  | ekSentCt1Received hdec =>
      -- `ct2` is being streamed
      have hpe : pe = 5 := le_antisymm w.phase_le (hord.ct2_after_ack (by omega))
      subst hpe
      cases w with | ct2Sampled henc' =>
      cases State.Sends.of_send hsend
      obtain ⟨hcode, hindex, -⟩ := henc'.nextChunk hP.restores
        Exchange.streamable_ct2WithMac.totalShardsFor_le
      obtain ⟨dec', hadd, hD, hkeys, ⟨hrecv', hmsg⟩ | hrecv' | ⟨hrecv', obj, hmsg, hobj⟩⟩ :=
        receive_ct2 T hcode hdec (fun q hq => hacc.ct2Tag hq) hP
      · rw [hrecv'] at hrecv
        cases hrecv
        exact closer_of_incomplete hP T rfl rfl rfl rfl .rfl .rfl hdec hD hcode hadd
          (hindex ▸ hkeys)
          hmsg
      · rw [hrecv'] at hrecv
        cases hrecv
        cases v'
      · rw [hrecv'] at hrecv
        cases hrecv
        exact closer_of_thrown hP T .rfl .rfl hD hcode hadd Exchange.streamable_ct2WithMac hmsg hobj

/-- A receive that leaves the phase leaves the encoder. -/
lemma owner_stream_eq (v : OwnerView P D x po c) (v' : OwnerView P D x po c')
    (h : State.Receives P m c c' o) : c'.stream = c.stream := by
  cases v <;> cases v' <;> cases h <;> rfl

lemma enc_stream_eq (w : EncView P D x pe c) (w' : EncView P D x pe c')
    (h : State.Receives P m c c' o) : c'.stream = c.stream := by
  cases w <;> cases w' <;> cases h <;> rfl

end Progress

/-! ## Counting rounds -/

section Distance

variable {P : Prims Key} {D : Bytes → Decoder → Prop} {b b' : Braids Key}
  {owner owner' : Side} {x x' : Exchange Key} {po po' pe pe' : ℕ}
  {base base' : List (EpochSecret Key)}

/-- Above every `State.lag`: the largest object has 324 codewords. -/
def lagBound : ℕ := 324 * 324 + 1

/-- The side whose next message counts. -/
def leaderOf (owner : Side) (po pe : ℕ) : Side := if OwnerLeads po pe then owner else owner.other

open Classical in
/-- The rounds still needed, at most, before the parties reach stage `goal`. -/
noncomputable def distance (P : Prims Key) (goal : ℕ) (b : Braids Key) (owner : Side)
    (x : Exchange Key) (po pe : ℕ) : ℕ :=
  if goal ≤ stage x po pe then 0
  else (goal - stage x po pe) * (2 * lagBound) +
    (if (b.node (leaderOf owner po pe).other).Dirty P x then lagBound else 0) +
    State.lag (b.node (leaderOf owner po pe)) (b.node (leaderOf owner po pe).other)

lemma OwnerView.await_total (T : Tolerant P D) (hP : P.Correct) {st : State Key}
    (v : OwnerView P D x po st) {k : MsgType} {dec : Decoder} (h : st.await = some (k, dec)) :
    dec.totalShards ≤ 324 := by
  have hT := tolerant_genuine hP
  cases v <;> cases h
  · rename_i hdec
    rw [hT.totalShards hdec, Exchange.length_ct1 hP]
    decide
  · rename_i hdec
    rw [T.totalShards hdec, Exchange.length_ct2WithMac]
    decide
  · rename_i hdec
    rw [T.totalShards (hdec (x.headerWithMac P) Exchange.length_headerWithMac),
      Exchange.length_headerWithMac]
    decide

lemma EncView.await_total (T : Tolerant P D) (hP : P.Correct) {st : State Key}
    (w : EncView P D x pe st) {k : MsgType} {dec : Decoder} (h : st.await = some (k, dec)) :
    dec.totalShards ≤ 324 := by
  have hT := tolerant_genuine hP
  cases w <;> cases h
  · rename_i hdec
    rw [T.totalShards hdec, Exchange.length_headerWithMac]
    decide
  · rename_i hdec
    rw [hT.totalShards hdec, Exchange.length_ekVector]
    decide

lemma Sync.lag_lt_lagBound (T : Tolerant P D) (hP : P.Correct)
    (h : Sync P D b owner x po pe base) (s t : Side) :
    State.lag (b.node s) (b.node t) < lagBound := by
  have htotal : ∀ k dec, (b.node t).await = some (k, dec) → dec.totalShards ≤ 324 := by
    rcases Side.eq_or_eq_other owner t with rfl | rfl
    · exact fun k dec => h.owner_view.await_total T hP
    · exact fun k dec => h.enc_view.await_total T hP
  unfold State.lag
  split
  · rename_i k c k' dec hstream hawait
    split
    · refine lt_of_le_of_lt (Cycle.wait_le _ _ _) ?_
      have hle := htotal _ _ hawait
      exact Nat.lt_succ_of_le (Nat.mul_le_mul hle hle)
    · exact Nat.succ_pos _
  · exact Nat.succ_pos _

/-- A later stage is nearer, whatever the decoders hold. -/
lemma distance_le_of_stage_lt (T : Tolerant P D) (hP : P.Correct) (goal : ℕ)
    (h' : Sync P D b' owner' x' po' pe' base') (hlt : stage x po pe < stage x' po' pe') :
    distance P goal b' owner' x' po' pe' ≤ distance P goal b owner x po pe - 1 := by
  have hlag := h'.lag_lt_lagBound T hP (leaderOf owner' po' pe') (leaderOf owner' po' pe').other
  unfold distance
  by_cases hgoal' : goal ≤ stage x' po' pe'
  · rw [if_pos hgoal']
    exact Nat.zero_le _
  · have hgoal : ¬ goal ≤ stage x po pe := by omega
    rw [if_neg hgoal', if_neg hgoal]
    have hmul : (goal - stage x' po' pe' + 1) * (2 * lagBound) ≤
        (goal - stage x po pe) * (2 * lagBound) := Nat.mul_le_mul_right _ (by omega)
    rw [Nat.succ_mul] at hmul
    split <;> omega

/-- Within the phases, what brings the follower closer brings the parties nearer. -/
lemma distance_le_of_closer (T : Tolerant P D) (hP : P.Correct) (goal : ℕ)
    (h' : Sync P D b' owner x po pe base') {s : Side} (hs : s = leaderOf owner po pe)
    (hcloser : Closer P x (b.node s) (b.node s.other) (b'.node s) (b'.node s.other)) :
    distance P goal b' owner x po pe ≤ distance P goal b owner x po pe - 1 := by
  subst hs
  have hlag := h'.lag_lt_lagBound T hP (leaderOf owner po pe) (leaderOf owner po pe).other
  unfold distance
  by_cases hgoal : goal ≤ stage x po pe
  · rw [if_pos hgoal]
    exact Nat.zero_le _
  · rw [if_neg hgoal, if_neg hgoal]
    rcases hcloser with ⟨hlt, hdirty⟩ | ⟨hdirty, hclean⟩
    · by_cases hd' : (b'.node (leaderOf owner po pe).other).Dirty P x
      · rw [if_pos hd', if_pos (hdirty hd')]
        omega
      · rw [if_neg hd']
        split <;> omega
    · rw [if_pos hdirty, if_neg hclean]
      omega

/-- What does not touch the leader's encoder or the follower's decoder changes no distance. -/
lemma distance_eq_of_unchanged (goal : ℕ) {s : Side} (hs : s = (leaderOf owner po pe).other)
    (hstream : (b'.node s.other).stream = (b.node s.other).stream)
    (hawait : (b'.node s).await = (b.node s).await) :
    distance P goal b' owner x po pe = distance P goal b owner x po pe := by
  subst hs
  rw [Side.other_other] at hstream
  unfold distance State.lag State.Dirty
  rw [hstream, hawait]

/-- **One exchange.**  The message of the leader brings the parties nearer; that of the
follower does, too, or leaves everything that counts as it was. -/
lemma Sync.distance_exchange (T : Tolerant P D) (hP : P.Correct) (goal : ℕ) {s : Side}
    {rng : Rng} {m : Message} {st st' : State Key} {o o' : Option (EpochSecret Key)}
    {ts ts' : List (MacQuery Key)} {owner₁ owner₂ : Side} {x₁ x₂ : Exchange Key}
    {po₁ pe₁ po₂ pe₂ : ℕ} {base₁ base₂ : List (EpochSecret Key)}
    (h : Sync P D b owner x po pe base) (hsend : (b.node s).send P rng = .ok (st, m, o))
    (h₁ : Sync P D (b.put s st o.toList [m] ts) owner₁ x₁ po₁ pe₁ base₁)
    (hadv₁ : Advances owner x po pe owner₁ x₁ po₁ pe₁)
    (hacc : AcceptsOnly P x₁ m (b.node s.other))
    (hrecv : (b.node s.other).receive P m = .ok (st', o'))
    (h₂ : Sync P D ((b.put s st o.toList [m] ts).put s.other st' o'.toList [] ts') owner₂ x₂ po₂
      pe₂ base₂)
    (hadv₂ : Advances owner₁ x₁ po₁ pe₁ owner₂ x₂ po₂ pe₂) :
    distance P goal ((b.put s st o.toList [m] ts).put s.other st' o'.toList [] ts') owner₂ x₂ po₂
        pe₂ ≤ distance P goal b owner x po pe - 1 ∨
      (s ≠ leaderOf owner po pe ∧ (owner₂ = owner ∧ x₂ = x ∧ po₂ = po ∧ pe₂ = pe) ∧
        distance P goal ((b.put s st o.toList [m] ts).put s.other st' o'.toList [] ts') owner₂ x₂
          po₂ pe₂ ≤ distance P goal b owner x po pe) := by
  rcases hadv₂ with hlt | ⟨rfl, rfl, rfl, rfl⟩
  · refine .inl (distance_le_of_stage_lt T hP goal h₂ ?_)
    rcases hadv₁ with hlt₁ | ⟨rfl, rfl, rfl, rfl⟩
    · exact hlt₁.trans hlt
    · exact hlt
  rcases hadv₁ with hlt₁ | ⟨rfl, rfl, rfl, rfl⟩
  · exact .inl (distance_le_of_stage_lt T hP goal h₂ hlt₁)
  -- from here on exchange and phases are unchanged
  have hview := h₂.owner_view
  have hview' := h₂.enc_view
  by_cases hlead : s = leaderOf owner₂ po₂ pe₂
  · refine .inl (distance_le_of_closer T hP goal h₂ hlead ?_)
    rw [Braids.put_other_node_self, Braids.put_node_self, Braids.put_node_self]
    unfold leaderOf at hlead
    split at hlead
    · rename_i hturn
      subst hlead
      rw [Braids.put_other_node_self, Braids.put_node_self] at hview
      rw [Braids.put_node_self] at hview'
      exact owner_progress hP T h.owner_view h.enc_view h.order hturn hsend hrecv hacc hview hview'
    · rename_i hturn
      subst hlead
      rw [Side.other_other] at *
      rw [Braids.put_node_self] at hview
      rw [Braids.put_node_other, Braids.put_node_self] at hview'
      exact enc_progress hP T h.owner_view h.enc_view h.order hturn hsend hrecv hacc hview hview'
  · have hfollow : s = (leaderOf owner₂ po₂ pe₂).other := Side.eq_other_of_ne hlead
    refine .inr ⟨hlead, ⟨rfl, rfl, rfl, rfl⟩, le_of_eq ?_⟩
    refine distance_eq_of_unchanged goal hfollow ?_ ?_
    · rw [Braids.put_node_self]
      rcases Side.eq_or_eq_other owner₂ s with rfl | rfl
      · rw [Braids.put_node_self] at hview'
        exact enc_stream_eq h.enc_view hview' (.of_receive hrecv)
      · rw [Side.other_other] at *
        rw [Braids.put_node_self] at hview
        exact owner_stream_eq h.owner_view hview (.of_receive hrecv)
    · rw [Braids.put_other_node_self, Braids.put_node_self]
      exact (State.Sends.of_send hsend).await_eq

end Distance

/-! ## Rounds -/

section Rounds

variable {P : Prims Key} {D : Bytes → Decoder → Prop} {net : BraidNet Key}

/-- The parties are in step and at most `n` rounds away from stage `goal`. -/
def Near (P : Prims Key) (D : Bytes → Decoder → Prop) (goal n : ℕ) (net : BraidNet Key) : Prop :=
  ∃ owner x po pe base, Sync P D (braidsOf net) owner x po pe base ∧
    distance P goal (braidsOf net) owner x po pe ≤ n

/-- Handed the message its peer sends next, a party accepts no foreign tag. -/
def Trusting (P : Prims Key) (D : Bytes → Decoder → Prop) (net : BraidNet Key) : Prop :=
  ∀ s rng m owner x po pe base, ((braidMachine P).send (net.node s) rng).2.1 = some m →
    Sync P D (braidsOf (net.sendAt (braidMachine P) s rng)) owner x po pe base →
    AcceptsOnly P x m (net.node s.other).state

lemma trusting_genuine (hP : P.Correct) : Trusting P (Decoder.Genuine P.rs) net := by
  intro s rng m owner x po pe base hm h
  have hmem : m ∈ (braidsOf (net.sendAt (braidMachine P) s rng)).sent s.other.other := by
    show m ∈ (net.sendAt (braidMachine P) s rng).sent s.other.other
    rw [Side.other_other, Net.sendAt_sent_self, hm]
    simp
  have hacc := h.acceptsOnly_genuine hP hmem
  rwa [braids_sendAt_node_other] at hacc

variable {owner : Side} {x : Exchange Key} {po pe : ℕ} {base : List (EpochSecret Key)}

/-- One exchange over the network. -/
lemma near_exchange (hP : P.Correct) (T : Tolerant P D) (hacc : Trusting P D net) (goal : ℕ)
    (h : Sync P D (braidsOf net) owner x po pe base) (s : Side) (r r' : Rng) :
    ∃ owner' x' po' pe' base',
      Sync P D (braidsOf (net.exchange (braidMachine P) s r r')) owner' x' po' pe' base' ∧
      (distance P goal (braidsOf (net.exchange (braidMachine P) s r r')) owner' x' po' pe' ≤
          distance P goal (braidsOf net) owner x po pe - 1 ∨
        (s ≠ leaderOf owner po pe ∧ (owner' = owner ∧ x' = x ∧ po' = po ∧ pe' = pe) ∧
          distance P goal (braidsOf (net.exchange (braidMachine P) s r r')) owner' x' po' pe' ≤
            distance P goal (braidsOf net) owner x po pe)) := by
  obtain ⟨st, m, o, x₁, po₁, pe₁, hsend, h₁, hadv₁⟩ := h.send hP s r
  have hsend' : (net.node s).state.send P r = .ok (st, m, o) := hsend
  have hm : ((braidMachine P).send (net.node s) r).2.1 = some m := by
    simp [braidMachine_send_of_ok hsend']
  have hnet₁ := braids_sendAt hsend'
  have hacc₁ := hacc s r m owner x₁ po₁ pe₁ base hm (hnet₁ ▸ h₁)
  -- the message is delivered to the peer, whose state the send has not touched
  have hmem : m ∈ ((braidsOf net).put s st o.toList [m]
      ((net.node s).state.tagsOnSend P r)).sent s.other.other := by
    rw [Side.other_other, Braids.put_sent_self]
    simp
  obtain ⟨st', o', owner₂, x₂, po₂, pe₂, base₂, hrecv, h₂, hadv₂⟩ :=
    h₁.recv hP T s.other hmem (by rw [Braids.put_node_other]; exact hacc₁)
  rw [Braids.put_node_other] at hrecv h₂
  have hrecv' : ((net.sendAt (braidMachine P) s r).node s.other).state.receive P m =
      .ok (st', o') := by
    rw [Net.sendAt_node_other]
    exact hrecv
  have hnet₂ : braidsOf (net.exchange (braidMachine P) s r r') =
      ((braidsOf net).put s st o.toList [m] ((net.node s).state.tagsOnSend P r)).put s.other st'
        o'.toList [] ((net.node s.other).state.tagsOnReceive P m) := by
    rw [Net.exchange_of_some r' hm, braids_deliverAt, braids_recvAt r' hrecv', hnet₁,
      Net.sendAt_node_other]
  refine ⟨owner₂, x₂, po₂, pe₂, base₂, hnet₂ ▸ h₂, ?_⟩
  rw [hnet₂]
  exact h.distance_exchange T hP goal hsend h₁ hadv₁ hacc₁ hrecv h₂ hadv₂

/-- **One round.** -/
lemma near_round (hP : P.Correct) (T : Tolerant P D) (goal n : ℕ) (ρ : Net.Round Rng)
    (hacc : Trusting P D net)
    (hacc' : Trusting P D (net.exchange (braidMachine P) .alice ρ.aliceSend ρ.bobRecv))
    (h : Near P D goal n net) : Near P D goal (n - 1) (net.round (braidMachine P) ρ) := by
  obtain ⟨owner, x, po, pe, base, h, hn⟩ := h
  obtain ⟨owner₁, x₁, po₁, pe₁, base₁, h₁, hd₁⟩ :=
    near_exchange hP T hacc goal h .alice ρ.aliceSend ρ.bobRecv
  obtain ⟨owner₂, x₂, po₂, pe₂, base₂, h₂, hd₂⟩ :=
    near_exchange hP T hacc' goal h₁ .bob ρ.bobSend ρ.aliceRecv
  refine ⟨owner₂, x₂, po₂, pe₂, base₂, h₂, ?_⟩
  show distance P goal (braidsOf ((net.exchange (braidMachine P) .alice ρ.aliceSend
    ρ.bobRecv).exchange (braidMachine P) .bob ρ.bobSend ρ.aliceRecv)) owner₂ x₂ po₂ pe₂ ≤ n - 1
  rcases hd₁ with hd₁ | ⟨hlead, ⟨rfl, rfl, rfl, rfl⟩, hd₁⟩
  · rcases hd₂ with hd₂ | ⟨-, -, hd₂⟩ <;> omega
  · -- Alice did not lead, so Bob did, and he still does
    have hbob : Side.bob = leaderOf owner₁ po₁ pe₁ := by
      cases hl : leaderOf owner₁ po₁ pe₁ with
      | alice => exact absurd hl.symm hlead
      | bob => rfl
    rcases hd₂ with hd₂ | ⟨hlead', -, -⟩
    · omega
    · exact absurd hbob hlead'

/-- At the goal, both parties have emitted every epoch before it. -/
lemma Near.emitted {epoch : ℕ} (h : Near P D (11 * (epoch + 1)) 0 net) (s : Side) {e : ℕ}
    (he : 1 ≤ e) (hle : e ≤ epoch) : ∃ y ∈ secretsOf net s, y.epoch = e := by
  obtain ⟨owner, x, po, pe, base, h, hd⟩ := h
  have hpo := h.owner_view.phase_le
  have hpe := h.enc_view.phase_le
  have hstage : epoch + 1 ≤ x.epoch := by
    unfold distance at hd
    split at hd
    · rename_i hgoal
      unfold stage at hgoal
      omega
    · rename_i hgoal
      have hpos : 0 < (11 * (epoch + 1) - stage x po pe) * (2 * lagBound) :=
        Nat.mul_pos (by omega) (by unfold lagBound; omega)
      omega
  have hmem : e ∈ base.map EpochSecret.epoch := by
    rw [h.base_epochs, List.mem_range'_1]
    omega
  obtain ⟨y, hy, rfl⟩ := List.mem_map.mp hmem
  refine ⟨y, ?_, rfl⟩
  show y ∈ (braidsOf net).out s
  rcases Side.eq_or_eq_other owner s with rfl | rfl
  · rw [h.owner_out]
    exact List.mem_append_left _ hy
  · rw [h.enc_out]
    exact List.mem_append_left _ hy

/-- Parties in step finish any epoch, in a number of rounds that depends on where they stand
but not on the randomness they draw. -/
theorem Joint.reaches (hP : P.Correct) (h : Joint P (Decoder.Genuine P.rs) (braidsOf net))
    (epoch : ℕ) : ∃ N, ∀ ρs : List (Net.Round Rng), ρs.length = N → ∀ s e, 1 ≤ e → e ≤ epoch →
      ∃ y ∈ secretsOf (net.rounds (braidMachine P) ρs) s, y.epoch = e := by
  obtain ⟨owner, x, po, pe, base, h⟩ := h
  refine ⟨distance P (11 * (epoch + 1)) (braidsOf net) owner x po pe, ?_⟩
  intro ρs hlen s e he hle
  refine Near.emitted (P := P) (D := Decoder.Genuine P.rs) ?_ s he hle
  refine Net.rounds_reach (B := Near P (Decoder.Genuine P.rs) (11 * (epoch + 1))) ?_ ρs _ net
    ⟨owner, x, po, pe, base, h, le_rfl⟩ hlen.ge
  intro n net ρ hn
  exact near_round hP (tolerant_genuine hP) _ n ρ (trusting_genuine hP) (trusting_genuine hP) hn

/-- **Loss never deadlocks the braid.**  From every pair of states that an honest network can
bring about there is a number of loss-free rounds, the same for all randomness drawn in them,
after which both parties have emitted the secret of every epoch up to the higher of the two
current ones. -/
theorem no_deadlock (hP : P.Correct) (authSeed : Key) (as : List (Action Rng Message))
    (has : ∀ a ∈ as, a.Honest) :
    ∃ N, ∀ ρs : List (Net.Round Rng), ρs.length = N →
      ∀ s e, 1 ≤ e →
        e ≤ max (((braidNet P authSeed).run (braidMachine P) as).node .alice).state.epoch
          (((braidNet P authSeed).run (braidMachine P) as).node .bob).state.epoch →
        ∃ y ∈ secretsOf (((braidNet P authSeed).run (braidMachine P) as).rounds (braidMachine P) ρs)
          s, y.epoch = e :=
  (joint_run hP authSeed as has).reaches hP _

/-- One message each way. -/
def pingPong : List (Action Rng Message) :=
  [.send .alice zeroRng, .deliver .bob 0 zeroRng, .send .bob zeroRng, .deliver .alice 0 zeroRng]

lemma pingPong_honest : ∀ a ∈ pingPong, a.Honest := by
  intro a ha
  simp only [pingPong, List.mem_cons, List.not_mem_nil, or_false] at ha
  rcases ha with rfl | rfl | rfl | rfl <;> trivial

theorem no_deadlock_pingPong :
    (∀ a ∈ pingPong, a.Honest) ∧
    ∃ N, ∀ ρs : List (Net.Round Rng), ρs.length = N →
      ∀ s e, 1 ≤ e →
        e ≤ max
          (((braidNet idealPrims 0).run (braidMachine idealPrims) pingPong).node .alice).state.epoch
          (((braidNet idealPrims 0).run (braidMachine idealPrims) pingPong).node .bob).state.epoch →
        ∃ y ∈ secretsOf (((braidNet idealPrims 0).run (braidMachine idealPrims) pingPong).rounds
          (braidMachine idealPrims) ρs) s, y.epoch = e :=
  ⟨pingPong_honest, no_deadlock idealPrims_correct 0 pingPong pingPong_honest⟩

/-- Some honest runs complete as many epochs as one likes. -/
lemma exists_completed (hP : P.Correct) (authSeed : Key) (epoch : ℕ) :
    ∃ as : List (Action Rng Message), (∀ a ∈ as, a.Honest) ∧ ∀ s e, 1 ≤ e → e ≤ epoch →
      ∃ y ∈ secretsOf ((braidNet P authSeed).run (braidMachine P) as) s, y.epoch = e := by
  obtain ⟨N, hN⟩ := (joint_braidNet (tolerant_genuine hP) authSeed).reaches hP epoch
  obtain ⟨as, has, hrun⟩ := Net.exists_run_rounds (A := braidMachine P)
    (List.replicate N ⟨zeroRng, zeroRng, zeroRng, zeroRng⟩) (braidNet P authSeed)
  refine ⟨as, has, ?_⟩
  rw [hrun]
  exact hN _ List.length_replicate

/-- Two epochs on which both parties agree. -/
theorem epoch_agreement_two_epochs : ∃ as : List (Action Rng Message), (∀ a ∈ as, a.Honest) ∧
    let net := (braidNet idealPrims 0).run (braidMachine idealPrims) as
    (∀ s, (secretsOf net s).map EpochSecret.epoch = List.range' 1 (secretsOf net s).length) ∧
      ∀ e ∈ [1, 2], ∃ a ∈ secretsOf net .alice, ∃ b ∈ secretsOf net .bob,
        a.epoch = e ∧ b.epoch = e ∧ a.secret = b.secret := by
  obtain ⟨as, has, hdone⟩ := exists_completed idealPrims_correct 0 2
  obtain ⟨hepochs, hagree⟩ := epoch_agreement idealPrims_correct 0 as has
  refine ⟨as, has, hepochs, ?_⟩
  intro e he
  have hrange : 1 ≤ e ∧ e ≤ 2 := by
    rcases List.mem_pair.mp he with rfl | rfl <;> decide
  obtain ⟨a, ha, haEpoch⟩ := hdone .alice e hrange.1 hrange.2
  obtain ⟨b, hb, hbEpoch⟩ := hdone .bob e hrange.1 hrange.2
  exact ⟨a, ha, b, hb, haEpoch, hbEpoch, hagree a ha b hb (haEpoch.trans hbEpoch.symm)⟩

end Rounds

end Hushwire
