import Hushwire.Braid.Views
import Hushwire.Library.Duplex

/-!
# Epoch agreement

Two braids that only ever receive each other's messages stay in step: they work on one and
the same `Exchange`, or the owner of that exchange has finished it and waits for its peer to
follow.  `Sync` is that invariant, with the exchange, the phases and the secrets of the
finished epochs as its parameters; `Joint` hides them.  It speaks about a `Braids`, the part
of a system that matters to it, so that every layer that contains two braids can use it.

`Sync.send` and `Sync.recv` are the step lemmas.  They also say that every call succeeds and
that the pair never falls back to an earlier `stage`, which is where progress starts.
-/

namespace Hushwire

open Duplex

variable {Key : Type}

/-- Two braids as seen from outside: their states, the secrets they have emitted, the messages
they have sent and the tags they have computed. -/
structure Braids (Key : Type) where
  node : Side → State Key
  out : Side → List (EpochSecret Key)
  sent : Side → List Message
  tags : Side → List (MacQuery Key)

namespace Braids

/-- Side `s` makes a call that leaves it in `st`, emits `o`, sends `ms` and computes `ts`. -/
def put (b : Braids Key) (s : Side) (st : State Key) (o : List (EpochSecret Key))
    (ms : List Message) (ts : List (MacQuery Key)) : Braids Key where
  node := Function.update b.node s st
  out := Function.update b.out s (b.out s ++ o)
  sent := Function.update b.sent s (b.sent s ++ ms)
  tags := Function.update b.tags s (b.tags s ++ ts)

section

variable (b : Braids Key) (s : Side) (st : State Key) (o : List (EpochSecret Key))
  (ms : List Message) (ts : List (MacQuery Key))

@[simp] lemma put_node_self : (b.put s st o ms ts).node s = st := by simp [put]

@[simp] lemma put_node_other : (b.put s st o ms ts).node s.other = b.node s.other := by
  simp [put]

@[simp] lemma put_out_self : (b.put s st o ms ts).out s = b.out s ++ o := by simp [put]

@[simp] lemma put_out_other : (b.put s st o ms ts).out s.other = b.out s.other := by simp [put]

@[simp] lemma put_sent_self : (b.put s st o ms ts).sent s = b.sent s ++ ms := by simp [put]

@[simp] lemma put_sent_other : (b.put s st o ms ts).sent s.other = b.sent s.other := by
  simp [put]

@[simp] lemma put_tags_self : (b.put s st o ms ts).tags s = b.tags s ++ ts := by simp [put]

@[simp] lemma put_tags_other : (b.put s st o ms ts).tags s.other = b.tags s.other := by
  simp [put]

@[simp] lemma put_other_node_self : (b.put s.other st o ms ts).node s = b.node s := by
  simp [put]

@[simp] lemma put_other_out_self : (b.put s.other st o ms ts).out s = b.out s := by simp [put]

@[simp] lemma put_other_sent_self : (b.put s.other st o ms ts).sent s = b.sent s := by
  simp [put]

@[simp] lemma put_other_tags_self : (b.put s.other st o ms ts).tags s = b.tags s := by
  simp [put]

end

/-- What a call adds to what a side has emitted is what the call emits. -/
lemma mem_of_put_out {b : Braids Key} {s t : Side} {st : State Key} {o new : List (EpochSecret Key)}
    {ms : List Message} {ts : List (MacQuery Key)} {x : EpochSecret Key}
    (h : (b.put s st o ms ts).out t = b.out t ++ new) (hx : x ∈ new) : s = t ∧ x ∈ o := by
  rcases Side.eq_or_eq_other s t with rfl | rfl
  · rw [put_out_self] at h
    exact ⟨rfl, List.append_cancel_left h ▸ hx⟩
  · rw [put_out_other] at h
    rw [List.self_eq_append_right.mp h] at hx
    cases hx

end Braids

/-- The tags computed by the parties of `x` up to phases `po` and `pe`. -/
inductive TagOf (P : Prims Key) (x : Exchange Key) (po pe : ℕ) : MacQuery Key → Prop
  | old {q} (h : q.epoch < x.epoch) : TagOf P x po pe q
  | header (hpo : 1 ≤ po) : TagOf P x po pe (x.headerTag P)
  | ct2 (hpe : 2 ≤ pe) : TagOf P x po pe (x.ct2Tag P)

/-- **The two parties work on the exchange `x`**, `owner` in phase `po` and its peer in phase
`pe`, and `base` are the secrets of the epochs before. -/
structure Sync (P : Prims Key) (D : Bytes → Decoder → Prop) (b : Braids Key) (owner : Side)
    (x : Exchange Key) (po pe : ℕ) (base : List (EpochSecret Key)) : Prop where
  owner_view : OwnerView P D x po (b.node owner)
  enc_view : EncView P D x pe (b.node owner.other)
  /-- Before the keys are drawn the encapsulator knows nothing of them. -/
  unsampled : po = 0 → ∀ rng, EncView P D (x.withSeed rng) pe (b.node owner.other)
  order : Order po pe
  owner_sent : ∀ m ∈ b.sent owner, OwnerMsg P x po m
  enc_sent : ∀ m ∈ b.sent owner.other, EncMsg P x pe m
  tags_of : ∀ s, ∀ q ∈ b.tags s, TagOf P x po pe q
  header_tag : 1 ≤ po → x.headerTag P ∈ b.tags owner
  ct2_tag : pe = 5 → x.ct2Tag P ∈ b.tags owner.other
  base_epochs : base.map EpochSecret.epoch = List.range' 1 (x.epoch - 1)
  epoch_pos : 1 ≤ x.epoch
  owner_out : b.out owner = base ++ if 5 ≤ po then [x.secret P] else []
  enc_out : b.out owner.other = base ++ if 2 ≤ pe then [x.secret P] else []

/-- How far along two parties are: epochs first, then phases. -/
def stage (x : Exchange Key) (po pe : ℕ) : ℕ := 11 * x.epoch + po + pe

/-- A step takes the parties to a later stage, or leaves exchange and phases as they are. -/
def Advances (owner : Side) (x : Exchange Key) (po pe : ℕ) (owner' : Side) (x' : Exchange Key)
    (po' pe' : ℕ) : Prop :=
  stage x po pe < stage x' po' pe' ∨ (owner' = owner ∧ x' = x ∧ po' = po ∧ pe' = pe)

/-- The two parties work on some exchange. -/
def Joint (P : Prims Key) (D : Bytes → Decoder → Prop) (b : Braids Key) : Prop :=
  ∃ owner x po pe base, Sync P D b owner x po pe base

section

variable {P : Prims Key} {D : Bytes → Decoder → Prop} {b : Braids Key} {owner : Side}
  {x x' : Exchange Key} {po po' pe pe' : ℕ} {base : List (EpochSecret Key)}

lemma OwnerView.phase_le {st : State Key} (v : OwnerView P D x po st) : po ≤ 5 := by
  cases v <;> omega

lemma EncView.phase_le {st : State Key} (v : EncView P D x pe st) : pe ≤ 5 := by
  cases v <;> omega

lemma EncMsg.epoch_le {m : Message} (h : EncMsg P x pe m) : m.epoch ≤ x.epoch := by
  cases h with
  | old h => exact h.le
  | _ => exact le_rfl

/-! ### What was said stays true -/

lemma OwnerMsg.mono {m : Message} (h : OwnerMsg P x po m) (hpo : po ≤ po') :
    OwnerMsg P x po' m := by
  cases h with
  | old h => exact .old h
  | idle => exact .idle
  | hdr h hc => exact .hdr (h.trans hpo) hc
  | ek h hc => exact .ek (h.trans hpo) hc
  | ekCt1Ack h hc => exact .ekCt1Ack (h.trans hpo) hc
  | next h => exact .next (h.trans hpo)

lemma EncMsg.mono {m : Message} (h : EncMsg P x pe m) (hpe : pe ≤ pe') : EncMsg P x pe' m := by
  cases h with
  | old h => exact .old h
  | idle => exact .idle
  | ct1 h hc => exact .ct1 (h.trans hpe) hc
  | ct2 h hc => exact .ct2 (h.trans hpe) hc

lemma TagOf.mono {q : MacQuery Key} (h : TagOf P x po pe q) (hpo : po ≤ po') (hpe : pe ≤ pe') :
    TagOf P x po' pe' q := by
  cases h with
  | old h => exact .old h
  | header h => exact .header (h.trans hpo)
  | ct2 h => exact .ct2 (h.trans hpe)

/-- Drawing the seed does not touch what was sent before. -/
lemma OwnerMsg.withSeed {m : Message} (h : OwnerMsg P x 0 m) (rng : Rng) :
    OwnerMsg P (x.withSeed rng) 1 m := by
  cases h with
  | old h => exact .old h
  | idle => exact .idle
  | _ => omega

lemma EncMsg.withSeed {m : Message} (h : EncMsg P x pe m) (hpe : pe < 2) (rng : Rng) :
    EncMsg P (x.withSeed rng) pe m := by
  cases h with
  | old h => exact .old h
  | idle => exact .idle
  | _ => omega

lemma TagOf.withSeed {q : MacQuery Key} (h : TagOf P x 0 pe q) (hpe : pe < 2) (rng : Rng) :
    TagOf P (x.withSeed rng) 1 pe q := by
  cases h with
  | old h => exact .old h
  | _ => omega

/-- Nor does drawing the encapsulation randomness. -/
lemma OwnerMsg.withRand {m : Message} (h : OwnerMsg P x po m) (rng : Rng) :
    OwnerMsg P (x.withRand rng) po m := by
  cases h with
  | old h => exact .old h
  | idle => exact .idle
  | hdr h hc => exact .hdr h hc
  | ek h hc => exact .ek h hc
  | ekCt1Ack h hc => exact .ekCt1Ack h hc
  | next h => exact .next h

lemma EncMsg.withRand {m : Message} (h : EncMsg P x pe m) (hpe : pe < 2) (rng : Rng) :
    EncMsg P (x.withRand rng) 2 m := by
  cases h with
  | old h => exact .old h
  | idle => exact .idle
  | _ => omega

lemma TagOf.withRand {q : MacQuery Key} (h : TagOf P x po pe q) (hpe : pe < 2) (rng : Rng) :
    TagOf P (x.withRand rng) po 2 q := by
  cases h with
  | old h => exact .old h
  | header h => exact .header h
  | ct2 h => omega

lemma OwnerView.withRand {st : State Key} (v : OwnerView P D x po st) (hpo : po < 2) (rng : Rng) :
    OwnerView P D (x.withRand rng) po st := by
  cases v with
  | keysUnsampled => exact .keysUnsampled
  | keysSampled henc => exact .keysSampled henc
  | _ => omega

/-! ### Steps -/

/-- All secrets of the epochs up to and including that of the exchange. -/
lemma Sync.epochs_eq (h : Sync P D b owner x po pe base) :
    (base ++ [x.secret P]).map EpochSecret.epoch = List.range' 1 x.epoch := by
  obtain ⟨n, hn⟩ : ∃ n, x.epoch = n + 1 := ⟨x.epoch - 1, by have := h.epoch_pos; omega⟩
  rw [List.map_append, h.base_epochs]
  simp [Exchange.secret, hn, List.range'_1_concat, Nat.add_comm]

/-- A call of the owner: what changes, and what has to survive the change. -/
lemma Sync.put_owner (h : Sync P D b owner x po pe base) {st' : State Key}
    {o : List (EpochSecret Key)} {ms : List Message} {ts : List (MacQuery Key)}
    (hepoch : x'.epoch = x.epoch) (hview : OwnerView P D x' po' st')
    (henc : EncView P D x' pe (b.node owner.other))
    (huns : po' = 0 → ∀ rng, EncView P D (x'.withSeed rng) pe (b.node owner.other))
    (hord : Order po' pe) (hown : ∀ m, OwnerMsg P x po m → OwnerMsg P x' po' m)
    (hpeer : ∀ m, EncMsg P x pe m → EncMsg P x' pe m)
    (htag : ∀ q, TagOf P x po pe q → TagOf P x' po' pe q) (hms : ∀ m ∈ ms, OwnerMsg P x' po' m)
    (hts : ∀ q ∈ ts, TagOf P x' po' pe q)
    (hhdr : 1 ≤ po' → x'.headerTag P ∈ b.tags owner ++ ts) (hct2 : pe = 5 → x' = x)
    (hout : b.out owner ++ o = base ++ if 5 ≤ po' then [x'.secret P] else [])
    (hout' : b.out owner.other = base ++ if 2 ≤ pe then [x'.secret P] else []) :
    Sync P D (b.put owner st' o ms ts) owner x' po' pe base where
  owner_view := by simpa using hview
  enc_view := by simpa using henc
  unsampled := by simpa using huns
  order := hord
  owner_sent := by
    intro m hm
    rw [Braids.put_sent_self, List.mem_append] at hm
    exact hm.elim (fun hm => hown m (h.owner_sent m hm)) (hms m)
  enc_sent := by
    intro m hm
    rw [Braids.put_sent_other] at hm
    exact hpeer m (h.enc_sent m hm)
  tags_of := by
    refine Net.forall_side owner ?_ ?_
    · intro q hq
      rw [Braids.put_tags_self, List.mem_append] at hq
      exact hq.elim (fun hq => htag q (h.tags_of _ q hq)) (hts q)
    · intro q hq
      rw [Braids.put_tags_other] at hq
      exact htag q (h.tags_of _ q hq)
  header_tag := by simpa using hhdr
  ct2_tag := by
    intro hpe
    rw [Braids.put_tags_other, hct2 hpe]
    exact h.ct2_tag hpe
  base_epochs := hepoch ▸ h.base_epochs
  epoch_pos := hepoch ▸ h.epoch_pos
  owner_out := by simpa using hout
  enc_out := by simpa using hout'

/-- A call of the encapsulator that leaves it one. -/
lemma Sync.put_enc (h : Sync P D b owner x po pe base) {st' : State Key}
    {o : List (EpochSecret Key)} {ms : List Message} {ts : List (MacQuery Key)}
    (hepoch : x'.epoch = x.epoch) (hview : EncView P D x' pe' st')
    (hown : OwnerView P D x' po (b.node owner))
    (huns : po = 0 → ∀ rng, EncView P D (x'.withSeed rng) pe' st')
    (hord : Order po pe') (hpeer : ∀ m, OwnerMsg P x po m → OwnerMsg P x' po m)
    (henc : ∀ m, EncMsg P x pe m → EncMsg P x' pe' m)
    (htag : ∀ q, TagOf P x po pe q → TagOf P x' po pe' q) (hms : ∀ m ∈ ms, EncMsg P x' pe' m)
    (hts : ∀ q ∈ ts, TagOf P x' po pe' q) (hhdr : x'.headerTag P = x.headerTag P)
    (hct2 : pe' = 5 → x'.ct2Tag P ∈ b.tags owner.other ++ ts)
    (hout : b.out owner = base ++ if 5 ≤ po then [x'.secret P] else [])
    (hout' : b.out owner.other ++ o = base ++ if 2 ≤ pe' then [x'.secret P] else []) :
    Sync P D (b.put owner.other st' o ms ts) owner x' po pe' base where
  owner_view := by simpa using hown
  enc_view := by simpa using hview
  unsampled := by simpa using huns
  order := hord
  owner_sent := by
    intro m hm
    rw [Braids.put_other_sent_self] at hm
    exact hpeer m (h.owner_sent m hm)
  enc_sent := by
    intro m hm
    rw [Braids.put_sent_self, List.mem_append] at hm
    exact hm.elim (fun hm => henc m (h.enc_sent m hm)) (hms m)
  tags_of := by
    refine Net.forall_side owner ?_ ?_
    · intro q hq
      rw [Braids.put_other_tags_self] at hq
      exact htag q (h.tags_of _ q hq)
    · intro q hq
      rw [Braids.put_tags_self, List.mem_append] at hq
      exact hq.elim (fun hq => htag q (h.tags_of _ q hq)) (hts q)
  header_tag := by
    intro hpo
    rw [Braids.put_other_tags_self, hhdr]
    exact h.header_tag hpo
  ct2_tag := by simpa using hct2
  base_epochs := hepoch ▸ h.base_epochs
  epoch_pos := hepoch ▸ h.epoch_pos
  owner_out := by simpa using hout
  enc_out := by simpa using hout'

lemma OwnerView.eq_of_unsampled {st : State Key} (v : OwnerView P D x 0 st) :
    st = .keysUnsampled x.epoch x.auth := by
  cases v with
  | keysUnsampled => rfl

lemma Sync.send_owner (hP : P.Correct) (h : Sync P D b owner x po pe base) (rng : Rng) :
    ∃ st' m x' po', (b.node owner).send P rng = .ok (st', m, none) ∧
      Sync P D (b.put owner st' [] [m] ((b.node owner).tagsOnSend P rng)) owner x' po' pe base ∧
      Advances owner x po pe owner x' po' pe := by
  obtain ⟨x', st', po', m, hsend, hview, hmsg, htags, hphase⟩ := h.owner_view.send hP rng
  refine ⟨st', m, x', po', hsend, ?_, ?_⟩
  swap
  · rcases hphase with ⟨rfl, rfl, rfl⟩ | ⟨hpo, rfl, rfl⟩
    · exact .inl (by simp [stage, Exchange.withSeed])
    · exact .inr ⟨rfl, rfl, rfl, rfl⟩
  have hms : ∀ m' ∈ [m], OwnerMsg P x' po' m' := by simpa using hmsg
  rcases hphase with ⟨rfl, rfl, rfl⟩ | ⟨hpo, rfl, rfl⟩
  · -- the keys are drawn: nothing said so far depended on them
    have hpe : pe = 0 := by
      have := h.order.header_after_keys
      omega
    subst hpe
    refine h.put_owner rfl hview (h.unsampled rfl rng) (by omega) (by constructor <;> omega)
      (fun m hm => hm.withSeed rng) (fun m hm => hm.withSeed (by omega) rng)
      (fun q hq => hq.withSeed (by omega) rng) hms ?_ ?_ (by omega) ?_ ?_
    · intro q hq
      exact htags q hq ▸ .header le_rfl
    · intro _
      rw [h.owner_view.eq_of_unsampled] at hsend htags ⊢
      obtain ⟨q, hq⟩ := exists_mem_tagsOnSend (.of_send hsend)
      exact List.mem_append_right _ (htags q hq ▸ hq)
    · simpa using h.owner_out
    · simpa using h.enc_out
  · refine h.put_owner rfl hview h.enc_view (by omega) h.order (fun _ => id) (fun _ => id)
      (fun _ => id) hms ?_ ?_ (fun _ => rfl) ?_ h.enc_out
    · intro q hq
      exact htags q hq ▸ .header (by omega)
    · intro hpo
      exact List.mem_append_left _ (h.header_tag hpo)
    · simpa using h.owner_out

lemma Sync.send_enc (hP : P.Correct) (h : Sync P D b owner x po pe base) (rng : Rng) :
    ∃ st' m o x' pe', (b.node owner.other).send P rng = .ok (st', m, o) ∧
      Sync P D (b.put owner.other st' o.toList [m] ((b.node owner.other).tagsOnSend P rng)) owner
        x' po pe' base ∧ Advances owner x po pe owner x' po pe' := by
  obtain ⟨x', st', pe', m, o, hsend, hview, hmsg, htags, hphase⟩ := h.enc_view.send hP rng
  refine ⟨st', m, o, x', pe', hsend, ?_, ?_⟩
  swap
  · rcases hphase with ⟨rfl, rfl, rfl, rfl⟩ | ⟨hpe, rfl, rfl, rfl, -⟩
    · exact .inl (by simp [stage, Exchange.withRand])
    · exact .inr ⟨rfl, rfl, rfl, rfl⟩
  have hms : ∀ m' ∈ [m], EncMsg P x' pe' m' := by simpa using hmsg
  rcases hphase with ⟨rfl, rfl, rfl, rfl⟩ | ⟨hpe, rfl, rfl, rfl, hst⟩
  · -- the randomness is drawn, and the secret with it: the owner has seen nothing of it yet
    have hpo : po = 1 := by
      have := h.order.header_after_keys
      have := h.order.ct1_after_encaps
      omega
    subst hpo
    refine h.put_enc rfl hview (h.owner_view.withRand (by omega) rng) (by omega)
      (by constructor <;> omega) (fun m hm => hm.withRand rng)
      (fun m hm => hm.withRand (by omega) rng) (fun q hq => hq.withRand (by omega) rng) hms ?_ rfl
      (by omega) ?_ ?_
    · simp [htags]
    · simpa using h.owner_out
    · simpa using h.enc_out
  · refine h.put_enc rfl hview h.owner_view ?_ h.order (fun _ => id) (fun _ => id) (fun _ => id)
      hms (by simp [htags]) rfl ?_ h.owner_out (by simpa using h.enc_out)
    swap
    · intro hpe5
      exact List.mem_append_left _ (h.ct2_tag hpe5)
    intro hpo r
    have hpe0 : pe' = 0 := by
      have := h.order.header_after_keys
      omega
    rw [hst hpe0]
    exact h.unsampled hpo r

/-- A receive that moves the owner on: its secret is emitted exactly when the phase reaches its
end. -/
lemma Sync.recvd_owner (h : Sync P D b owner x po pe base) {st' : State Key} (m : Message)
    (hview : OwnerView P D x po' st') (hord : Order po' pe) (hle : po ≤ po')
    (hback : 1 ≤ po' → 1 ≤ po) :
    Sync P D (b.put owner st' (if po < po' ∧ po' = 5 then some (x.secret P) else none).toList []
        ((b.node owner).tagsOnReceive P m)) owner x po' pe base ∧
      Advances owner x po pe owner x po' pe := by
  refine ⟨?_, ?_⟩
  swap
  · rcases hle.lt_or_eq with hlt | rfl
    · exact .inl (by unfold stage; omega)
    · exact .inr ⟨rfl, rfl, rfl, rfl⟩
  refine h.put_owner rfl hview h.enc_view ?_ hord (fun _ hm => hm.mono hle) (fun _ => id)
    (fun _ hq => hq.mono hle le_rfl) (by simp) (by simp [h.owner_view.tagsOnReceive]) ?_
    (fun _ => rfl) ?_ h.enc_out
  · intro hpo
    exact h.unsampled (by omega)
  · intro hpo
    exact List.mem_append_left _ (h.header_tag (hback hpo))
  · have hle5 := hview.phase_le
    by_cases hdone : 5 ≤ po
    · simp [h.owner_out, hdone, hdone.trans hle, show ¬ po < po' by omega]
    · by_cases hdone' : po' = 5
      · subst hdone'
        simp [h.owner_out, hdone, show po < 5 by omega]
      · simp [h.owner_out, hdone, hdone', show ¬ 5 ≤ po' by omega]

lemma Sync.recv_owner (hP : P.Correct) (T : Tolerant P D) (h : Sync P D b owner x po pe base)
    {m : Message} (hm : m ∈ b.sent owner.other) (hacc : AcceptsOnly P x m (b.node owner)) :
    ∃ st' o po', (b.node owner).receive P m = .ok (st', o) ∧
      Sync P D (b.put owner st' o.toList [] ((b.node owner).tagsOnReceive P m)) owner x po' pe
        base ∧ Advances owner x po pe owner x po' pe := by
  obtain ⟨st', po', hrecv, hview, hord, hle, hback⟩ :=
    h.owner_view.recv hP T h.order (h.enc_sent m hm) hacc
  exact ⟨st', _, po', hrecv, h.recvd_owner m hview hord hle hback⟩

lemma OwnerView.eq_of_finished {st : State Key} (v : OwnerView P D x 5 st) :
    ∃ hdrDec, st = .noHeaderReceived (x.epoch + 1) (x.nextAuth P) hdrDec ∧
      ∀ obj : Bytes, obj.length = pk1Len + macSize → D obj hdrDec := by
  cases v with
  | finished hdec => exact ⟨_, rfl, hdec⟩

lemma EncView.eq_of_ct2Sampled {st : State Key} (v : EncView P D x 5 st) :
    ∃ ct2Enc, st = .ct2Sampled x.epoch (x.nextAuth P) ct2Enc := by
  cases v with
  | ct2Sampled henc => exact ⟨_, rfl⟩

/-- The owner has finished the exchange and its peer follows: the roles swap. -/
lemma Sync.swap (h : Sync P D b owner x po 5 base) (hpo : 5 ≤ po) :
    Sync P D (b.put owner.other (.keysUnsampled (x.epoch + 1) (x.nextAuth P)) [] [] [])
      owner.other (Exchange.fresh (x.epoch + 1) (x.nextAuth P)) 0 0 (base ++ [x.secret P]) := by
  have hpo5 : po = 5 := le_antisymm h.owner_view.phase_le hpo
  subst hpo5
  obtain ⟨hdrDec, hst, hdec⟩ := h.owner_view.eq_of_finished
  have hpos := h.epoch_pos
  refine ⟨?_, ?_, ?_, by constructor <;> omega, ?_, ?_, ?_, by omega, by omega, ?_,
    by simp [Exchange.fresh], ?_, ?_⟩
  · rw [Braids.put_node_self]
    exact .keysUnsampled
  · rw [Side.other_other, Braids.put_other_node_self, hst]
    exact .noHeaderReceived (hdec _ Exchange.length_headerWithMac)
  · intro _ rng
    rw [Side.other_other, Braids.put_other_node_self, hst]
    exact .noHeaderReceived (hdec _ Exchange.length_headerWithMac)
  · intro m hm
    rw [Braids.put_sent_self, List.append_nil] at hm
    cases h.enc_sent m hm with
    | old h => exact .old (h.trans (Nat.lt_succ_self _))
    | _ => exact .old (Nat.lt_succ_self _)
  · intro m hm
    rw [Side.other_other, Braids.put_other_sent_self] at hm
    cases h.owner_sent m hm with
    | old h => exact .old (h.trans (Nat.lt_succ_self _))
    | next h => exact .idle
    | _ => exact .old (Nat.lt_succ_self _)
  · have hold : ∀ q, TagOf P x 5 5 q →
        TagOf P (Exchange.fresh (x.epoch + 1) (x.nextAuth P)) 0 0 q := by
      intro q hq
      cases hq with
      | old h => exact .old (h.trans (Nat.lt_succ_self _))
      | _ => exact .old (Nat.lt_succ_self _)
    refine Net.forall_side owner ?_ ?_
    · intro q hq
      rw [Braids.put_other_tags_self] at hq
      exact hold q (h.tags_of _ q hq)
    · intro q hq
      rw [Braids.put_tags_self, List.append_nil] at hq
      exact hold q (h.tags_of _ q hq)
  · exact h.epochs_eq
  · simpa using h.enc_out
  · simpa using h.owner_out

/-- A receive that leaves the encapsulator one. -/
lemma Sync.recvd_enc (h : Sync P D b owner x po pe base) {st' : State Key}
    {ts : List (MacQuery Key)} (hview : EncView P D x pe' st') (hord : Order po pe')
    (hle : pe ≤ pe') (hback : 2 ≤ pe' → 2 ≤ pe)
    (huns : po = 0 → ∀ rng, EncView P D (x.withSeed rng) pe' st')
    (hts : ∀ q ∈ ts, q = x.ct2Tag P ∧ 2 ≤ pe)
    (hct2 : pe' = 5 → x.ct2Tag P ∈ b.tags owner.other ++ ts) :
    Sync P D (b.put owner.other st' [] [] ts) owner x po pe' base ∧
      Advances owner x po pe owner x po pe' := by
  refine ⟨?_, ?_⟩
  swap
  · rcases hle.lt_or_eq with hlt | rfl
    · exact .inl (by unfold stage; omega)
    · exact .inr ⟨rfl, rfl, rfl, rfl⟩
  refine h.put_enc rfl hview h.owner_view huns hord (fun _ => id) (fun _ hm => hm.mono hle)
    (fun _ hq => hq.mono le_rfl hle) (by simp) ?_ rfl hct2 h.owner_out ?_
  · intro q hq
    obtain ⟨rfl, hpe⟩ := hts q hq
    exact .ct2 (hpe.trans hle)
  · have hiff : 2 ≤ pe' ↔ 2 ≤ pe := ⟨hback, fun h => h.trans hle⟩
    simpa [hiff] using h.enc_out

/-- Once the encapsulator streams `ct2`, the tag of `ct2` has been computed. -/
lemma Sync.ct2Tag_mem (h : Sync P D b owner x po pe base) {m : Message} {st' : State Key}
    {o : Option (EpochSecret Key)} (hrecv : State.Receives P m (b.node owner.other) st' o)
    (hts : ∀ q ∈ (b.node owner.other).tagsOnReceive P m, q = x.ct2Tag P ∧ 2 ≤ pe)
    (hview : EncView P D x 5 st') :
    x.ct2Tag P ∈ b.tags owner.other ++ (b.node owner.other).tagsOnReceive P m := by
  rw [List.mem_append]
  obtain ⟨ct2Enc, hst'⟩ := hview.eq_of_ct2Sampled
  by_cases hsame : st' = b.node owner.other
  · have hview' := h.enc_view
    rw [← hsame, hst'] at hview'
    cases hview' with
    | ct2Sampled henc => exact .inl (h.ct2_tag rfl)
  · obtain ⟨q, hq⟩ := exists_mem_tagsOnReceive hrecv hst' hsame
    exact .inr ((hts q hq).1 ▸ hq)

lemma Sync.recv_enc (hP : P.Correct) (T : Tolerant P D) (h : Sync P D b owner x po pe base)
    {m : Message} (hm : m ∈ b.sent owner) (hacc : AcceptsOnly P x m (b.node owner.other)) :
    ∃ st' owner' x' po' pe' base', (b.node owner.other).receive P m = .ok (st', none) ∧
      Sync P D (b.put owner.other st' [] [] ((b.node owner.other).tagsOnReceive P m)) owner' x' po'
        pe' base' ∧ Advances owner x po pe owner' x' po' pe' := by
  have hmsg := h.owner_sent m hm
  have htags : ∀ q ∈ (b.node owner.other).tagsOnReceive P m, q = x.ct2Tag P ∧ 2 ≤ pe :=
    fun q hq => h.enc_view.tagsOnReceive hP hmsg hq
  rcases h.enc_view.recv hP T h.order hmsg hacc with
    ⟨st', pe', hrecv, hview, hord, hle, hback, huns⟩ | ⟨hpo, rfl, hrecv⟩
  · refine ⟨st', owner, x, po, pe', base, hrecv, h.recvd_enc hview hord hle hback ?_ htags ?_⟩
    · intro hpo rng
      obtain ⟨rfl, rfl⟩ := huns hpo
      exact h.unsampled hpo rng
    · rintro rfl
      exact h.ct2Tag_mem (.of_receive hrecv) htags hview
  · have hnil : (b.node owner.other).tagsOnReceive P m = [] := by
      obtain ⟨ct2Enc, hst⟩ := h.enc_view.eq_of_ct2Sampled
      rw [hst]
      rfl
    rw [hnil]
    refine ⟨_, _, _, _, _, _, hrecv, h.swap hpo, .inl ?_⟩
    have := h.owner_view.phase_le
    simp only [stage, Exchange.fresh]
    omega

/-! ### Any side, any genuine message -/

/-- **A send of either party.** -/
theorem Sync.send (hP : P.Correct) (h : Sync P D b owner x po pe base) (s : Side) (rng : Rng) :
    ∃ st' m o x' po' pe', (b.node s).send P rng = .ok (st', m, o) ∧
      Sync P D (b.put s st' o.toList [m] ((b.node s).tagsOnSend P rng)) owner x' po' pe' base ∧
      Advances owner x po pe owner x' po' pe' := by
  rcases Side.eq_or_eq_other owner s with rfl | rfl
  · obtain ⟨st', m, x', po', hsend, h', hadv⟩ := h.send_owner hP rng
    exact ⟨st', m, none, x', po', pe, hsend, h', hadv⟩
  · obtain ⟨st', m, o, x', pe', hsend, h', hadv⟩ := h.send_enc hP rng
    exact ⟨st', m, o, x', po, pe', hsend, h', hadv⟩

/-- **A delivery to either party**, of something its peer has sent. -/
theorem Sync.recv (hP : P.Correct) (T : Tolerant P D) (h : Sync P D b owner x po pe base)
    (s : Side) {m : Message} (hm : m ∈ b.sent s.other) (hacc : AcceptsOnly P x m (b.node s)) :
    ∃ st' o owner' x' po' pe' base', (b.node s).receive P m = .ok (st', o) ∧
      Sync P D (b.put s st' o.toList [] ((b.node s).tagsOnReceive P m)) owner' x' po' pe' base' ∧
      Advances owner x po pe owner' x' po' pe' := by
  rcases Side.eq_or_eq_other owner s with rfl | rfl
  · obtain ⟨st', o, po', hrecv, h', hadv⟩ := h.recv_owner hP T hm hacc
    exact ⟨st', o, _, x, po', pe, base, hrecv, h', hadv⟩
  · rw [Side.other_other] at hm
    obtain ⟨st', owner', x', po', pe', base', hrecv, h', hadv⟩ := h.recv_enc hP T hm hacc
    exact ⟨st', none, owner', x', po', pe', base', hrecv, h', hadv⟩

/-- What a genuine decoder yields is the exchange's own object, so nothing else is accepted. -/
lemma Sync.acceptsOnly_genuine (hP : P.Correct)
    (h : Sync P (Decoder.Genuine P.rs) b owner x po pe base) {s : Side} {m : Message}
    (hm : m ∈ b.sent s.other) : AcceptsOnly P x m (b.node s) := by
  rcases Side.eq_or_eq_other owner s with rfl | rfl
  · exact h.owner_view.acceptsOnly hP (h.enc_sent m hm)
  · rw [Side.other_other] at hm
    exact h.enc_view.acceptsOnly hP (h.owner_sent m hm)

theorem Joint.send (hP : P.Correct) (h : Joint P D b) (s : Side) (rng : Rng) :
    ∃ st' m o, (b.node s).send P rng = .ok (st', m, o) ∧
      Joint P D (b.put s st' o.toList [m] ((b.node s).tagsOnSend P rng)) := by
  obtain ⟨owner, x, po, pe, base, h⟩ := h
  obtain ⟨st', m, o, x', po', pe', hsend, h', -⟩ := h.send hP s rng
  exact ⟨st', m, o, hsend, _, _, _, _, _, h'⟩

/-- A delivery in a run without injections. -/
theorem Joint.recv (hP : P.Correct) (h : Joint P (Decoder.Genuine P.rs) b) (s : Side)
    {m : Message} (hm : m ∈ b.sent s.other) :
    ∃ st' o, (b.node s).receive P m = .ok (st', o) ∧
      Joint P (Decoder.Genuine P.rs)
        (b.put s st' o.toList [] ((b.node s).tagsOnReceive P m)) := by
  obtain ⟨owner, x, po, pe, base, h⟩ := h
  obtain ⟨st', o, owner', x', po', pe', base', hrecv, h', -⟩ :=
    h.recv hP (tolerant_genuine hP) s hm (h.acceptsOnly_genuine hP hm)
  exact ⟨st', o, hrecv, _, _, _, _, _, h'⟩

/-! ### What the secrets look like -/

lemma Sync.out_isPrefix (h : Sync P D b owner x po pe base) (s : Side) :
    b.out s <+: base ++ [x.secret P] := by
  rcases Side.eq_or_eq_other owner s with rfl | rfl
  · rw [h.owner_out]
    split
    · exact List.prefix_rfl
    · exact List.prefix_append_right_inj _ |>.mpr (List.nil_prefix)
  · rw [h.enc_out]
    split
    · exact List.prefix_rfl
    · exact List.prefix_append_right_inj _ |>.mpr (List.nil_prefix)

/-- The secrets of the epochs two parties have both finished are the same. -/
lemma Joint.take_out (h : Joint P D b) {s t : Side} {e : ℕ} (hs : e ≤ (b.out s).length)
    (ht : e ≤ (b.out t).length) : (b.out s).take e = (b.out t).take e := by
  obtain ⟨owner, x, po, pe, base, h⟩ := h
  have htake : ∀ u, e ≤ (b.out u).length → (b.out u).take e = (base ++ [x.secret P]).take e := by
    intro u hu
    obtain ⟨rest, hrest⟩ := h.out_isPrefix u
    rw [← hrest, List.take_append_of_le_length hu]
  rw [htake s hs, htake t ht]

/-- A message is at most one epoch ahead of what its receiver has finished. -/
lemma Joint.epoch_le_out (h : Joint P D b) {s : Side} {m : Message} (hm : m ∈ b.sent s.other) :
    m.epoch ≤ (b.out s).length + 1 := by
  obtain ⟨owner, x, po, pe, base, h⟩ := h
  have hbase : base.length = x.epoch - 1 := by
    have := congrArg List.length h.base_epochs
    simpa using this
  have hpos := h.epoch_pos
  rcases Side.eq_or_eq_other owner s with rfl | rfl
  · have hle := (h.enc_sent m hm).epoch_le
    rw [h.owner_out, List.length_append]
    omega
  · rw [Side.other_other] at hm
    rw [h.enc_out, List.length_append]
    cases h.owner_sent m hm with
    | old hlt => omega
    | next hpo =>
        -- the owner has moved on, so the encapsulator has emitted this epoch's secret
        have hpe := h.order.ct2_after_ack (by omega)
        rw [if_pos (by omega)]
        simp only [Message.idle, List.length_singleton]
        omega
    | _ =>
        simp only [Message.idle, Message.carrying]
        omega

/-- No party is more than one epoch ahead of its peer. -/
lemma Joint.epoch_le_succ (h : Joint P D b) (s : Side) :
    (b.node s).epoch ≤ (b.node s.other).epoch + 1 := by
  obtain ⟨owner, x, po, pe, base, h⟩ := h
  have howner : x.epoch ≤ (b.node owner).epoch ∧ (b.node owner).epoch ≤ x.epoch + 1 :=
    ⟨h.owner_view.epoch_le, h.owner_view.epoch_le_succ⟩
  have henc := h.enc_view.epoch_eq
  rcases Side.eq_or_eq_other owner s with rfl | rfl
  · rw [henc]
    exact howner.2
  · rw [Side.other_other, henc]
    exact howner.1.trans (Nat.le_succ _)

/-- **Consecutive.**  A party has emitted the secrets of epochs `1, 2, 3, …`, each once. -/
lemma Joint.out_epochs (h : Joint P D b) (s : Side) :
    (b.out s).map EpochSecret.epoch = List.range' 1 (b.out s).length := by
  obtain ⟨owner, x, po, pe, base, h⟩ := h
  have hpre := (h.out_isPrefix s).map EpochSecret.epoch
  rw [h.epochs_eq] at hpre
  have hlen : (b.out s).length ≤ x.epoch := by simpa using hpre.length_le
  have hsplit : List.range' 1 x.epoch = List.range' 1 (b.out s).length ++
      List.range' (1 + (b.out s).length) (x.epoch - (b.out s).length) := by
    rw [List.range'_append_1, Nat.add_sub_of_le hlen]
  rw [hsplit] at hpre
  exact List.IsPrefix.eq_of_length_le (List.prefix_of_prefix_length_le hpre
    (List.prefix_append _ _) (by simp)) (by simp)

/-- **Agreement.**  Secrets emitted for one epoch are one secret. -/
lemma Joint.out_agree (h : Joint P D b) {s t : Side} {a c : EpochSecret Key} (ha : a ∈ b.out s)
    (hc : c ∈ b.out t) (hepoch : a.epoch = c.epoch) : a = c := by
  obtain ⟨owner, x, po, pe, base, h⟩ := h
  have hnodup : ((base ++ [x.secret P]).map EpochSecret.epoch).Nodup := by
    rw [h.epochs_eq]
    exact List.nodup_range'
  exact List.inj_on_of_nodup_map hnodup ((h.out_isPrefix s).subset ha)
    ((h.out_isPrefix t).subset hc) hepoch

end

end Hushwire
