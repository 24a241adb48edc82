import Hushwire.Ratchet.SpqrEpochs
import Hushwire.Ratchet.Storage

/-!
# Sends that fail

`encrypt_raw` takes its PQ key before it looks for a sending chain, so a send that fails for want of
one has moved the braid and the PQ send chain already.  `failed_encrypt_unchanged_iff` says for
every session that calls can lead to which failed sends leave it alone: those that failed in the
braid, and `encrypt` while the prekey message is pending.  `failed_encrypts_count` follows what the
other failed sends do to a responder that has received nothing: each takes one number of the PQ
chain, until the peer refuses the first message that is sent for the gap before it.
-/

namespace Hushwire

open Duplex

variable {Key : Type}

/-! ## The PQ half of a send -/

/-- What incorporating a secret does to the epoch. -/
lemma SpqrState.epoch_incorporate {H : Hash Key} {st st₁ : SpqrState Key}
    {o : Option (EpochSecret Key)} (h : st.incorporate H o = (.ok (), st₁)) :
    o = none ∧ st₁ = st ∨ st₁.epoch = st.epoch + 1 := by
  cases o with
  | none => exact .inl ⟨rfl, (Prod.mk.inj h).2.symm⟩
  | some x =>
      simp only [incorporate, addEpoch] at h
      split at h
      · cases h
      · rename_i hnext
        obtain ⟨-, rfl⟩ := Prod.mk.inj h
        exact .inr (not_not.mp hnext).symm

/-- A send that succeeds leaves another state: a later epoch, or a chain that is one further. -/
lemma SpqrState.ratchetSendKey_ne {P : Prims Key} {st st' : SpqrState Key} {rng : Rng}
    {out : Message × ℕ × Key} (hsend : st.ratchetSendKey P rng = (.ok out, st')) : st' ≠ st := by
  unfold ratchetSendKey at hsend
  generalize st.braid.send P rng = sent at hsend
  obtain ⟨e | ⟨m, low, o⟩, b'⟩ := sent
  · cases hsend
  dsimp only at hsend
  generalize hinc : { st with braid := b' }.incorporate P.hash o = inc at hsend
  obtain ⟨e | _, st₁⟩ := inc
  · cases hsend
  simp only at hsend
  generalize hst₂ : (if o.isSome then st₁.clearOldEpochs low else st₁) = st₂ at hsend
  have hepoch₂ : st₂.epoch = st₁.epoch := by
    rw [← hst₂]
    split
    · unfold clearOldEpochs
      split <;> rfl
    · rfl
  obtain ⟨hcore, -, -, -, hdrop⟩ := dropSend_spec (s := st₂) low
  cases hchain : (st₂.dropSend low).sendChain low with
  | none =>
      rw [hchain] at hsend
      cases hsend
  | some chain =>
      rw [hchain] at hsend
      obtain ⟨-, rfl⟩ := Prod.mk.inj hsend
      intro hsame
      rcases epoch_incorporate hinc with ⟨rfl, rfl⟩ | hlater
      · -- no epoch was added: the chain was there before
        have hafter := congrArg (fun s => sendChain s low) hsame
        simp only [sendChain_setSend hchain, if_true] at hafter
        rw [hdrop, if_neg (Nat.succ_ne_self low), ← hst₂] at hchain
        have hbefore : st.sendChain low = some chain := hchain
        rw [hbefore] at hafter
        have hn := congrArg SckaChain.n (Option.some.inj hafter)
        exact absurd hn (Nat.succ_ne_self chain.n)
      · have hepoch := congrArg SpqrState.epoch hsame
        rw [setSend, (sameCore_modifyChains _).epoch, hcore.epoch, hepoch₂, hlater] at hepoch
        exact absurd hepoch (Nat.succ_ne_self st.epoch)

/-! ## The sessions that calls can lead to -/

namespace RatchetSession

/-- The SPQR state inside is one that calls on a fresh SPQR state lead to. -/
def SpqrSound (C : Suite Key) (s : RatchetSession Key) : Prop :=
  ∃ sharedSecret side log, SpqrLocal C.toPrims sharedSecret side s.spqr log

section Sound

variable {C : Suite Key} {rng : Rng} {s s' : RatchetSession Key}

lemma encryptMessage_spqr (C : Suite Key) (rng : Rng) (plaintext : Bytes)
    (sender recipient : IdentityPublicKey) (s : RatchetSession Key) :
    (s.encryptMessage C rng plaintext sender recipient).2.spqr =
      (s.spqr.ratchetSendKey C.toPrims rng).2 := by
  have hraw := encryptRaw_snd C rng plaintext sender recipient s
  rw [← sendKeys_spqr, ← hraw]
  unfold encryptMessage
  rcases s.encryptRaw C rng plaintext sender recipient with ⟨e | m, s'⟩
  · rfl
  · dsimp only
    split <;> rfl

lemma SpqrSound.send (h : s.SpqrSound C) (rng : Rng)
    (hs' : s'.spqr = (s.spqr.ratchetSendKey C.toPrims rng).2) : s'.SpqrSound C := by
  obtain ⟨sharedSecret, side, log, h⟩ := h
  have h' := (spqrLocal_inductive C.toPrims sharedSecret side).send s.spqr log rng h
  rw [spqrMachine_send_fst, ← hs'] at h'
  exact ⟨_, _, _, h'⟩

lemma SpqrSound.receive (h : s.SpqrSound C) {m : Message} {n : ℕ}
    (hs' : s'.spqr = (s.spqr.ratchetReceiveKey C.toPrims m n).2) : s'.SpqrSound C := by
  obtain ⟨sharedSecret, side, log, h⟩ := h
  have h' := (spqrLocal_inductive C.toPrims sharedSecret side).recv s.spqr log (m, n) zeroRng h
  rw [spqrMachine_recv_fst, ← hs'] at h'
  exact ⟨_, _, _, h'⟩

variable [DecidableEq Key]

/-- Every call keeps the SPQR state sound, whether it succeeds or not. -/
lemma SpqrSound.call (h : s.SpqrSound C) (c : SessionCall) : (s.call C c).2.SpqrSound C := by
  rcases c with ⟨rng, plaintext, sender, recipient⟩ | ⟨rng, plaintext, sender, recipient⟩ |
    ⟨rng, message, sender, recipient⟩
  · show (s.encrypt C rng plaintext sender recipient).2.SpqrSound C
    unfold encrypt
    split
    · exact h
    · refine h.send rng ?_
      rw [encryptRaw_snd, sendKeys_spqr]
  · exact h.send rng (encryptMessage_spqr C rng plaintext sender recipient s)
  · show (s.decrypt C rng message sender recipient).2.SpqrSound C
    have hopens := opens_decrypt C rng message sender recipient s
    generalize s.decrypt C rng message sender recipient = out at hopens ⊢
    obtain ⟨r, s'⟩ := out
    rcases hopens with _ | ⟨_, hec⟩ | ⟨_, hec, hpq⟩ | ⟨_, hec, hpq⟩
    · exact h
    · obtain ⟨sharedSecret, side, log, h⟩ := h
      rw [← (Resolves.of_eq hec).spqr.1] at h
      exact ⟨sharedSecret, side, log, h⟩
    · exact h.receive (congrArg Prod.snd hpq).symm
    · exact h.receive (congrArg Prod.snd hpq).symm

lemma SpqrSound.callAll (cs : List SessionCall) : ∀ {s : RatchetSession Key}, s.SpqrSound C →
    (s.callAll C cs).2.SpqrSound C := by
  induction cs with
  | nil => intro s h; exact h
  | cons c cs ih => intro s h; exact ih (h.call c)

end Sound

end RatchetSession

lemma LiveSession.Started.spqrSound [DecidableEq Key] {C : Suite Key} {s : LiveSession Key}
    (h : LiveSession.Started C s) : s.ratchet.SpqrSound C := by
  rcases h with ⟨_, sharedSecret, _⟩ | ⟨_, sharedSecret, _, _⟩ | ⟨sharedSecret, _⟩
  · exact ⟨sharedSecret, .alice, [], spqrLocal_init C.toPrims sharedSecret .alice⟩
  · exact ⟨sharedSecret, .alice, [], spqrLocal_init C.toPrims sharedSecret .alice⟩
  · exact ⟨sharedSecret, .bob, [], spqrLocal_init C.toPrims sharedSecret .bob⟩

/-! ## Failed sends -/

/-- A failed `encrypt_raw` leaves the session as it was exactly if the braid failed. -/
lemma RatchetSession.SpqrSound.encryptRaw_unchanged_iff {C : Suite Key} {s s' : RatchetSession Key}
    (h : s.SpqrSound C) {rng : Rng} {plaintext : Bytes} {sender recipient : IdentityPublicKey}
    {e : CryptoError} (herr : s.encryptRaw C rng plaintext sender recipient = (.error e, s')) :
    s' = s ↔ ∃ err, (s.spqr.ratchetSendKey C.toPrims rng).1 = .error err := by
  obtain ⟨sharedSecret, side, log, h⟩ := h
  have hkeys : (s.sendKeys C rng).2 = s' := by
    rw [← encryptRaw_snd C rng plaintext sender recipient s, herr]
  have hspqr := sendKeys_spqr C rng s
  rw [hkeys] at hspqr
  rcases hpq : s.spqr.ratchetSendKey C.toPrims rng with ⟨err | out, spqr⟩
  · obtain ⟨-, rfl⟩ := h.of_send_error hpq
    refine ⟨fun _ => ⟨err, rfl⟩, fun _ => ?_⟩
    rw [← hkeys, RatchetSession.sendKeys, hpq]
  · rw [hpq] at hspqr
    refine ⟨?_, fun ⟨err, hne⟩ => by cases hne⟩
    rintro rfl
    exact absurd hspqr.symm (SpqrState.ratchetSendKey_ne hpq)

/-- **When a failed send leaves the session alone.**  In any session that calls can lead to, a
failed `encrypt` changes nothing exactly if the prekey message is pending or the braid inside
failed, and a failed `encrypt_message` exactly if the braid failed.  A send that fails because there
is no sending chain, or because the AEAD refuses, has moved the PQ ratchet. -/
theorem failed_encrypt_unchanged_iff [DecidableEq Key] {C : Suite Key} {start : LiveSession Key}
    (hstart : LiveSession.Started C start) (cs : List SessionCall) (s : RatchetSession Key)
    (hs : s = (start.ratchet.callAll C cs).2) (rng : Rng) (plaintext : Bytes)
    (sender recipient : IdentityPublicKey) :
    (∀ e s', s.encrypt C rng plaintext sender recipient = (.error e, s') →
        (s' = s ↔ s.pendingPrekey.isSome ∨
          ∃ err, (s.spqr.ratchetSendKey C.toPrims rng).1 = .error err)) ∧
      ∀ e s', s.encryptMessage C rng plaintext sender recipient = (.error e, s') →
        (s' = s ↔ ∃ err, (s.spqr.ratchetSendKey C.toPrims rng).1 = .error err) := by
  have hsound : s.SpqrSound C := hs ▸ hstart.spqrSound.callAll cs
  refine ⟨?_, ?_⟩
  · intro e s' herr
    unfold RatchetSession.encrypt at herr
    split at herr
    · rename_i hpending
      obtain ⟨-, rfl⟩ := Prod.mk.inj herr
      exact ⟨fun _ => .inl hpending, fun _ => rfl⟩
    · rename_i hpending
      rw [hsound.encryptRaw_unchanged_iff herr]
      exact ⟨.inr, fun h => h.resolve_left hpending⟩
  · intro e s' herr
    unfold RatchetSession.encryptMessage at herr
    generalize hraw : s.encryptRaw C rng plaintext sender recipient = out at herr
    obtain ⟨e' | m, s₁⟩ := out
    · obtain ⟨-, rfl⟩ := Prod.mk.inj herr
      exact hsound.encryptRaw_unchanged_iff hraw
    · dsimp only at herr
      split at herr <;> cases herr

/-- Bob right after the handshake has no sending chain. -/
theorem failed_encrypt_unchanged_iff_initially : ∃ s',
    idealBob.encrypt idealSuite zeroRng [] [] [] = (.error .invalidSessionState, s') ∧
      (s' = idealBob ↔ idealBob.pendingPrekey.isSome ∨
        ∃ err, (idealBob.spqr.ratchetSendKey idealSuite.toPrims zeroRng).1 = .error err) := by
  obtain ⟨s', herr⟩ : ∃ s', idealBob.encrypt idealSuite zeroRng [] [] [] =
      (.error .invalidSessionState, s') := ⟨_, rfl⟩
  exact ⟨s', herr, (failed_encrypt_unchanged_iff (.bob 0 _) [] idealBob rfl zeroRng [] [] []).1 _ s'
    herr⟩

/-! ### A responder that has received nothing -/

/-- Until the peer's header has begun to arrive the braid has nothing to say, and a send takes the
next key of the chain it finds. -/
lemma SpqrState.ratchetSendKey_idle {P : Prims Key} {st : SpqrState Key} (rng : Rng)
    {auth : Authenticator Key} {hdrDec : Decoder} {chain : SckaChain Key}
    (hbraid : st.braid = ⟨.noHeaderReceived initialEpoch auth hdrDec⟩)
    (hchain : st.sendChain 0 = some chain) :
    st.ratchetSendKey P rng = (.ok (.idle initialEpoch, chain.n + 1, (chain.advance P.hash).1.2),
      st.setSend 0 (chain.advance P.hash).2) := by
  have hsend : st.braid.send P rng = (.ok ⟨.idle initialEpoch, 0, none⟩, st.braid) := by
    rw [hbraid]
    rfl
  exact ratchetSendKey_of_chain hsend hchain

/-- A session like that of a responder that has received nothing, with its PQ send chain at `k`. -/
structure RatchetSession.Unanswered (C : Suite Key) (s : RatchetSession Key) (k : ℕ) : Prop where
  pendingPrekey : s.pendingPrekey = none
  sendingChain : s.sendingChain = none
  braid : ∃ auth hdrDec, s.spqr.braid = ⟨.noHeaderReceived initialEpoch auth hdrDec⟩
  sendChain : ∃ chain, s.spqr.sendChain 0 = some chain ∧ chain.n = k

/-- Its `encrypt` fails and moves the PQ send chain. -/
lemma RatchetSession.Unanswered.encrypt {C : Suite Key} {s : RatchetSession Key} {k : ℕ}
    (h : s.Unanswered C k) (rng : Rng) (plaintext : Bytes) (sender recipient : IdentityPublicKey) :
    ∃ s', s.encrypt C rng plaintext sender recipient = (.error .invalidSessionState, s') ∧
      s'.Unanswered C (k + 1) := by
  obtain ⟨auth, hdrDec, hbraid⟩ := h.braid
  obtain ⟨chain, hchain, rfl⟩ := h.sendChain
  have hpq := SpqrState.ratchetSendKey_idle (P := C.toPrims) rng hbraid hchain
  refine ⟨{ s with spqr := s.spqr.setSend 0 (chain.advance C.hash).2 }, ?_, h.pendingPrekey,
    h.sendingChain, ⟨auth, hdrDec, (SpqrState.sameCore_modifyChains _).braid.trans hbraid⟩,
    (chain.advance C.hash).2, ?_, rfl⟩
  · simp only [RatchetSession.encrypt, h.pendingPrekey, Option.isSome_none, Bool.false_eq_true,
      if_false, encryptRaw, sendKeys, hpq, h.sendingChain]
  · rw [SpqrState.sendChain_setSend hchain, if_pos rfl]

/-- The calls of a responder that keeps trying. -/
def keepTrying (k : ℕ) : List SessionCall :=
  List.replicate k (.encrypt zeroRng [] [] [])

lemma RatchetSession.Unanswered.callAll [DecidableEq Key] {C : Suite Key} (k : ℕ) :
    ∀ {s : RatchetSession Key} {j : ℕ}, s.Unanswered C j →
      ∃ s', s.callAll C (keepTrying k) =
          (List.replicate k (.encrypted (.error .invalidSessionState)), s') ∧
        s'.Unanswered C (j + k) := by
  induction k with
  | zero => intro s j h; exact ⟨s, rfl, h⟩
  | succ k ih =>
      intro s j h
      obtain ⟨s₁, hcall, h₁⟩ := h.encrypt zeroRng [] [] []
      obtain ⟨s', hrest, h'⟩ := ih h₁
      refine ⟨s', ?_, ?_⟩
      · have hcalls : s.callAll C (keepTrying (k + 1)) =
            let out := s.call C (.encrypt zeroRng [] [] [])
            (out.1 :: (out.2.callAll C (keepTrying k)).1, (out.2.callAll C (keepTrying k)).2) := rfl
        rw [hcalls, RatchetSession.call, hcall]
        simp only [Prod.map, id, hrest, List.replicate_succ]
      · rwa [Nat.add_right_comm] at h'

lemma idealBob_unanswered : idealBob.Unanswered idealSuite 0 where
  pendingPrekey := rfl
  sendingChain := rfl
  braid := ⟨_, _, rfl⟩
  sendChain := by
    exact ⟨_, (SpqrState.init_chains idealSuite.toPrims 0 .b2a).1, rfl⟩

/-- **Failed sends are counted.**  Every `encrypt` of a responder that has received nothing returns
an error and moves the PQ send chain by one.  After more than `MAX_SKIP` of them the next message
has a number that the peer's PQ ratchet refuses. -/
theorem failed_encrypts_count : ∀ k : ℕ, ∃ s : RatchetSession ℕ,
    idealBob.callAll idealSuite (keepTrying k) =
        (List.replicate k (.encrypted (.error .invalidSessionState)), s) ∧
      (s.spqr.sendChain 0).map SckaChain.n = some k ∧
      (∃ key spqr, s.spqr.ratchetSendKey idealSuite.toPrims zeroRng =
        (.ok (.idle initialEpoch, k + 1, key), spqr)) ∧
      (maxSkip < k → ((SpqrState.newSender idealSuite.toPrims 0).ratchetReceiveKey
        idealSuite.toPrims (.idle initialEpoch) (k + 1)).1 =
          .error (.maxSkipExceeded k maxSkip)) := by
  intro k
  obtain ⟨s, hcalls, h⟩ := idealBob_unanswered.callAll k
  rw [Nat.zero_add] at h
  obtain ⟨auth, hdrDec, hbraid⟩ := h.braid
  obtain ⟨chain, hchain, rfl⟩ := h.sendChain
  refine ⟨s, hcalls, ?_, ⟨_, _, SpqrState.ratchetSendKey_idle zeroRng hbraid hchain⟩, ?_⟩
  · rw [hchain]
    rfl
  · intro hfar
    have hrecv := (SpqrState.init_chains idealSuite.toPrims 0 .a2b).2
    show ((SpqrState.init idealSuite.toPrims 0 .a2b).deriveKey idealSuite.hash 0 (chain.n + 1)).1 =
      _
    rw [SpqrState.deriveKey_of_far rfl hrecv (Nat.succ_pos _)]
    · rfl
    · rintro ⟨hgap, -⟩
      rw [SckaChain.at_n] at hgap
      omega

/-- One attempt more than `MAX_SKIP`, and the peer cannot decrypt what is sent in the end. -/
theorem failed_encrypts_lock_out : ∃ s : RatchetSession ℕ,
    idealBob.callAll idealSuite (keepTrying (maxSkip + 1)) =
        (List.replicate (maxSkip + 1) (.encrypted (.error .invalidSessionState)), s) ∧
      (idealBob.spqr.sendChain 0).map SckaChain.n = some 0 ∧
      (s.spqr.sendChain 0).map SckaChain.n = some (maxSkip + 1) ∧
      (∃ key spqr, s.spqr.ratchetSendKey idealSuite.toPrims zeroRng =
        (.ok (.idle initialEpoch, maxSkip + 2, key), spqr)) ∧
      ((SpqrState.newSender idealSuite.toPrims 0).ratchetReceiveKey idealSuite.toPrims
        (.idle initialEpoch) (maxSkip + 2)).1 =
          .error (.maxSkipExceeded (maxSkip + 1) maxSkip) := by
  obtain ⟨s, hcalls, hsend, hnext, hrefused⟩ := failed_encrypts_count (maxSkip + 1)
  obtain ⟨chain, hchain, hzero⟩ := idealBob_unanswered.sendChain
  refine ⟨s, hcalls, ?_, hsend, hnext, hrefused maxSkip.lt_succ_self⟩
  rw [hchain, Option.map_some, hzero]

end Hushwire
