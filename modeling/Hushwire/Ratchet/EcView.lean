import Hushwire.Ratchet.ReceivingChain
import Hushwire.Ratchet.SessionTraffic
import Hushwire.Ratchet.SpqrEpochs

/-!
# The EC half of a session

What the Diffie-Hellman ratchet and its chains do depends neither on the SPQR states nor on whether
a ciphertext opens: the SPQR key and the AEAD come after the EC ratchet has moved, and nothing is
taken back.  So the EC halves of two sessions can be followed through a run by themselves.

`EcView` is what there is to follow of one session, `Standing` adds what its party has sent and
received.  A send (`Shows.send`) and the delivery of a message under a ratchet key that is not the
current one (`Shows.deliver`) lead from one standing to the next, whatever the SPQR states do.
-/

namespace Hushwire

open Duplex RatchetSession

variable {Key : Type}

/-! ## Views -/

/-- The EC half of a session.  A chain is given by its first key and its next number. -/
structure EcView (Key : Type) where
  dhSelf : Bytes
  dhRemote : Option Key
  sending : Option (Key × ℕ)
  receiving : Option (Key × ℕ)
  previous : ℕ
  store : SkippedKeys Key

/-- The session looks like this. -/
structure EcView.Of (C : Suite Key) (v : EcView Key) (s : RatchetSession Key) : Prop where
  dhSelf : s.dhSelf = v.dhSelf
  dhSelfPublic : s.dhSelfPublic = C.x25519.publicKey v.dhSelf
  dhRemote : s.dhRemote = v.dhRemote
  sending : s.sendingChain = v.sending.map (fun c => .at C.hash c.1 c.2)
  receiving : s.receivingChain = v.receiving.map (fun c => .at C.hash c.1 c.2)
  previous : s.previousSendingChainLength = v.previous
  store : s.skipped = v.store

/-- The EC half of a sealed message: its ratchet key, the length of the chain before, its number and
its key. -/
def SealedMessage.ec (e : SealedMessage Key) : Key × ℕ × ℕ × Key :=
  (e.dh, e.header.previousChainLength, e.number, e.ecMk)

/-- A view, what has been sealed, what has been delivered and the keys drawn so far. -/
structure Standing (Key : Type) extends EcView Key where
  sealed : List (Key × ℕ × ℕ × Key)
  got : List ℕ
  keys : List Key

/-- Side `s` of the network stands like this; the SPQR state has sent nothing else. -/
structure Shows (C : Suite Key) (first : Side → Key) (net : SessionNet Key) (s : Side)
    (v : Standing Key) : Prop where
  ec : v.toEcView.Of C (net.node s)
  sealed : (sealedMessages (net.log s)).map SealedMessage.ec = v.sealed
  got : net.got s = v.got
  keys : ownKeys (first s) (net.log s) = v.keys
  derived : (derivedKeys (spqrLog (net.log s))).length = v.sealed.length

section Steps

variable {C : Suite Key} {first : Side → Key} {net net' : SessionNet Key} {s : Side}
  {v w : Standing Key} {sharedSecret : Key} {identity : Side → IdentityPublicKey}

/-- The party that does not move. -/
lemma Shows.other {s' : RatchetSession Key} {sent : List RatchetMessage}
    {evs : List (SessionEvent Key)} (h : Shows C first net s.other v)
    (hmoves : Net.Moves net net' s s' sent evs) : Shows C first net' s.other v where
  ec := hmoves.node_other ▸ h.ec
  sealed := hmoves.log_other ▸ h.sealed
  got := hmoves.got_other.trans h.got
  keys := hmoves.log_other ▸ h.keys
  derived := hmoves.log_other ▸ h.derived

/-- A message that is on the board has been sealed. -/
lemma Shows.exists_sealed (h : Shows C first net s v) {i previous n : ℕ} {dh key : Key}
    (hi : v.sealed[i]? = some (dh, previous, n, key)) :
    ∃ e, (sealedMessages (net.log s))[i]? = some e ∧ e.header.dhPublicKey = dh ∧
      e.header.previousChainLength = previous ∧ e.header.messageNumber = n ∧ e.ecMk = key := by
  rw [← h.sealed, List.getElem?_map] at hi
  obtain ⟨e, he, hlabel⟩ := Option.map_eq_some_iff.mp hi
  refine ⟨e, he, ?_⟩
  simpa only [SealedMessage.ec, Prod.mk.injEq] using hlabel

/-! ## The SPQR half -/

/-- The SPQR number of a message is at most the count of messages. -/
lemma Shows.pqMessageNumber_le (h : Shows C first net s v)
    (htraffic : Traffic C sharedSecret identity net) {e : SealedMessage Key}
    (he : e ∈ sealedMessages (net.log s)) : e.header.pqMessageNumber ≤ v.sealed.length := by
  obtain ⟨bs, hbs⟩ := htraffic.shadow
  have hcounted := (counted_run C.toPrims sharedSecret bs s).sent
  rw [hbs.log, sentKeys_eq_map, List.length_map, h.derived] at hcounted
  have hderived : e.derived ∈ derivedKeys (spqrLog (net.log s)) :=
    (htraffic.derived s).subset (List.mem_map_of_mem he)
  exact hcounted _ (List.mem_map_of_mem hderived)

/-- The braids inside the sessions are at most one epoch apart. -/
lemma Traffic.epoch_le_succ (h : Traffic C sharedSecret identity net) (hP : C.toPrims.Correct)
    (s : Side) : (net.node s).spqr.braid.state.epoch ≤
      (net.node s.other).spqr.braid.state.epoch + 1 := by
  obtain ⟨bs, hbs⟩ := h.shadow
  have hjoint := (joint_braidNetOf hP sharedSecret hbs.honest).epoch_le_succ s
  rw [← hbs.node, ← hbs.node]
  exact hjoint

/-! ## Sends -/

/-- After `k` more messages of the sending chain. -/
def Standing.sends (C : Suite Key) (v : Standing Key) (base : Key) (n k : ℕ) : Standing Key :=
  { v with
    sending := some (base, n + k)
    sealed := v.sealed ++ (List.range k).map (fun j =>
      (C.x25519.publicKey v.dhSelf, v.previous, n + j, ecKey C.hash base (n + j))) }

lemma Standing.sends_succ (v : Standing Key) (base : Key) (n k : ℕ) :
    (v.sends C base n k).sends C base (n + k) 1 = v.sends C base n (k + 1) := by
  simp only [Standing.sends, List.range_succ, List.range_zero, List.nil_append, List.map_append,
    List.map_cons, List.map_nil, List.append_assoc, Nat.add_assoc, Nat.add_zero]

/-- A receive derives nothing for a message of its own. -/
lemma derivedKeys_recv (P : Prims Key) (st : SpqrState Key) (m : Message × ℕ) (rng : Rng) :
    derivedKeys ((spqrMachine P).recv st m rng).2 = [] := by
  simp only [spqrMachine]
  split <;> simp [derivedKeys, SpqrEvent.derived?]

variable [DecidableEq Key]

/-- A send that seals a message: in a run on an honest network the SPQR state always sends. -/
lemma Traffic.exists_send (h : Traffic C sharedSecret identity net) (hP : C.toPrims.Correct)
    (hseals : ∀ rng key msg ad, ∃ ct, Aead.encrypt C.hash C.xchacha rng key msg ad = .ok ct)
    {c : ChainState Key} (hc : (net.node s).sendingChain = some c) (input : SessionInput) :
    ∃ spqr message evs e, (sessionMachine C).send (net.node s) input =
        ({ net.node s with spqr, sendingChain := some (c.advance C.hash).2 }, some message, evs) ∧
      sealedMessages evs = [e] ∧
      e.ec = ((net.node s).dhSelfPublic, (net.node s).previousSendingChainLength, c.messageNumber,
        (c.advance C.hash).1) ∧
      derivedKeys (spqrLog evs) = [e.derived] ∧
      e.header.braidMsg.epoch = spqr.braid.state.epoch := by
  obtain ⟨bs, hbs⟩ := h.shadow
  obtain ⟨m, n, key, spqr, hpq, -⟩ :=
    exists_ratchetSendKey hP sharedSecret bs hbs.honest s input.rng
  have hepoch := (spqrLocal_run C.toPrims sharedSecret bs s).epoch_of_ratchetSendKey hpq
  rw [hbs.node] at hpq
  have hpending := h.pendingPrekey s
  obtain ⟨ciphertext, -, hcall⟩ := sessionMachine_send_of_keys hseals input hpending hc hpq
  refine ⟨spqr, _, _, _, hcall, sealedMessages_sealed _ _ _ _ _ _, rfl, ?_, hepoch⟩
  rw [spqrLog_append, spqrLog_map]
  show derivedKeys (_ ++ []) = _
  rw [List.append_nil, derivedKeys_send hpq]
  rfl

/-- **A send**, as the EC ratchet sees it. -/
lemma Shows.send (h : Shows C first net s v) (htraffic : Traffic C sharedSecret identity net)
    (hP : C.toPrims.Correct)
    (hseals : ∀ rng key msg ad, ∃ ct, Aead.encrypt C.hash C.xchacha rng key msg ad = .ok ct)
    {base : Key} {n : ℕ} (hv : v.sending = some (base, n)) (input : SessionInput)
    (hidentity : input.identity = identity s) (hpeer : input.peerIdentity = identity s.other)
    (hnet' : net' = net.step (sessionMachine C) (.send s input)) :
    Traffic C sharedSecret identity net' ∧ Shows C first net' s (v.sends C base n 1) ∧
      (∀ w, Shows C first net s.other w → Shows C first net' s.other w) ∧
      ∃ e, sealedMessages (net'.log s) = sealedMessages (net.log s) ++ [e] ∧
        e.header.braidMsg.epoch = (net'.node s).spqr.braid.state.epoch := by
  have hc : (net.node s).sendingChain = some (.at C.hash base n) := by
    rw [h.ec.sending, hv]
    rfl
  obtain ⟨spqr, message, evs, e, hcall, hsealed, hec, hderived, hepoch⟩ :=
    htraffic.exists_send hP hseals hc input
  have hreport := sendReport (htraffic.pendingPrekey s) hcall
  have hmoves := Net.moves_send net s hcall
  have hgrows := Net.grows_step (A := sessionMachine C) net (.send s input)
  have hgot : (net.step (sessionMachine C) (.send s input)).got s = net.got s := rfl
  rw [← hnet'] at hmoves hgrows hgot
  refine ⟨htraffic.send hmoves hgrows hidentity hpeer hreport, ⟨⟨?_, ?_, ?_, ?_, ?_, ?_, ?_⟩, ?_,
    hgot.trans h.got, ?_, ?_⟩, fun w hw => hw.other hmoves, e, ?_, ?_⟩
  · rw [hmoves.node_self]
    exact h.ec.dhSelf
  · rw [hmoves.node_self]
    exact h.ec.dhSelfPublic
  · rw [hmoves.node_self]
    exact h.ec.dhRemote
  · rw [hmoves.node_self]
    exact congrArg (fun out => some out.2) (ChainState.advance_at n)
  · rw [hmoves.node_self]
    exact h.ec.receiving
  · rw [hmoves.node_self]
    exact h.ec.previous
  · rw [hmoves.node_self]
    exact h.ec.store
  · rw [hmoves.log_self, sealedMessages_append, List.map_append, h.sealed, hsealed, List.map_cons,
      hec, h.ec.dhSelfPublic, h.ec.previous, ChainState.advance_at]
    rfl
  · rw [hmoves.log_self, ownKeys_append, hreport.noKey, List.append_nil, h.keys]
    rfl
  · rw [hmoves.log_self, spqrLog_append, derivedKeys, List.filterMap_append, List.length_append]
    rw [derivedKeys] at hderived
    rw [hderived, ← derivedKeys, h.derived, Standing.sends, List.length_append, List.length_map,
      List.length_range]
    rfl
  · rw [hmoves.log_self, sealedMessages_append, hsealed]
  · rw [hmoves.node_self, hepoch]

/-! ## Deliveries -/

/-- The store after the rest of the receiving chain has been skipped. -/
def EcView.skip (C : Suite Key) (v : EcView Key) (upTo : ℕ) : SkippedKeys Key :=
  match v.receiving with
  | none => v.store
  | some (base, n) => v.store.insertRange C.hash base (v.dhRemote.getD C.hash.zero) n (upTo - n)

/-- After a step on the key `dh`, for a message with number `n` whose header gives the chain before
the length `previous`.  The root keys, which nothing below depends on, are `root` and `root'`. -/
def EcView.ratchet (C : Suite Key) (v : EcView Key) (rng : Rng) (dh : Key) (previous n : ℕ)
    (root root' : Key) : EcView Key where
  dhSelf := rng.fill 32
  dhRemote := some dh
  sending := some ((C.hash.kdfRk root' (C.x25519.diffieHellman (rng.fill 32) dh)).chainKey, 0)
  receiving := some ((C.hash.kdfRk root (C.x25519.diffieHellman v.dhSelf dh)).chainKey, n + 1)
  previous := (v.sending.map Prod.snd).getD 0
  store := (v.skip C previous).insertRange C.hash
    (C.hash.kdfRk root (C.x25519.diffieHellman v.dhSelf dh)).chainKey dh 0 n

/-- Skipping the rest of the receiving chain. -/
lemma EcView.Of.skip {x : EcView Key} {σ : RatchetSession Key} (h : x.Of C σ) {upTo : ℕ}
    (hgap : ∀ base n, x.receiving = some (base, n) → upTo ≤ n + maxSkip) :
    ∃ c, σ.skipReceivingMessages C.hash upTo =
      (.ok (), { σ with receivingChain := c, skipped := x.skip C upTo }) := by
  have hreceiving := h.receiving
  rcases hx : x.receiving with - | ⟨base, n⟩
  · rw [hx] at hreceiving
    refine ⟨σ.receivingChain, ?_⟩
    rw [skipReceivingMessages_of_none hreceiving, EcView.skip, hx, ← h.store]
  · rw [hx] at hreceiving
    have hreceiving' : σ.receivingChain = some (.at C.hash base n) := hreceiving
    rcases Nat.lt_or_ge upTo n with hlt | hge
    · refine ⟨σ.receivingChain, ?_⟩
      rw [skipReceivingMessages_of_passed hreceiving' hlt, EcView.skip, hx, ← h.store]
      dsimp only
      rw [Nat.sub_eq_zero_of_le hlt.le]
      rfl
    · refine ⟨some (.at C.hash base upTo), ?_⟩
      have hnot : ¬ upTo < n := not_lt.mpr hge
      have hnot' : ¬ maxSkip < upTo - n := by
        have := hgap base n hx
        omega
      simp only [skipReceivingMessages, hreceiving', ChainState.at_messageNumber, if_neg hnot,
        if_neg hnot', skipKeys_at, Nat.add_sub_cancel' hge, EcView.skip, hx, h.dhRemote, h.store]

/-- **A message under another ratchet key**, as the EC ratchet sees it. -/
lemma EcView.Of.resolve {x : EcView Key} {σ : RatchetSession Key} (h : x.Of C σ) (rng : Rng)
    {header : MessageHeader Key} (hne : x.dhRemote ≠ some header.dhPublicKey)
    (hnone : x.store.find header.dhPublicKey header.messageNumber = none)
    (hgap : ∀ base n, x.receiving = some (base, n) → header.previousChainLength ≤ n + maxSkip)
    (hn : header.messageNumber ≤ maxSkip) :
    ∃ root root' σ', σ.ecMessageKey C rng header = (.ok (ecKey C.hash (C.hash.kdfRk root
        (C.x25519.diffieHellman x.dhSelf header.dhPublicKey)).chainKey header.messageNumber), σ') ∧
      (x.ratchet C rng header.dhPublicKey header.previousChainLength header.messageNumber
        root root').Of C σ' := by
  obtain ⟨c, hskip⟩ := h.skip hgap
  have hnone' : σ.skipped.find header.dhPublicKey header.messageNumber = none := by
    rw [h.store]
    exact hnone
  have hne' : σ.dhRemote ≠ some header.dhPublicKey := by
    rw [h.dhRemote]
    exact hne
  have hec := ecMessageKey_of_new rng hnone' hne' hskip hn rfl
  rw [h.dhSelf] at hec
  refine ⟨σ.rootKey, _, _, hec, ⟨rfl, rfl, rfl, rfl, rfl, ?_, rfl⟩⟩
  show (σ.sendingChain.map ChainState.messageNumber).getD 0 = (x.sending.map Prod.snd).getD 0
  rw [h.sending, Option.map_map]
  rfl

lemma EcView.Of.ecReach {x : EcView Key} {σ : RatchetSession Key} (h : x.Of C σ)
    {header : MessageHeader Key} (hne : x.dhRemote ≠ some header.dhPublicKey)
    (hgap : ∀ base n, x.receiving = some (base, n) → header.previousChainLength ≤ n + maxSkip)
    (hn : header.messageNumber ≤ maxSkip) : σ.EcReach header := by
  intro _
  rw [h.dhRemote, if_neg hne]
  refine ⟨?_, hn⟩
  intro c hc
  rw [h.receiving] at hc
  obtain ⟨⟨base, n⟩, hx, rfl⟩ := Option.map_eq_some_iff.mp hc
  exact hgap base n hx

/-- Where nothing was skipped before, only the new chain is skipped. -/
lemma EcView.ratchet_store_of_new {x : EcView Key} (hx : x.receiving = none)
    (hstore : x.store = .new) (rng : Rng) (dh : Key) (previous n : ℕ) (root root' : Key) :
    (x.ratchet C rng dh previous n root root').store = SkippedKeys.insertRange C.hash
      (C.hash.kdfRk root (C.x25519.diffieHellman x.dhSelf dh)).chainKey dh 0 .new n := by
  rw [EcView.ratchet, EcView.skip, hx, hstore]

/-- A full store stays as it is. -/
lemma EcView.ratchet_store_of_full {x : EcView Key} (hfull : maxSkip ≤ x.store.len) (rng : Rng)
    (dh : Key) (previous n : ℕ) (root root' : Key) :
    (x.ratchet C rng dh previous n root root').store = x.store := by
  have hskip : x.skip C previous = x.store := by
    rw [EcView.skip]
    split
    · rfl
    · exact SkippedKeys.insertRange_of_full hfull _
  rw [EcView.ratchet, hskip]
  exact SkippedKeys.insertRange_of_full hfull _

/-- After the delivery of the message at position `i`. -/
def Standing.ratchet (C : Suite Key) (v : Standing Key) (rng : Rng) (i : ℕ) (dh : Key)
    (previous n : ℕ) (root root' : Key) : Standing Key :=
  { v.toEcView.ratchet C rng dh previous n root root' with
    sealed := v.sealed
    got := v.got ++ [i]
    keys := v.keys ++ [C.x25519.publicKey (rng.fill 32)] }

/-- **A delivery**, as the EC ratchet sees it: it moves in the same way whether the message opens or
not. -/
lemma Shows.deliver (h : Shows C first net s v) (hpeer : Shows C first net s.other w)
    (htraffic : Traffic C sharedSecret identity net) (hW : C.postcard.Correct) {i previous n : ℕ}
    {dh key : Key} (hi : w.sealed[i]? = some (dh, previous, n, key)) (hne : v.dhRemote ≠ some dh)
    (hnone : v.store.find dh n = none)
    (hgap : ∀ base r, v.receiving = some (base, r) → previous ≤ r + maxSkip) (hn : n ≤ maxSkip)
    (input : SessionInput) (hnet' : net' = net.step (sessionMachine C) (.deliver s i input)) :
    ∃ root root', Traffic C sharedSecret identity net' ∧
      Shows C first net' s (v.ratchet C input.rng i dh previous n root root') ∧
      ∀ w, Shows C first net s.other w → Shows C first net' s.other w := by
  obtain ⟨e, he, rfl, rfl, rfl, -⟩ := hpeer.exists_sealed hi
  obtain ⟨r, s₁, s', evs, hmoves, hgot, hreport⟩ := htraffic.deliver hW he input
  have htraffic' := htraffic.step hW (.deliver s i input) trivial
  rw [← hnet'] at hmoves hgot htraffic'
  obtain ⟨root, root', σ', hec, hview⟩ := h.ec.resolve input.rng hne hnone hgap hn
  obtain ⟨rfl, rfl⟩ := Prod.mk.inj (hec.symm.trans hreport.ec)
  have hremote : σ'.dhRemote ≠ (net.node s).dhRemote := by
    rw [hview.dhRemote, h.ec.dhRemote]
    exact hne.symm
  refine ⟨root, root', htraffic', ⟨?_, ?_, ?_, ?_, ?_⟩, fun w hw => hw.other hmoves⟩
  · rw [hmoves.node_self, hreport.node]
    exact ⟨hview.dhSelf, hview.dhSelfPublic, hview.dhRemote, hview.sending, hview.receiving,
      hview.previous, hview.store⟩
  · rw [hmoves.log_self, sealedMessages_append, hreport.quiet, List.append_nil, h.sealed]
    rfl
  · rw [hgot, h.got]
    rfl
  · rw [hmoves.log_self, ownKeys_append, hreport.keys, if_neg hremote, h.keys, hview.dhSelfPublic]
    rfl
  · have hquiet : derivedKeys (spqrLog evs) = [] := by
      rcases hreport.spqr with ⟨-, hlog⟩ | ⟨-, hlog⟩
      · rw [hlog]
        rfl
      · rw [hlog, derivedKeys_recv]
    rw [hmoves.log_self, spqrLog_append, derivedKeys, List.filterMap_append, ← derivedKeys,
      ← derivedKeys, hquiet, List.append_nil, h.derived]
    rfl

end Steps

end Hushwire
