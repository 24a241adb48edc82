import Hushwire.Braid.Redelivery
import Hushwire.Ratchet.SpqrEpochs

/-!
# The keys of two ratchets pair up

Two ratchets on an honest network hand out the same key for a message: the sender when it sends,
the receiver when the message arrives, whatever arrived before it.

The argument puts three things together.  The epoch secrets of the two parties are prefixes of
one list (`Joint.take_out`), so a send chain and the peer's receive chain of that epoch start from
one key.  The receiver's invariant says that every number it has not accepted is either stored or
still ahead of the chain.  And a pair is accepted only when it is delivered, and sent only once,
so a pair that is delivered for the first time has not been accepted.

A pair that was accepted is refused from then on, and the refusal leaves no trace: the braid has
absorbed the message and the chains do not change.  A pair that was refused can still be accepted
when it comes again: `refused_pair_accepted_later` has one that is too far ahead at first.
-/

namespace Hushwire

open Duplex

variable {Key : Type}

namespace SpqrEvent

/-- The pair and the key a send handed out. -/
def derived? : SpqrEvent Key → Option (Message × ℕ × Key)
  | sent m pqN key => some (m, pqN, key)
  | _ => none

/-- The pair that was sent. -/
def sentPair? : SpqrEvent Key → Option (Message × ℕ)
  | sent m pqN _ => some (m, pqN)
  | _ => none

/-- The pair that was accepted. -/
def receivedPair? : SpqrEvent Key → Option (Message × ℕ)
  | received m pqN _ => some (m, pqN)
  | _ => none

end SpqrEvent

/-- The messages a party has sent, with their counters and the keys it derived for them. -/
def derivedKeys (log : List (SpqrEvent Key)) : List (Message × ℕ × Key) :=
  log.filterMap SpqrEvent.derived?

/-! ## What the logs say about the traffic -/

section Traffic

variable {P : Prims Key} {log : List (SpqrEvent Key)}

lemma sentKeys_eq_map (log : List (SpqrEvent Key)) :
    sentKeys log = (derivedKeys log).map (fun d => ((d.1.epoch - 1, d.2.1), d.2.2)) := by
  rw [sentKeys, derivedKeys, List.map_filterMap]
  congr 1
  funext e
  cases e <;> rfl

lemma sentPairs_eq_map (log : List (SpqrEvent Key)) :
    log.filterMap SpqrEvent.sentPair? = (derivedKeys log).map (fun d => (d.1, d.2.1)) := by
  rw [derivedKeys, List.map_filterMap]
  congr 1
  funext e
  cases e <;> rfl

lemma acceptedPairs_eq_map (log : List (SpqrEvent Key)) :
    acceptedPairs log =
      (log.filterMap SpqrEvent.receivedPair?).map (fun p => (p.1.epoch - 1, p.2)) := by
  rw [acceptedPairs, List.map_filterMap]
  congr 1
  funext e
  cases e <;> rfl

/-- What is on its way was derived, in this order. -/
lemma sent_eq_derivedKeys (P : Prims Key) (sharedSecret : Key)
    (as : List (Action Rng (Message × ℕ))) (s : Side) :
    ((spqrNet P sharedSecret).run (spqrMachine P) as).sent s =
      (derivedKeys (((spqrNet P sharedSecret).run (spqrMachine P) as).log s)).map
        (fun d => (d.1, d.2.1)) := by
  rw [← sentPairs_eq_map]
  refine Net.sent_eq_filterMap ?_ ?_ as _ (fun s => rfl) s
  · intro st rng
    simp only [spqrMachine]
    split <;> simp [SpqrEvent.sentPair?]
  · intro st m rng
    simp only [spqrMachine]
    split <;> simp [SpqrEvent.sentPair?]

/-- On an honest network every pair that is accepted was delivered. -/
lemma exists_got_of_accepted (P : Prims Key) (sharedSecret : Key)
    {as : List (Action Rng (Message × ℕ))} (has : ∀ a ∈ as, a.Honest) {s : Side} {p : ℕ × ℕ}
    (hp : p ∈ acceptedPairs (((spqrNet P sharedSecret).run (spqrMachine P) as).log s)) :
    ∃ i ∈ ((spqrNet P sharedSecret).run (spqrMachine P) as).got s, ∃ m n,
      (((spqrNet P sharedSecret).run (spqrMachine P) as).sent s.other)[i]? = some (m, n) ∧
        p = (m.epoch - 1, n) := by
  rw [acceptedPairs_eq_map] at hp
  obtain ⟨⟨m, n⟩, hmem, rfl⟩ := List.mem_map.mp hp
  have htraced : Net.Traced SpqrEvent.receivedPair?
      ((spqrNet P sharedSecret).run (spqrMachine P) as) := by
    refine Net.traced_run ?_ ?_ as has (fun s m hm => absurd hm List.not_mem_nil)
    · intro st rng
      simp only [spqrMachine]
      split <;> simp [SpqrEvent.receivedPair?]
    · intro st m rng m' hm'
      simp only [spqrMachine] at hm'
      split at hm'
      · simpa [SpqrEvent.receivedPair?] using hm'
      · simp [SpqrEvent.receivedPair?] at hm'
  obtain ⟨i, hi, hget⟩ := htraced s (m, n) hmem
  exact ⟨i, hi, m, n, hget, rfl⟩

end Traffic

/-! ## Pairing -/

section Pairing

variable {P : Prims Key} {sharedSecret : Key} {as : List (Action Rng (Message × ℕ))} {s : Side}
  {m : Message} {n : ℕ} {key : Key}

/-- A receive takes the braid no further than one epoch past the message. -/
lemma State.Receives.epoch_le {st st' : State Key} {o : Option (EpochSecret Key)}
    (h : State.Receives P m st st' o) (hle : st.epoch ≤ m.epoch + 1) : st'.epoch ≤ m.epoch + 1 := by
  cases h with
  | ct2Accept hepoch => exact Nat.succ_le_succ hepoch.ge
  | nextEpoch hepoch => exact hepoch.ge.trans (Nat.le_succ _)
  | _ => exact hle

/-- No two messages of a party have the same sending epoch and number. -/
lemma SpqrLocal.pairs_nodup {st : SpqrState Key} {log : List (SpqrEvent Key)}
    (h : SpqrLocal P sharedSecret s st log) :
    ((derivedKeys log).map (fun d => (d.1.epoch - 1, d.2.1))).Nodup := by
  have hnodup : ((sentKeys log).map Prod.fst).Nodup := by
    refine h.chains.sending.sorted.imp ?_
    rintro p q hlt rfl
    rcases hlt with hlt | ⟨-, hlt⟩
    · exact lt_irrefl _ hlt
    · exact lt_irrefl _ hlt
  rw [sentKeys_eq_map, List.map_map] at hnodup
  exact hnodup

lemma SpqrLocal.index_unique {st : SpqrState Key} {log : List (SpqrEvent Key)}
    (h : SpqrLocal P sharedSecret s st log) {i j : ℕ} {d d' : Message × ℕ × Key}
    (hi : (derivedKeys log)[i]? = some d) (hj : (derivedKeys log)[j]? = some d')
    (hpair : (d.1.epoch - 1, d.2.1) = (d'.1.epoch - 1, d'.2.1)) : i = j := by
  have hlt : i < ((derivedKeys log).map (fun d => (d.1.epoch - 1, d.2.1))).length := by
    rw [List.length_map]
    exact (List.getElem?_eq_some_iff.mp hi).1
  refine (List.getElem?_inj hlt h.pairs_nodup).mp ?_
  rw [List.getElem?_map, List.getElem?_map, hi, hj]
  exact congrArg some hpair

/-- The secrets the ratchets have incorporated are those their braids have emitted. -/
lemma secretsIn_eq_out (net : SpqrNet Key) (s : Side) :
    secretsIn (braidLog (net.log s)) =
      ((braidsOf (braidNetOf net)).out s).map EpochSecret.secret := rfl

/-- In step, the braid takes what its peer's ratchet derived a key for, and the receiver has reached
the epoch of it. -/
lemma receives_derived (hP : P.Correct) (has : ∀ a ∈ as, a.Honest)
    (hsent : (m, n, key) ∈
      derivedKeys (((spqrNet P sharedSecret).run (spqrMachine P) as).log s.other)) :
    (∃ b' o, (((spqrNet P sharedSecret).run (spqrMachine P) as).node s).braid.state.receive P m =
      .ok (b', o)) ∧
      m.epoch - 1 ≤ (((spqrNet P sharedSecret).run (spqrMachine P) as).node s).epoch := by
  have h := spqrLocal_run P sharedSecret as s
  have hjoint := joint_braidNetOf hP sharedSecret has
  have hsentEq := sent_eq_derivedKeys P sharedSecret as s.other
  generalize (spqrNet P sharedSecret).run (spqrMachine P) as = net at *
  have hm : m ∈ (braidsOf (braidNetOf net)).sent s.other := by
    refine List.mem_map.mpr ⟨(m, n), ?_, rfl⟩
    rw [hsentEq]
    exact List.mem_map_of_mem hsent
  obtain ⟨b', o, hrecv, -⟩ := hjoint.recv hP s hm
  refine ⟨⟨b', o, hrecv⟩, ?_⟩
  have hle := hjoint.epoch_le_out hm
  rw [h.chains.epochs.epoch_eq, secretsIn_eq_out, List.length_map]
  omega

/-- The receive chain of an epoch that both parties have reached starts from the key that the peer's
send chain starts from. -/
lemma recvBase_eq_sendBase {net : SpqrNet Key} {D : Bytes → Decoder → Prop} {e : ℕ}
    {more : List Key} (hjoint : Joint P D (braidsOf (braidNetOf net)))
    (hreached : e ≤ (secretsIn (braidLog (net.log s))).length)
    (hpeer : e ≤ (secretsIn (braidLog (net.log s.other))).length) (auth : Key) :
    recvBase P.hash auth (secretsIn (braidLog (net.log s)) ++ more) s e =
      sendBase P.hash auth (secretsIn (braidLog (net.log s.other))) s.other e := by
  rw [← recvBase_other, Side.other_other, recvBase, recvBase, chainBases_append hreached]
  rw [secretsIn_eq_out, List.length_map] at hreached hpeer
  refine congrArg Prod.snd (chainBases_congr ?_)
  rw [secretsIn_eq_out, secretsIn_eq_out, ← List.map_take, ← List.map_take,
    hjoint.take_out hreached hpeer]

/-- **The two ends of a delivery.**  A pair that its sender derived a key for is accepted with that
key, if it was not accepted before.  It is refused only if it was, if its epoch is two or more
behind the braid or if the chain does not reach it. -/
theorem ratchetReceiveKey_derived (hP : P.Correct) (has : ∀ a ∈ as, a.Honest)
    (hsent : (m, n, key) ∈
      derivedKeys (((spqrNet P sharedSecret).run (spqrMachine P) as).log s.other)) :
    let net := (spqrNet P sharedSecret).run (spqrMachine P) as
    ((∃ st', (net.node s).ratchetReceiveKey P m n = (.ok key, st')) ∧
        (m.epoch - 1, n) ∉ acceptedPairs (net.log s)) ∨
      (∃ err st', (net.node s).ratchetReceiveKey P m n = (.error err, st')) ∧
        ((m.epoch - 1, n) ∈ acceptedPairs (net.log s) ∨
          m.epoch + 1 < (net.node s).braid.state.epoch ∨
          ∃ c, (net.node s).recvChain (m.epoch - 1) = some c ∧ c.n < n ∧ ¬ c.Reaches n) := by
  intro net
  have h : SpqrLocal P sharedSecret s (net.node s) (net.log s) := spqrLocal_run P sharedSecret as s
  have hpeer : SpqrLocal P sharedSecret s.other (net.node s.other) (net.log s.other) :=
    spqrLocal_run P sharedSecret as s.other
  have hjoint : Joint P (Decoder.Genuine P.rs) (braidsOf (braidNetOf net)) :=
    joint_braidNetOf hP sharedSecret has
  obtain ⟨⟨b', o, hrecv⟩, hreached⟩ := receives_derived hP has hsent
  change (net.node s).braid.state.receive P m = .ok (b', o) at hrecv
  change m.epoch - 1 ≤ (net.node s).epoch at hreached
  change (m, n, key) ∈ derivedKeys (net.log s.other) at hsent
  clear_value net
  obtain ⟨st₁, hcall, -, -, hkeep, h₁⟩ := h.chains.ratchetReceiveKey h.braid hrecv n
  have hout : (secretsIn (braidLog (net.log s))).length = (net.node s).epoch :=
    h.chains.epochs.epoch_eq.symm
  -- the two chains of that epoch start from one key
  have hpair : ((m.epoch - 1, n), key) ∈ sentKeys (net.log s.other) := by
    rw [sentKeys_eq_map]
    exact List.mem_map.mpr ⟨_, hsent, rfl⟩
  obtain ⟨hpos, hkey⟩ := hpeer.chains.sending.key_eq _ _ _ hpair
  have hbase : recvBase P.hash (braidAuthSeed P.hash sharedSecret)
      (secretsIn (braidLog (net.log s)) ++ o.toList.map EpochSecret.secret) s (m.epoch - 1) =
      sendBase P.hash (braidAuthSeed P.hash sharedSecret) (secretsIn (braidLog (net.log s.other)))
        s.other (m.epoch - 1) := by
    have hreachedPeer : m.epoch - 1 ≤ (net.node s.other).epoch :=
      (hpeer.chains.sending.le _ _ _ hpair).1.trans hpeer.chains.sending.low_le
    rw [hpeer.chains.epochs.epoch_eq] at hreachedPeer
    exact recvBase_eq_sendBase hjoint (hreached.trans_eq hout.symm) hreachedPeer _
  rw [hcall]
  rcases h₁.derive (m.epoch - 1) n with ⟨st', hok, hnew, -⟩ | ⟨⟨err, herr⟩, hnone, hwhy⟩
  · rw [hbase, ← hkey] at hok
    exact .inl ⟨⟨st', hok⟩, hnew⟩
  refine .inr ⟨⟨err, _, herr⟩, ?_⟩
  by_cases hepoch : (net.node s).braid.state.epoch ≤ m.epoch + 1
  swap
  · exact .inr (.inl (not_le.mp hepoch))
  -- its epoch is one the receiver still retains
  have hbehind : st₁.epoch ≤ m.epoch + 1 := by
    have hlocal' := h.braid.recv (.of_receive hrecv)
    have hlen := hlocal'.length_secretsIn
    rw [secretsIn_call _ _ _ _ (fun _ => rfl) (fun _ => rfl)] at hlen
    calc st₁.epoch = b'.completed := h₁.epochs.epoch_eq.trans hlen
      _ ≤ b'.epoch := b'.completed_le_epoch
      _ ≤ m.epoch + 1 := (State.Receives.of_receive hrecv).epoch_le hepoch
  have hle₁ : (net.node s).epoch ≤ st₁.epoch := by
    rw [h₁.epochs.epoch_eq, ← hout, List.length_append]
    exact Nat.le_add_right _ _
  have hretained : m.epoch - 1 ∈ st₁.kdfchains :=
    (h₁.epochs.retained _).mpr ⟨hreached.trans hle₁, by omega⟩
  obtain ⟨j, hj⟩ := h₁.receiving.chain_at _ hretained
  -- the number is stored if the chain has passed it, and within reach if it has not
  by_cases hpassed : n ≤ (SckaChain.at P.hash (recvBase P.hash (braidAuthSeed P.hash sharedSecret)
      (secretsIn (braidLog (net.log s)) ++ o.toList.map EpochSecret.secret) s (m.epoch - 1)) j).n
  · rcases h₁.receiving.covered _ _ n hj hpos hpassed with hstored | hacc
    · rw [hnone] at hstored
      cases hstored
    · exact .inl hacc
  · refine .inr (.inr ⟨_, (hkeep _ hreached).symm.trans hj, not_le.mp hpassed, ?_⟩)
    exact (hwhy _ hj).resolve_left hpassed

/-- **The receiver's key is the sender's.**  A pair that its sender derived a key for and that has
not been accepted yet is accepted with that key, provided its epoch is still retained and its chain
has passed the number or reaches it. -/
theorem ratchetReceiveKey_eq (hP : P.Correct) (has : ∀ a ∈ as, a.Honest)
    (hsent : (m, n, key) ∈
      derivedKeys (((spqrNet P sharedSecret).run (spqrMachine P) as).log s.other))
    (hnew : (m.epoch - 1, n) ∉
      acceptedPairs (((spqrNet P sharedSecret).run (spqrMachine P) as).log s))
    (hepoch : (((spqrNet P sharedSecret).run (spqrMachine P) as).node s).braid.state.epoch ≤
      m.epoch + 1)
    (hgap : ∀ c, (((spqrNet P sharedSecret).run (spqrMachine P) as).node s).recvChain
      (m.epoch - 1) = some c → n ≤ c.n ∨ c.Reaches n) :
    ∃ st', (((spqrNet P sharedSecret).run (spqrMachine P) as).node s).ratchetReceiveKey P m n =
      (.ok key, st') := by
  rcases ratchetReceiveKey_derived hP has hsent with
    ⟨hok, -⟩ | ⟨-, hacc | hold | ⟨c, hc, hlt, hfar⟩⟩
  · exact hok
  · exact absurd hacc hnew
  · exact absurd hepoch (not_le.mpr hold)
  · rcases hgap c hc with hle | hreach
    · exact absurd hle (not_le.mpr hlt)
    · exact absurd hreach hfar

/-- A pair too far ahead of its chain. -/
lemma ratchetReceiveKey_of_far (hP : P.Correct) (has : ∀ a ∈ as, a.Honest)
    (hsent : (m, n, key) ∈
      derivedKeys (((spqrNet P sharedSecret).run (spqrMachine P) as).log s.other))
    {c : SckaChain Key} (hc : (((spqrNet P sharedSecret).run (spqrMachine P) as).node s).recvChain
      (m.epoch - 1) = some c) (hahead : c.n < n) (hfar : ¬ c.Reaches n) :
    ((((spqrNet P sharedSecret).run (spqrMachine P) as).node s).ratchetReceiveKey P m n).1 =
      .error (.maxSkipExceeded (n - 1 - c.n) maxSkip) := by
  have h := spqrLocal_run P sharedSecret as s
  obtain ⟨⟨b', o, hrecv⟩, hreached⟩ := receives_derived hP has hsent
  generalize (spqrNet P sharedSecret).run (spqrMachine P) as = net at *
  obtain ⟨st₁, hcall, -, -, hkeep, h₁⟩ := h.chains.ratchetReceiveKey h.braid hrecv n
  rw [← hkeep _ hreached] at hc
  -- what is stored lies behind the chain, so a far number is not stored
  have hnone : st₁.skippedKey (m.epoch - 1) n = none := by
    cases hk : st₁.skippedKey (m.epoch - 1) n with
    | none => rfl
    | some k =>
        obtain ⟨-, c', hc', hle⟩ := h₁.receiving.skipped_le _ n k hk
        obtain rfl := Option.some.inj (hc.symm.trans hc')
        exact absurd hle (not_le.mpr hahead)
  rw [hcall, SpqrState.deriveKey_of_far hnone hc hahead hfar]

/-- The braid of a ratchet absorbs what the ratchet was handed before. -/
lemma absorbs_of_got (hP : P.Correct) (has : ∀ a ∈ as, a.Honest) {i : ℕ}
    (hi : i ∈ ((spqrNet P sharedSecret).run (spqrMachine P) as).got s)
    (hget : (((spqrNet P sharedSecret).run (spqrMachine P) as).sent s.other)[i]? = some (m, n)) :
    (((spqrNet P sharedSecret).run (spqrMachine P) as).node s).braid.state.Absorbs m := by
  have habs := absorbing_run hP (braidAuthSeed P.hash sharedSecret) _
    (forall_honest_map Prod.fst has)
  rw [← braidNetOf_run] at habs
  obtain ⟨m', hget', h⟩ := habs s i hi
  have hmap : ((braidNetOf ((spqrNet P sharedSecret).run (spqrMachine P) as)).sent s.other)[i]? =
      some m := List.getElem?_map.trans (congrArg (Option.map Prod.fst) hget)
  obtain rfl := Option.some.inj (hget'.symm.trans hmap)
  exact h

/-- A pair that was accepted is refused and leaves everything as it is. -/
lemma ratchetReceiveKey_of_accepted {st : SpqrState Key} {log : List (SpqrEvent Key)}
    (h : SpqrLocal P sharedSecret s st log) (habs : st.braid.state.Absorbs m)
    (hacc : (m.epoch - 1, n) ∈ acceptedPairs log) :
    ∃ err, st.ratchetReceiveKey P m n = (.error err, st) := by
  obtain ⟨st₁, hcall, -, hsame, -, h₁⟩ := h.chains.ratchetReceiveKey h.braid habs.receive n
  obtain rfl : st₁ = st := hsame rfl
  rcases h₁.derive (m.epoch - 1) n with ⟨st', -, hnew, -⟩ | ⟨⟨err, herr⟩, -, -⟩
  · exact absurd hacc hnew
  · exact ⟨err, hcall.trans herr⟩

/-- A delivery adds its pair to the accepted ones if a key was handed out for it. -/
lemma acceptedPairs_deliver {net : SpqrNet Key} {i : ℕ}
    (hget : (net.sent s.other)[i]? = some (m, n)) (rng : Rng) :
    acceptedPairs ((net.step (spqrMachine P) (.deliver s i rng)).log s) =
      acceptedPairs (net.log s) ++ match ((net.node s).ratchetReceiveKey P m n).1 with
        | .ok _ => [(m.epoch - 1, n)]
        | .error _ => [] := by
  rw [Net.step_deliver_some rng hget, Net.deliverAt_log, Net.recvAt_log_self, acceptedPairs_append]
  exact congrArg (acceptedPairs (net.log s) ++ ·) (acceptedPairs_recv P (net.node s) (m, n) rng)

/-- What is on its way, at the position of its key. -/
lemma sent_of_derivedKeys {i : ℕ}
    (hsent : (derivedKeys (((spqrNet P sharedSecret).run (spqrMachine P) as).log s))[i]? =
      some (m, n, key)) :
    (((spqrNet P sharedSecret).run (spqrMachine P) as).sent s)[i]? = some (m, n) := by
  rw [sent_eq_derivedKeys, List.getElem?_map, hsent]
  rfl

/-- A pair that has not been delivered has not been accepted. -/
lemma not_accepted_of_not_got (has : ∀ a ∈ as, a.Honest) {i : ℕ}
    (hsent : (derivedKeys (((spqrNet P sharedSecret).run (spqrMachine P) as).log s.other))[i]? =
      some (m, n, key))
    (hfirst : i ∉ ((spqrNet P sharedSecret).run (spqrMachine P) as).got s) :
    (m.epoch - 1, n) ∉ acceptedPairs (((spqrNet P sharedSecret).run (spqrMachine P) as).log s) := by
  intro hacc
  -- an accepted pair was delivered, and it was not this one
  obtain ⟨j, hj, m', n', hget, hpair⟩ := exists_got_of_accepted P sharedSecret has hacc
  rw [sent_eq_derivedKeys, List.getElem?_map, Option.map_eq_some_iff] at hget
  obtain ⟨d, hd, hmn⟩ := hget
  obtain ⟨rfl, rfl⟩ := Prod.mk.inj hmn
  have hij := (spqrLocal_run P sharedSecret as s.other).index_unique hsent hd hpair
  exact hfirst (hij ▸ hj)

/-- **SPQR key pairing.**  Take any run of two ratchets on a network that loses, delays, reorders
and duplicates, and the `i`-th pair one party has sent, with the key it derived for it.

* A pair that has not been delivered has not been accepted.
* A pair that has not been accepted, whether or not it was delivered before, is accepted with
  that key when it is delivered, provided the receiver's braid is at most one epoch past it and
  the receive chain has passed its number or reaches it.
* A delivery hands out no other key, and once one has been handed out, every delivery of the pair
  in every continuation of the run is refused and leaves the receiver as it is. -/
theorem spqr_key_pairing (hP : P.Correct) (sharedSecret : Key)
    (as : List (Action Rng (Message × ℕ))) (has : ∀ a ∈ as, a.Honest) (s : Side) (i : ℕ)
    {m : Message} {n : ℕ} {key : Key}
    (hsent : (derivedKeys (((spqrNet P sharedSecret).run (spqrMachine P) as).log s.other))[i]? =
      some (m, n, key)) :
    let net := (spqrNet P sharedSecret).run (spqrMachine P) as
    (i ∉ net.got s → (m.epoch - 1, n) ∉ acceptedPairs (net.log s)) ∧
    ((m.epoch - 1, n) ∉ acceptedPairs (net.log s) →
      (net.node s).braid.state.epoch ≤ m.epoch + 1 →
      (∀ c, (net.node s).recvChain (m.epoch - 1) = some c → n ≤ c.n ∨ c.Reaches n) →
      ∃ st', (net.node s).ratchetReceiveKey P m n = (.ok key, st')) ∧
    ∀ key' st', (net.node s).ratchetReceiveKey P m n = (.ok key', st') →
      key' = key ∧ (m.epoch - 1, n) ∉ acceptedPairs (net.log s) ∧
      ∀ (rng : Rng) (bs : List (Action Rng (Message × ℕ))), (∀ b ∈ bs, b.Honest) →
        let later := (spqrNet P sharedSecret).run (spqrMachine P) (as ++ .deliver s i rng :: bs)
        ∃ err, (later.node s).ratchetReceiveKey P m n = (.error err, later.node s) := by
  have hmem := List.mem_of_getElem? hsent
  refine ⟨not_accepted_of_not_got has hsent, ratchetReceiveKey_eq hP has hmem, ?_⟩
  intro key' st' hok
  obtain ⟨rfl, hnew⟩ : key' = key ∧ (m.epoch - 1, n) ∉
      acceptedPairs (((spqrNet P sharedSecret).run (spqrMachine P) as).log s) := by
    rcases ratchetReceiveKey_derived hP has hmem with ⟨⟨st'', hok'⟩, hnew⟩ | ⟨⟨err, st'', herr⟩, -⟩
    · exact ⟨Except.ok.inj (Prod.mk.inj (hok.symm.trans hok')).1, hnew⟩
    · cases (Prod.mk.inj (hok.symm.trans herr)).1
  refine ⟨rfl, hnew, ?_⟩
  intro rng bs hbs later
  have hall : ∀ a ∈ as ++ .deliver s i rng :: bs, a.Honest :=
    List.forall_mem_append.mpr ⟨has, List.forall_mem_cons.mpr ⟨trivial, hbs⟩⟩
  -- what the delivery leaves in the records, and what is still there at the end
  have hget := sent_of_derivedKeys hsent
  have hgrows := Net.grows_run (A := spqrMachine P) bs s
    (((spqrNet P sharedSecret).run (spqrMachine P) as).step (spqrMachine P) (.deliver s i rng))
  have hgrowsPeer := Net.grows_run (A := spqrMachine P) (.deliver s i rng :: bs) s.other
    ((spqrNet P sharedSecret).run (spqrMachine P) as)
  rw [← Net.run_cons, ← Net.run_append] at hgrows
  rw [← Net.run_append] at hgrowsPeer
  refine ratchetReceiveKey_of_accepted (spqrLocal_run P sharedSecret _ s)
    (absorbs_of_got hP hall (i := i) ?_ (hgrowsPeer.getElem? hget)) ?_
  · apply hgrows.got.subset
    rw [Net.step_deliver_some rng hget, Net.deliverAt_got_self]
    exact List.mem_append_right _ (List.mem_singleton_self i)
  · refine (hgrows.log.filterMap _).subset ?_
    change (m.epoch - 1, n) ∈ acceptedPairs _
    rw [acceptedPairs_deliver hget rng, hok]
    exact List.mem_append_right _ (List.mem_singleton_self _)

/-- Alice's first message has number 1. -/
lemma first_send (hP : P.Correct) (sharedSecret : Key) (rng : Rng) :
    ∃ m key st', (SpqrState.newSender P sharedSecret).ratchetSendKey P rng =
      (.ok (m, 1, key), st') ∧
      m.epoch = 1 := by
  obtain ⟨b', m, o, hsend, -⟩ := (joint_braidNet (tolerant_genuine hP)
    (braidAuthSeed P.hash sharedSecret)).send hP .alice rng
  have hbraid : (SpqrState.newSender P sharedSecret).braid.send P rng =
      (.ok ⟨m, b'.epoch - 1, o⟩, ⟨b'⟩) := BraidState.send_of_ok hsend
  have hshape := State.Sends.of_send hsend
  have hepoch : b'.epoch = 1 := hshape.epoch_eq.1
  have hnone : o = none := by
    rcases hshape.shape with ⟨hnone, -⟩ | ⟨x, auth, -, howns, -⟩
    · exact hnone
    · cases howns
  subst hnone
  rw [hepoch] at hbraid
  exact ⟨m, _, _, SpqrState.ratchetSendKey_of_chain hbraid
    (SpqrState.init_chains P sharedSecret .a2b).1, hshape.epoch_eq.2⟩

/-- A strictly increasing list that stays within its length counts from 1. -/
lemma eq_range'_of_pairwise {l : List ℕ} (hsorted : l.Pairwise (· < ·))
    (hmem : ∀ n ∈ l, 1 ≤ n ∧ n ≤ l.length) : l = List.range' 1 l.length := by
  have hsub : l.Subperm (List.range' 1 l.length) := by
    refine List.subperm_of_subset hsorted.nodup (fun n hn => List.mem_range'_1.mpr ?_)
    have := hmem n hn
    omega
  have hlt : (List.range' 1 l.length).Pairwise (· < ·) := List.pairwise_lt_range'
  exact (List.sublist_of_subperm_of_pairwise hsub hsorted hlt).eq_of_length
    List.length_range'.symm

/-- In its first epoch a party numbers its messages as they come. -/
lemma derivedKeys_numbered (P : Prims Key) (sharedSecret : Key)
    (as : List (Action Rng (Message × ℕ)))
    (hepoch : (((spqrNet P sharedSecret).run (spqrMachine P) as).node s).braid.state.epoch =
      initialEpoch) {i : ℕ} {d : Message × ℕ × Key}
    (hd : (derivedKeys (((spqrNet P sharedSecret).run (spqrMachine P) as).log s))[i]? = some d) :
    d.1.epoch - 1 = 0 ∧ d.2.1 = i + 1 := by
  have hsending := (spqrLocal_run P sharedSecret as s).chains.sending
  have hcounted := (counted_run P sharedSecret as s).sent
  generalize (spqrNet P sharedSecret).run (spqrMachine P) as = net at *
  rw [hepoch] at hsending
  have hzero : ∀ p ∈ sentKeys (net.log s), p.1.1 = 0 :=
    fun p hp => Nat.le_zero.mp (hsending.le p.1.1 p.1.2 p.2 hp).1
  have hrange := eq_range'_of_pairwise (l := (sentKeys (net.log s)).map (fun p => p.1.2)) ?_ ?_
  · refine ⟨?_, ?_⟩
    · refine hzero ((d.1.epoch - 1, d.2.1), d.2.2) ?_
      rw [sentKeys_eq_map]
      exact List.mem_map_of_mem (List.mem_of_getElem? hd)
    · have hget := congrArg (fun l : List ℕ => l[i]?) hrange
      have hi := (List.getElem?_eq_some_iff.mp hd).1
      rw [sentKeys_eq_map] at hget
      simp only [List.getElem?_map, hd, List.length_map, List.getElem?_range' hi] at hget
      have hnumber : d.2.1 = 1 + 1 * i := Option.some.inj hget
      omega
  · have hsorted := List.pairwise_map.mp hsending.sorted
    refine List.pairwise_map.mpr (hsorted.imp_of_mem ?_)
    rintro p q hp hq (hlt | ⟨-, hlt⟩)
    · rw [hzero p hp, hzero q hq] at hlt
      exact absurd hlt (Nat.lt_irrefl 0)
    · exact hlt
  · intro n hn
    obtain ⟨p, hp, rfl⟩ := List.mem_map.mp hn
    rw [List.length_map]
    exact ⟨(hsending.key_eq p.1.1 p.1.2 p.2 hp).1, hcounted p hp⟩

/-- Alice sends `k` messages and none arrives. -/
def unheard (rng : Rng) (k : ℕ) : List (Action Rng (Message × ℕ)) :=
  List.replicate k (.send .alice rng)

lemma unheard_honest (rng : Rng) (k : ℕ) : ∀ a ∈ unheard rng k, a.Honest := by
  intro a ha
  obtain rfl := List.eq_of_mem_replicate ha
  trivial

lemma unheard_run (hP : P.Correct) (sharedSecret : Key) (rng : Rng) (k : ℕ) :
    let net := (spqrNet P sharedSecret).run (spqrMachine P) (unheard rng k)
    (net.node .alice).braid.state.epoch = initialEpoch ∧
      ((derivedKeys (net.log .alice)).length = k ∧
        ∀ d ∈ derivedKeys (net.log .alice), d.1.epoch = initialEpoch) ∧
      net.node .bob = SpqrState.newReceiver P sharedSecret ∧ net.got .bob = [] ∧
      net.log .bob = [] := by
  induction k with
  | zero => exact ⟨rfl, ⟨rfl, fun d hd => absurd hd List.not_mem_nil⟩, rfl, rfl, rfl⟩
  | succ k ih =>
      obtain ⟨hepoch, ⟨hlength, hall⟩, hnode, hgot, hlog⟩ := ih
      intro net
      obtain ⟨m, n, key, st', hsend, hsame⟩ :=
        exists_ratchetSendKey hP sharedSecret (unheard rng k) (unheard_honest rng k) .alice rng
      have hm := (spqrLocal_run P sharedSecret (unheard rng k) .alice).epoch_of_ratchetSendKey hsend
      have hnet : net = ((spqrNet P sharedSecret).run (spqrMachine P) (unheard rng k)).step
          (spqrMachine P) (.send .alice rng) := by
        show (spqrNet P sharedSecret).run (spqrMachine P) (unheard rng (k + 1)) = _
        rw [unheard, List.replicate_succ', Net.run_append]
        rfl
      generalize (spqrNet P sharedSecret).run (spqrMachine P) (unheard rng k) = net₀ at *
      have hcall : (spqrMachine P).send (net₀.node .alice) rng = (st', some (m, n),
          ((braidMachine P).send (net₀.node .alice).braid rng).2.2.map SpqrEvent.braid ++
            [.sent m n key]) := by
        simp only [spqrMachine, hsend]
      have hmoves := Net.moves_send net₀ .alice hcall
      rw [← hnet] at hmoves
      have hderived : derivedKeys (net.log .alice) =
          derivedKeys (net₀.log .alice) ++ [(m, n, key)] := by
        rw [hmoves.log_self]
        simp [derivedKeys, SpqrEvent.derived?]
      refine ⟨?_, ⟨?_, ?_⟩, hmoves.node_other.trans hnode, hmoves.got_other.trans hgot,
        hmoves.log_other.trans hlog⟩
      · rw [hmoves.node_self, ← hsame, hepoch]
      · rw [hderived, List.length_append, hlength]
        rfl
      · rw [hderived]
        refine List.forall_mem_append.mpr ⟨hall, List.forall_mem_singleton.mpr ?_⟩
        exact hm.trans (hsame.symm.trans hepoch)

/-- Their numbers. -/
lemma exists_unheard (hP : P.Correct) (sharedSecret : Key) (rng : Rng) {k i : ℕ} (hi : i < k) :
    ∃ m key, (derivedKeys (((spqrNet P sharedSecret).run (spqrMachine P)
        (unheard rng k)).log .alice))[i]? = some (m, i + 1, key) ∧ m.epoch = initialEpoch := by
  obtain ⟨hepoch, ⟨hlength, hall⟩, -⟩ := unheard_run hP sharedSecret rng k
  obtain ⟨⟨m, n, key⟩, hd⟩ : ∃ d, (derivedKeys (((spqrNet P sharedSecret).run (spqrMachine P)
      (unheard rng k)).log .alice))[i]? = some d :=
    ⟨_, List.getElem?_eq_getElem (hlength.symm ▸ hi)⟩
  obtain ⟨-, rfl⟩ := derivedKeys_numbered P sharedSecret (unheard rng k) hepoch hd
  exact ⟨m, key, hd, hall _ (List.mem_of_getElem? hd)⟩

/-- Alice's first message is accepted, and refused when it comes again. -/
theorem spqr_key_pairing_first_message : ∃ m key,
    let net := (spqrNet idealPrims 0).run (spqrMachine idealPrims) (unheard zeroRng 1)
    let later := (spqrNet idealPrims 0).run (spqrMachine idealPrims)
      (unheard zeroRng 1 ++ [.deliver .bob 0 zeroRng])
    (derivedKeys (net.log .alice))[0]? = some (m, 1, key) ∧
      (∃ st', (net.node .bob).ratchetReceiveKey idealPrims m 1 = (.ok key, st')) ∧
      ∃ err, (later.node .bob).ratchetReceiveKey idealPrims m 1 =
        (.error err, later.node .bob) := by
  obtain ⟨m, key, hd, hepoch⟩ := exists_unheard idealPrims_correct 0 zeroRng Nat.one_pos
  obtain ⟨-, -, hnode, hgot, -⟩ := unheard_run idealPrims_correct 0 zeroRng 1
  obtain ⟨hnew, haccept, hrefuse⟩ := spqr_key_pairing idealPrims_correct 0 (unheard zeroRng 1)
    (unheard_honest zeroRng 1) .bob 0 hd
  obtain ⟨st', hok⟩ := haccept (hnew (by rw [hgot]; exact List.not_mem_nil))
    (by rw [hnode, hepoch]; exact Nat.le_succ 1)
    (fun c _ => c.passed_or_reaches (Nat.le_add_left _ _))
  exact ⟨m, key, hd, ⟨st', hok⟩,
    (hrefuse key st' hok).2.2 zeroRng [] (fun b hb => absurd hb List.not_mem_nil)⟩

/-- What one more delivery to `s` leaves: its peer as it was, and the pair among the accepted ones
if a key was handed out for it. -/
lemma run_concat_deliver {i : ℕ}
    (hd : (derivedKeys (((spqrNet P sharedSecret).run (spqrMachine P) as).log s.other))[i]? =
      some (m, n, key)) (rng : Rng) :
    let net := (spqrNet P sharedSecret).run (spqrMachine P) as
    let net' := (spqrNet P sharedSecret).run (spqrMachine P) (as ++ [.deliver s i rng])
    net'.node s.other = net.node s.other ∧ net'.log s.other = net.log s.other ∧
      acceptedPairs (net'.log s) = acceptedPairs (net.log s) ++
        match ((net.node s).ratchetReceiveKey P m n).1 with
        | .ok _ => [(m.epoch - 1, n)]
        | .error _ => [] := by
  intro net net'
  have hget : (net.sent s.other)[i]? = some (m, n) := sent_of_derivedKeys hd
  have hstep : net' = net.step (spqrMachine P) (.deliver s i rng) := Net.run_append _ _ _
  have hmoves := Net.moves_deliver (A := spqrMachine P) (r := rng) net s hget Prod.mk.eta.symm
  rw [hstep]
  exact ⟨hmoves.node_other, hmoves.log_other, acceptedPairs_deliver hget rng⟩

/-- In the sender's first epoch a pair that has not been accepted is taken as soon as the chain
reaches it. -/
lemma accepts_in_first_epoch (hP : P.Correct) (has : ∀ a ∈ as, a.Honest)
    (hown : (((spqrNet P sharedSecret).run (spqrMachine P) as).node s.other).braid.state.epoch =
      initialEpoch)
    (hsent : (m, n, key) ∈
      derivedKeys (((spqrNet P sharedSecret).run (spqrMachine P) as).log s.other))
    (hm : m.epoch = initialEpoch)
    (hnew : (0, n) ∉ acceptedPairs (((spqrNet P sharedSecret).run (spqrMachine P) as).log s))
    (hgap : ∀ c, (((spqrNet P sharedSecret).run (spqrMachine P) as).node s).recvChain 0 = some c →
      n ≤ c.n ∨ c.Reaches n) :
    ∃ st', (((spqrNet P sharedSecret).run (spqrMachine P) as).node s).ratchetReceiveKey P m n =
      (.ok key, st') := by
  have hzero : m.epoch - 1 = 0 := by rw [hm]; rfl
  refine ratchetReceiveKey_eq hP has hsent (hzero.symm ▸ hnew) ?_ (hzero.symm ▸ hgap)
  -- two braids in step are at most one epoch apart
  rw [hm, ← hown]
  exact (joint_braidNetOf hP sharedSecret has).epoch_le_succ s

/-- Bob has received nothing, and his chain does not reach a number above `maxSkip + 1`. -/
lemma refuses_far_first (hP : P.Correct) (has : ∀ a ∈ as, a.Honest)
    (hnode : ((spqrNet P sharedSecret).run (spqrMachine P) as).node .bob =
      SpqrState.newReceiver P sharedSecret)
    (hsent : (m, n, key) ∈
      derivedKeys (((spqrNet P sharedSecret).run (spqrMachine P) as).log .alice))
    (hm : m.epoch = initialEpoch) (hn : maxSkip + 1 < n) :
    ((((spqrNet P sharedSecret).run (spqrMachine P) as).node .bob).ratchetReceiveKey P m n).1 =
      .error (.maxSkipExceeded (n - 1) maxSkip) := by
  obtain ⟨c, hc, hunused⟩ : ∃ c, (((spqrNet P sharedSecret).run (spqrMachine P) as).node
      .bob).recvChain (m.epoch - 1) = some c ∧ c.n = 0 := by
    rw [hnode, hm]
    exact ⟨_, (SpqrState.init_chains P sharedSecret .b2a).2, rfl⟩
  have hgap : ¬ c.Reaches n := by
    rintro ⟨hle, -⟩
    omega
  rw [ratchetReceiveKey_of_far hP has hsent hc (by omega) hgap, hunused, Nat.sub_zero]

/-- **A pair that was refused can be accepted later.**  Alice sends `maxSkip + 2` messages, and the
last of them is the first to arrive: Bob refuses it, for a gap above the limit.  Then the first
message arrives and moves the chain on, and when the last one comes again, Bob hands out its
key. -/
theorem refused_pair_accepted_later : ∃ m key,
    let net := (spqrNet idealPrims 0).run (spqrMachine idealPrims) (unheard zeroRng (maxSkip + 2))
    let later := (spqrNet idealPrims 0).run (spqrMachine idealPrims)
      (unheard zeroRng (maxSkip + 2) ++ [.deliver .bob (maxSkip + 1) zeroRng] ++
        [.deliver .bob 0 zeroRng])
    (derivedKeys (net.log .alice))[maxSkip + 1]? = some (m, maxSkip + 2, key) ∧
      ((net.node .bob).ratchetReceiveKey idealPrims m (maxSkip + 2)).1 =
        .error (.maxSkipExceeded (maxSkip + 1) maxSkip) ∧
      ∃ st', (later.node .bob).ratchetReceiveKey idealPrims m (maxSkip + 2) = (.ok key, st') := by
  obtain ⟨m₀, key₀, hd₀, hepoch₀⟩ :=
    exists_unheard idealPrims_correct 0 zeroRng (show 0 < maxSkip + 2 by decide)
  obtain ⟨m, key, hd, hepoch⟩ :=
    exists_unheard idealPrims_correct 0 zeroRng (show maxSkip + 1 < maxSkip + 2 by decide)
  obtain ⟨hown, -, hnode, -, hlog⟩ := unheard_run idealPrims_correct 0 zeroRng (maxSkip + 2)
  have hhonest := unheard_honest zeroRng (maxSkip + 2)
  generalize unheard zeroRng (maxSkip + 2) = as at *
  have hfar := refuses_far_first idealPrims_correct hhonest hnode (List.mem_of_getElem? hd) hepoch
    (Nat.lt_succ_self _)
  rw [show Side.alice = Side.bob.other from rfl] at hd₀ hd hown
  refine ⟨m, key, hd, hfar, ?_⟩
  -- it is not accepted, and Alice is where she was
  obtain ⟨hnode₁, hlog₁, hacc₁⟩ := run_concat_deliver hd zeroRng
  have hhonest₁ : ∀ a ∈ as ++ [.deliver .bob (maxSkip + 1) zeroRng], a.Honest :=
    List.forall_mem_append.mpr ⟨hhonest, List.forall_mem_singleton.mpr trivial⟩
  rw [hfar, hlog] at hacc₁
  change _ = [] at hacc₁
  generalize as ++ [.deliver .bob (maxSkip + 1) zeroRng] = as₁ at *
  rw [← hlog₁] at hd hd₀
  rw [← hnode₁] at hown
  -- the first message is accepted
  obtain ⟨st₁, hok₁⟩ := accepts_in_first_epoch idealPrims_correct hhonest₁ hown
    (List.mem_of_getElem? hd₀) hepoch₀ (by rw [hacc₁]; exact List.not_mem_nil)
    (fun c _ => c.passed_or_reaches (Nat.le_add_left _ _))
  obtain ⟨hnode₂, hlog₂, hacc₂⟩ := run_concat_deliver hd₀ zeroRng
  have hhonest₂ : ∀ a ∈ as₁ ++ [.deliver .bob 0 zeroRng], a.Honest :=
    List.forall_mem_append.mpr ⟨hhonest₁, List.forall_mem_singleton.mpr trivial⟩
  have htaken : acceptedPairs (((spqrNet idealPrims 0).run (spqrMachine idealPrims)
      (as₁ ++ [.deliver .bob 0 zeroRng])).log .bob) = [(0, 1)] := by
    rw [hacc₂, hacc₁, hok₁, hepoch₀]
    rfl
  generalize as₁ ++ [.deliver .bob 0 zeroRng] = as₂ at *
  rw [← hlog₂] at hd
  rw [← hnode₂] at hown
  -- the chain has moved, so that it reaches the last one
  refine accepts_in_first_epoch idealPrims_correct hhonest₂ hown (List.mem_of_getElem? hd) hepoch
    (by rw [htaken]; decide) ?_
  intro c hc
  have hone : 1 ≤ c.n := by
    refine ((spqrLocal_run idealPrims 0 as₂ .bob).chains.receiving.spent 0 1 ?_).2.2 c hc
    rw [htaken]
    exact List.mem_singleton_self _
  rcases Nat.lt_or_ge c.n (maxSkip + 2) with hlt | hge
  · refine .inr ⟨?_, ?_⟩
    · omega
    · have hskip : maxSkip = 2000 := rfl
      omega
  · exact .inl hge

end Pairing

end Hushwire
