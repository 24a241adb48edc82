import Hushwire.Braid.StateMachine
import Hushwire.Library.KeyChain

/-!
# The Sparse Post-Quantum Ratchet

`src/protocol/ratchet/spqr.rs`: a braid whose epoch secrets reseed a pair of counter-bound
chains, and a map of the keys that were skipped.  The first half of the module is the code;
a method that takes `&mut self` and can fail returns its result together with the state it
leaves behind, which on failure need not be the state it started from.

The second half says what each method does in terms of three views of the state: the receive
chain and the send chain of an epoch, and the skipped key of an epoch and a number.
-/

namespace Hushwire

variable {Key : Type}

/-- `MAX_SKIP`. -/
def maxSkip : ℕ := 2000

/-- `Direction`. -/
inductive Direction
  | a2b
  | b2a
  deriving DecidableEq, Repr

/-- One SPQR chain. -/
structure SckaChain (Key : Type) where
  ck : Key
  n : ℕ

namespace SckaChain

variable (H : Hash Key)

/-- `SckaChain::new`. -/
def new (ck : Key) : SckaChain Key := ⟨ck, 0⟩

/-- `SckaChain::advance`: the new counter and this step's message key. -/
def advance (chain : SckaChain Key) : (ℕ × Key) × SckaChain Key :=
  let n := chain.n + 1
  let out := H.kdfSckaCk chain.ck n
  ((n, out.messageKey), ⟨out.chainKey, n⟩)

/-- `while chain.n < until { skipped.push(chain.advance()) }`, for the steps that are left. -/
def skip : ℕ → SckaChain Key → List (ℕ × Key) → SckaChain Key × List (ℕ × Key)
  | 0, chain, skipped => (chain, skipped)
  | k + 1, chain, skipped =>
      let out := chain.advance H
      skip k out.2 (skipped ++ [out.1])

end SckaChain

/-- The chains of one epoch. -/
structure EpochChains (Key : Type) where
  send : Option (SckaChain Key)
  recv : Option (SckaChain Key)

/-- `braid_auth_seed`. -/
def braidAuthSeed (H : Hash Key) (sharedSecret : Key) : Key :=
  H.hkdf (.inl sharedSecret) none (ascii "HushwireBraid:auth_seed") 32 0

/-- The state of the ratchet. -/
structure SpqrState (Key : Type) where
  braid : BraidState Key
  rk : Key
  epoch : ℕ
  kdfchains : Map ℕ (EpochChains Key)
  mkskipped : Map ℕ (Map ℕ Key)
  direction : Direction

namespace SpqrState

variable (P : Prims Key)

/-- `SpqrState::assign`: this party's send and receive chain keys. -/
def assign (direction : Direction) (ck0 ck1 : Key) : Key × Key :=
  match direction with
  | .a2b => (ck0, ck1)
  | .b2a => (ck1, ck0)

/-- `SpqrState::init`. -/
def init (sharedSecret : Key) (direction : Direction) : SpqrState Key :=
  let sk := braidAuthSeed P.hash sharedSecret
  let braid := match direction with
    | .a2b => BraidState.initSender P sk
    | .b2a => BraidState.initReceiver P sk
  let chains := P.hash.kdfSckaInit sk
  let cks := assign direction chains.chainKey0 chains.chainKey1
  { braid
    rk := chains.rootKey
    epoch := 0
    kdfchains := Finmap.insert 0 ⟨some (.new cks.1), some (.new cks.2)⟩ ∅
    mkskipped := ∅
    direction }

/-- `SpqrState::new_sender`. -/
def newSender (sharedSecret : Key) : SpqrState Key := init P sharedSecret .a2b

/-- `SpqrState::new_receiver`. -/
def newReceiver (sharedSecret : Key) : SpqrState Key := init P sharedSecret .b2a

/-- `SpqrState::add_epoch`. -/
def addEpoch (H : Hash Key) (keyEpoch : ℕ) (epochSecret : Key) (s : SpqrState Key) :
    Result Unit × SpqrState Key :=
  if s.epoch + 1 ≠ keyEpoch then
    (.error (.braidKem ("non-consecutive SPQR epoch: have " ++ toString s.epoch ++ ", got " ++
      toString keyEpoch)), s)
  else
    let chains := H.kdfSckaRk s.rk epochSecret
    let cks := assign s.direction chains.chainKey0 chains.chainKey1
    (.ok (), { s with
      rk := chains.rootKey
      kdfchains := Finmap.insert keyEpoch ⟨some (.new cks.1), some (.new cks.2)⟩ s.kdfchains
      epoch := keyEpoch })

/-- `if let Some(es) = output_key { self.add_epoch(..)? }`. -/
def incorporate (H : Hash Key) (outputKey : Option (EpochSecret Key)) (s : SpqrState Key) :
    Result Unit × SpqrState Key :=
  match outputKey with
  | none => (.ok (), s)
  | some es => s.addEpoch H es.epoch es.secret

/-- `SpqrState::clear_old_epochs`. -/
def clearOldEpochs (sendingEpoch : ℕ) (s : SpqrState Key) : SpqrState Key :=
  if 2 ≤ sendingEpoch then
    { s with
      kdfchains := s.kdfchains.erase (sendingEpoch - 2)
      mkskipped := s.mkskipped.erase (sendingEpoch - 2) }
  else s

/-- `if let Some(c) = self.kdfchains.get_mut(&epoch) { .. }`. -/
def modifyChains (epoch : ℕ) (f : EpochChains Key → EpochChains Key) (s : SpqrState Key) :
    SpqrState Key :=
  match s.kdfchains.lookup epoch with
  | some c => { s with kdfchains := Finmap.insert epoch (f c) s.kdfchains }
  | none => s

/-- `kdfchains[sending_epoch - 1].send = None`. -/
def dropSend (sendingEpoch : ℕ) (s : SpqrState Key) : SpqrState Key :=
  if 1 ≤ sendingEpoch then s.modifyChains (sendingEpoch - 1) (fun c => { c with send := none })
  else s

/-- The send chain of an epoch. -/
def sendChain (s : SpqrState Key) (epoch : ℕ) : Option (SckaChain Key) :=
  (s.kdfchains.lookup epoch).bind EpochChains.send

/-- The receive chain of an epoch. -/
def recvChain (s : SpqrState Key) (epoch : ℕ) : Option (SckaChain Key) :=
  (s.kdfchains.lookup epoch).bind EpochChains.recv

/-- Write back a send chain that was borrowed. -/
def setSend (epoch : ℕ) (chain : SckaChain Key) (s : SpqrState Key) : SpqrState Key :=
  s.modifyChains epoch (fun c => { c with send := some chain })

/-- Write back a receive chain that was borrowed. -/
def setRecv (epoch : ℕ) (chain : SckaChain Key) (s : SpqrState Key) : SpqrState Key :=
  s.modifyChains epoch (fun c => { c with recv := some chain })

/-- `SpqrState::ratchet_send_key`: the braid message, its PQ counter and its PQ key. -/
def ratchetSendKey (rng : Rng) (s : SpqrState Key) :
    Result (Message × ℕ × Key) × SpqrState Key :=
  match s.braid.send P rng with
  | (.error e, braid) => (.error e, { s with braid })
  | (.ok out, braid) =>
      match { s with braid }.incorporate P.hash out.outputKey with
      | (.error e, s) => (.error e, s)
      | (.ok _, s) =>
          let s := if out.outputKey.isSome then s.clearOldEpochs out.sendingEpoch else s
          let s := s.dropSend out.sendingEpoch
          match s.sendChain out.sendingEpoch with
          | none =>
              (.error (.braidKem ("no SPQR send chain for epoch " ++ toString out.sendingEpoch)), s)
          | some chain =>
              let adv := chain.advance P.hash
              (.ok (out.msg, adv.1.1, adv.1.2), s.setSend out.sendingEpoch adv.2)

/-- `SpqrState::try_skipped`. -/
def trySkipped (epoch n : ℕ) (s : SpqrState Key) : Option Key × SpqrState Key :=
  match s.mkskipped.lookup epoch with
  | none => (none, s)
  | some inner =>
      match inner.lookup n with
      | none => (none, s)
      | some pqMk =>
          let inner := inner.erase n
          (some pqMk, { s with
            mkskipped := if Map.len inner = 0 then s.mkskipped.erase epoch
              else Finmap.insert epoch inner s.mkskipped })

/-- `SpqrState::skip_message_keys`. -/
def skipMessageKeys (H : Hash Key) (epoch upTo : ℕ) (s : SpqrState Key) :
    Result Unit × SpqrState Key :=
  match s.recvChain epoch with
  | none => (.ok (), s)
  | some chain =>
      if u32 (chain.n + maxSkip) < upTo then
        (.error (.maxSkipExceeded (upTo - chain.n) maxSkip), s)
      else
        let out := chain.skip H (upTo - chain.n) []
        let s := s.setRecv epoch out.1
        if out.2.isEmpty then (.ok (), s)
        else
          let inner := out.2.foldl (fun inner p => Finmap.insert p.1 p.2 inner)
            ((s.mkskipped.lookup epoch).getD ∅)
          (.ok (), { s with mkskipped := Finmap.insert epoch inner s.mkskipped })

/-- The part of `ratchet_receive_key` after the braid: the key of message `pqN` of an epoch. -/
def deriveKey (H : Hash Key) (epoch pqN : ℕ) (s : SpqrState Key) : Result Key × SpqrState Key :=
  match s.trySkipped epoch pqN with
  | (some pqMk, s) => (.ok pqMk, s)
  | (none, s) =>
      -- the chain must not already be at or past this message
      let cur := (s.recvChain epoch).map SckaChain.n
      if cur.any (fun cur => pqN ≤ cur) then
        (.error (.braidKem ("SPQR replay or duplicate: epoch " ++ toString epoch ++ " message " ++
          toString pqN ++ " <= current " ++ toString (cur.getD 0))), s)
      else
        match s.skipMessageKeys H epoch (pqN - 1) with
        | (.error e, s) => (.error e, s)
        | (.ok _, s) =>
            match s.recvChain epoch with
            | none => (.error (.braidKem ("no SPQR recv chain for epoch " ++ toString epoch)), s)
            | some chain =>
                let adv := chain.advance H
                let s := s.setRecv epoch adv.2
                if adv.1.1 ≠ pqN then
                  (.error (.braidKem ("SPQR counter mismatch: advanced to " ++ toString adv.1.1 ++
                    ", expected " ++ toString pqN)), s)
                else (.ok adv.1.2, s)

/-- `SpqrState::ratchet_receive_key`. -/
def ratchetReceiveKey (msg : Message) (pqN : ℕ) (s : SpqrState Key) :
    Result Key × SpqrState Key :=
  match s.braid.receive P msg with
  | (.error e, braid) => (.error e, { s with braid })
  | (.ok out, braid) =>
      match { s with braid }.incorporate P.hash out.outputKey with
      | (.error e, s) => (.error e, s)
      | (.ok _, s) => s.deriveKey P.hash out.receivingEpoch pqN

end SpqrState

/-! ## Chains by position -/

/-- One SPQR step as a step of a key chain. -/
def sckaStep (H : Hash Key) (n : ℕ) (ck : Key) : Key × Key :=
  ((H.kdfSckaCk ck (n + 1)).chainKey, (H.kdfSckaCk ck (n + 1)).messageKey)

/-- The key of message `n` of the chain that starts from `base`; the first message is 1. -/
def sckaKey (H : Hash Key) (base : Key) (n : ℕ) : Key :=
  KeyChain.messageKey (sckaStep H) base (n - 1)

/-- The chain from `base` after `n` messages. -/
def SckaChain.at (H : Hash Key) (base : Key) (n : ℕ) : SckaChain Key :=
  ⟨KeyChain.chainKey (sckaStep H) base n, n⟩

namespace SckaChain

variable {H : Hash Key} {base : Key}

@[simp] lemma at_n (n : ℕ) : (SckaChain.at H base n).n = n := rfl

lemma advance_at (n : ℕ) :
    (SckaChain.at H base n).advance H = ((n + 1, sckaKey H base (n + 1)), .at H base (n + 1)) := rfl

lemma skip_at (k : ℕ) : ∀ n skipped, skip H k (SckaChain.at H base n) skipped =
    (.at H base (n + k), skipped ++ (List.range' (n + 1) k).map
      (fun i => (i, sckaKey H base i))) := by
  induction k with
  | zero => intro n skipped; simp [skip]
  | succ k ih =>
      intro n skipped
      simp only [skip, advance_at, ih (n + 1), List.range'_succ, List.map_cons, List.append_assoc,
        List.singleton_append]
      rw [Nat.add_right_comm, Nat.add_assoc]

/-- Message `n` is within reach of the chain: the gap is at most `maxSkip`, and the sum that it is
compared with does not overflow. -/
structure Reaches (chain : SckaChain Key) (n : ℕ) : Prop where
  gap : n - 1 ≤ chain.n + maxSkip
  fits : chain.n + maxSkip < 2 ^ 32

/-- For a message ahead of the chain, that is the test of `skip_message_keys`. -/
lemma reaches_iff {chain : SckaChain Key} {n : ℕ} (hahead : chain.n < n) :
    chain.Reaches n ↔ n - 1 ≤ u32 (chain.n + maxSkip) := by
  have hsmall : maxSkip < 2 ^ 32 := by decide
  constructor
  · rintro ⟨hgap, hfits⟩
    rw [u32_of_lt hfits]
    exact hgap
  · intro hle
    unfold u32 at hle
    exact ⟨by omega, by omega⟩

/-- A chain that has not passed one of the first numbers reaches it. -/
lemma passed_or_reaches (chain : SckaChain Key) {n : ℕ} (hn : n ≤ maxSkip + 1) :
    n ≤ chain.n ∨ chain.Reaches n := by
  have hsmall : maxSkip = 2000 := rfl
  rcases Nat.lt_or_ge chain.n n with hlt | hge
  · exact .inr ⟨by omega, by omega⟩
  · exact .inl hge

end SckaChain

/-! ## What the methods do to the views -/

namespace SpqrState

variable {H : Hash Key} {s s' : SpqrState Key} {e e' n n' : ℕ}

/-- A new ratchet has the two chains of epoch 0, both unused. -/
lemma init_chains (P : Prims Key) (sharedSecret : Key) (direction : Direction) :
    let cks := P.hash.kdfSckaInit (braidAuthSeed P.hash sharedSecret)
    (init P sharedSecret direction).sendChain 0 =
        some (.at P.hash (assign direction cks.chainKey0 cks.chainKey1).1 0) ∧
      (init P sharedSecret direction).recvChain 0 =
        some (.at P.hash (assign direction cks.chainKey0 cks.chainKey1).2 0) := by
  intro cks
  have hlookup : (init P sharedSecret direction).kdfchains.lookup 0 =
      some ⟨some (.new (assign direction cks.chainKey0 cks.chainKey1).1),
        some (.new (assign direction cks.chainKey0 cks.chainKey1).2)⟩ := Finmap.lookup_insert _
  rw [sendChain, recvChain, hlookup]
  exact ⟨rfl, rfl⟩

/-- A send on epoch 0 takes the next key of its chain. -/
lemma ratchetSendKey_of_chain {P : Prims Key} {rng : Rng} {m : Message} {st : State Key}
    {chain : SckaChain Key} (hbraid : s.braid.send P rng = (.ok ⟨m, 0, none⟩, ⟨st⟩))
    (hchain : s.sendChain 0 = some chain) :
    s.ratchetSendKey P rng = (.ok (m, chain.n + 1, (chain.advance P.hash).1.2),
      { s with braid := ⟨st⟩ }.setSend 0 (chain.advance P.hash).2) := by
  have hchain' : { s with braid := ⟨st⟩ }.sendChain 0 = some chain := hchain
  have hdrop : { s with braid := ⟨st⟩ }.dropSend 0 = { s with braid := ⟨st⟩ } := rfl
  simp only [ratchetSendKey, hbraid, incorporate, Option.isSome_none, Bool.false_eq_true, if_false,
    hdrop, hchain']
  rfl

/-- The skipped key of message `n` of an epoch. -/
def skippedKey (s : SpqrState Key) (epoch n : ℕ) : Option Key :=
  (s.mkskipped.lookup epoch).bind (fun inner => inner.lookup n)

lemma lookup_modifyChains (f : EpochChains Key → EpochChains Key) (s : SpqrState Key) (e e' : ℕ) :
    (s.modifyChains e f).kdfchains.lookup e' =
      if e' = e then (s.kdfchains.lookup e).map f else s.kdfchains.lookup e' := by
  unfold modifyChains
  split
  · rename_i c hc
    split
    · rename_i he
      rw [he, Finmap.lookup_insert, hc]
      rfl
    · rename_i he
      exact Finmap.lookup_insert_of_ne _ he
  · rename_i hc
    split
    · rename_i he
      rw [he, hc]
      rfl
    · rfl

lemma mem_kdfchains_iff : e ∈ s.kdfchains ↔ (s.kdfchains.lookup e).isSome := by
  rw [Finmap.lookup_isSome]

@[simp] lemma mem_modifyChains (f : EpochChains Key → EpochChains Key) :
    e' ∈ (s.modifyChains e f).kdfchains ↔ e' ∈ s.kdfchains := by
  rw [mem_kdfchains_iff, mem_kdfchains_iff, lookup_modifyChains]
  split
  · rename_i he
    rw [he, Option.isSome_map]
  · rfl

/-- Everything but the two maps. -/
structure SameCore (s s' : SpqrState Key) : Prop where
  braid : s'.braid = s.braid
  rk : s'.rk = s.rk
  epoch : s'.epoch = s.epoch
  direction : s'.direction = s.direction

lemma SameCore.refl (s : SpqrState Key) : SameCore s s := ⟨rfl, rfl, rfl, rfl⟩

lemma SameCore.trans {t : SpqrState Key} (h : SameCore s s') (h' : SameCore s' t) : SameCore s t :=
  ⟨h'.braid.trans h.braid, h'.rk.trans h.rk, h'.epoch.trans h.epoch,
    h'.direction.trans h.direction⟩

lemma sameCore_modifyChains (f : EpochChains Key → EpochChains Key) :
    SameCore s (s.modifyChains e f) := by
  unfold modifyChains
  split
  · exact ⟨rfl, rfl, rfl, rfl⟩
  · exact SameCore.refl s

@[simp] lemma modifyChains_mkskipped (f : EpochChains Key → EpochChains Key) :
    (s.modifyChains e f).mkskipped = s.mkskipped := by
  unfold modifyChains
  split <;> rfl

/-- Changing the send chain of an epoch leaves all receive chains alone. -/
lemma recvChain_modifyChains {f : EpochChains Key → EpochChains Key}
    (hf : ∀ c, (f c).recv = c.recv) :
    (s.modifyChains e f).recvChain e' = s.recvChain e' := by
  rw [recvChain, recvChain, lookup_modifyChains]
  split
  · rename_i he
    rw [he]
    cases s.kdfchains.lookup e with
    | none => rfl
    | some c => exact hf c
  · rfl

/-- Changing the receive chain of an epoch leaves all send chains alone. -/
lemma sendChain_modifyChains {f : EpochChains Key → EpochChains Key}
    (hf : ∀ c, (f c).send = c.send) :
    (s.modifyChains e f).sendChain e' = s.sendChain e' := by
  rw [sendChain, sendChain, lookup_modifyChains]
  split
  · rename_i he
    rw [he]
    cases s.kdfchains.lookup e with
    | none => rfl
    | some c => exact hf c
  · rfl

lemma recvChain_setRecv {c : SckaChain Key} (h : s.recvChain e = some c) (c' : SckaChain Key) :
    (s.setRecv e c').recvChain e' = if e' = e then some c' else s.recvChain e' := by
  obtain ⟨cs, hcs, -⟩ := Option.bind_eq_some_iff.mp h
  rw [recvChain, setRecv, lookup_modifyChains, hcs]
  split
  · rfl
  · rfl

lemma sendChain_setRecv (c' : SckaChain Key) : (s.setRecv e c').sendChain e' = s.sendChain e' :=
  sendChain_modifyChains (fun _ => rfl)

lemma sendChain_setSend {c : SckaChain Key} (h : s.sendChain e = some c) (c' : SckaChain Key) :
    (s.setSend e c').sendChain e' = if e' = e then some c' else s.sendChain e' := by
  obtain ⟨cs, hcs, -⟩ := Option.bind_eq_some_iff.mp h
  rw [sendChain, setSend, lookup_modifyChains, hcs]
  split
  · rfl
  · rfl

lemma recvChain_setSend (c' : SckaChain Key) : (s.setSend e c').recvChain e' = s.recvChain e' :=
  recvChain_modifyChains (fun _ => rfl)

/-- `dropSend` as a change of one epoch's chains, which may be no change at all. -/
lemma dropSend_spec (e : ℕ) : SameCore s (s.dropSend e) ∧ (s.dropSend e).mkskipped = s.mkskipped ∧
    (∀ e', e' ∈ (s.dropSend e).kdfchains ↔ e' ∈ s.kdfchains) ∧
    (∀ e', (s.dropSend e).recvChain e' = s.recvChain e') ∧
    ∀ e', (s.dropSend e).sendChain e' = if e' + 1 = e then none else s.sendChain e' := by
  unfold dropSend
  by_cases he : 1 ≤ e
  · rw [if_pos he]
    refine ⟨sameCore_modifyChains _, modifyChains_mkskipped _, fun e' => mem_modifyChains _,
      fun e' => recvChain_modifyChains (fun _ => rfl), ?_⟩
    intro e'
    rw [sendChain, lookup_modifyChains]
    by_cases hee : e' = e - 1
    · rw [if_pos hee, if_pos (by omega)]
      cases s.kdfchains.lookup (e - 1) <;> rfl
    · rw [if_neg hee, if_neg (by omega)]
      rfl
  · rw [if_neg he]
    refine ⟨.refl s, rfl, fun _ => Iff.rfl, fun _ => rfl, ?_⟩
    intro e'
    rw [if_neg (by omega)]

/-- Taking out a skipped key. -/
lemma trySkipped_eq_none (h : s.skippedKey e n = none) : s.trySkipped e n = (none, s) := by
  unfold trySkipped
  unfold skippedKey at h
  cases hinner : s.mkskipped.lookup e with
  | none => rfl
  | some inner =>
      rw [hinner] at h
      have hn : inner.lookup n = none := h
      simp only [hn]

lemma trySkipped_eq_some {k : Key} (h : s.skippedKey e n = some k) :
    ∃ s', s.trySkipped e n = (some k, s') ∧ SameCore s s' ∧ s'.kdfchains = s.kdfchains ∧
      (∀ e' ∈ s'.mkskipped, e' ∈ s.mkskipped) ∧
      ∀ e' n', s'.skippedKey e' n' = if e' = e ∧ n' = n then none else s.skippedKey e' n' := by
  obtain ⟨inner, hinner, hk⟩ := Option.bind_eq_some_iff.mp h
  refine ⟨{ s with mkskipped := if Map.len (inner.erase n) = 0 then s.mkskipped.erase e
    else Finmap.insert e (inner.erase n) s.mkskipped }, ?_, ⟨rfl, rfl, rfl, rfl⟩, rfl, ?_, ?_⟩
  · simp only [trySkipped, hinner, hk]
  · have hmem : e ∈ s.mkskipped := Finmap.mem_iff.mpr ⟨inner, hinner⟩
    intro e' he'
    simp only at he'
    split at he'
    · exact (Finmap.mem_erase.mp he').2
    · rcases Finmap.mem_insert.mp he' with rfl | he'
      · exact hmem
      · exact he'
  · intro e' n'
    -- either way, what is left under the epoch is `inner` without `n`
    have hself : ((if Map.len (inner.erase n) = 0 then s.mkskipped.erase e
        else Finmap.insert e (inner.erase n) s.mkskipped).lookup e).bind
          (fun inner => inner.lookup n') = (inner.erase n).lookup n' := by
      by_cases hempty : Map.len (inner.erase n) = 0
      · rw [if_pos hempty, Finmap.lookup_erase, Map.lookup_of_len_eq_zero hempty]
        rfl
      · rw [if_neg hempty, Finmap.lookup_insert]
        rfl
    by_cases hee : e' = e
    · subst hee
      by_cases hnn : n' = n
      · subst hnn
        have hboth : e' = e' ∧ n' = n' := ⟨rfl, rfl⟩
        rw [if_pos hboth]
        exact hself.trans (Finmap.lookup_erase n' inner)
      · have hboth : ¬ (e' = e' ∧ n' = n) := fun hboth => hnn hboth.2
        have hkept : s.skippedKey e' n' = inner.lookup n' := by rw [skippedKey, hinner]; rfl
        rw [if_neg hboth, hkept]
        exact hself.trans (Finmap.lookup_erase_ne hnn)
    · have hboth : ¬ (e' = e ∧ n' = n) := fun hboth => hee hboth.1
      rw [if_neg hboth]
      have hother : (if Map.len (inner.erase n) = 0 then s.mkskipped.erase e
          else Finmap.insert e (inner.erase n) s.mkskipped).lookup e' = s.mkskipped.lookup e' := by
        split
        · exact Finmap.lookup_erase_ne hee
        · exact Finmap.lookup_insert_of_ne _ hee
      exact congrArg (fun o => o.bind (fun inner => inner.lookup n')) hother

/-- Storing the keys of a list of messages. -/
lemma lookup_foldl_insert (g : ℕ → Key) (k : ℕ) : ∀ a (inner : Map ℕ Key) n,
    (((List.range' a k).map (fun i => (i, g i))).foldl
      (fun inner p => Finmap.insert p.1 p.2 inner) inner).lookup n =
        if a ≤ n ∧ n < a + k then some (g n) else inner.lookup n := by
  induction k with
  | zero =>
      intro a inner n
      rw [if_neg (by omega)]
      rfl
  | succ k ih =>
      intro a inner n
      rw [List.range'_succ, List.map_cons, List.foldl_cons, ih]
      by_cases hn : n = a
      · subst hn
        rw [if_neg (by omega), if_pos (by omega), Finmap.lookup_insert]
      · by_cases hrange : a + 1 ≤ n ∧ n < a + 1 + k
        · rw [if_pos hrange, if_pos (by omega)]
        · rw [if_neg hrange, if_neg (by omega), Finmap.lookup_insert_of_ne _ hn]

/-- Skipping ahead on a chain that is at position `j`. -/
lemma skipMessageKeys_spec {base : Key} {j upTo : ℕ}
    (hchain : s.recvChain e = some (.at H base j)) (hle : j ≤ upTo)
    (hgap : upTo ≤ u32 (j + maxSkip)) :
    ∃ s', s.skipMessageKeys H e upTo = (.ok (), s') ∧ SameCore s s' ∧
      (∀ e', e' ∈ s'.kdfchains ↔ e' ∈ s.kdfchains) ∧
      (∀ e', s'.sendChain e' = s.sendChain e') ∧
      (∀ e', s'.recvChain e' = if e' = e then some (.at H base upTo) else s.recvChain e') ∧
      (∀ e' ∈ s'.mkskipped, e' ∈ s.mkskipped ∨ e' = e) ∧
      ∀ e' n', s'.skippedKey e' n' =
        if e' = e ∧ j < n' ∧ n' ≤ upTo then some (sckaKey H base n') else s.skippedKey e' n' := by
  have hskip : (SckaChain.at H base j).skip H (upTo - j) [] = (.at H base upTo,
      (List.range' (j + 1) (upTo - j)).map (fun i => (i, sckaKey H base i))) := by
    rw [SckaChain.skip_at, Nat.add_sub_of_le hle, List.nil_append]
  have hrecv : ∀ e', (s.setRecv e (.at H base upTo)).recvChain e' =
      if e' = e then some (.at H base upTo) else s.recvChain e' :=
    fun e' => recvChain_setRecv hchain _
  simp only [skipMessageKeys, hchain, SckaChain.at_n, hskip]
  rw [if_neg (not_lt.mpr hgap)]
  split
  · -- nothing was skipped
    rename_i hnil
    have hj : j = upTo := by
      rw [List.isEmpty_iff, List.map_eq_nil_iff, List.range'_eq_nil_iff] at hnil
      omega
    refine ⟨_, rfl, sameCore_modifyChains _, fun e' => mem_modifyChains _,
      fun e' => sendChain_setRecv _, hrecv, ?_, ?_⟩
    · intro e' he'
      exact .inl (by simpa [setRecv] using he')
    · intro e' n'
      rw [if_neg (by omega)]
      simp [skippedKey, setRecv]
  · refine ⟨_, rfl, ?_, fun e' => mem_modifyChains _, fun e' => sendChain_setRecv _, hrecv, ?_, ?_⟩
    · obtain ⟨hb, hr, he, hd⟩ := sameCore_modifyChains (s := s) (e := e)
        (fun c => { c with recv := some (SckaChain.at H base upTo) })
      exact ⟨hb, hr, he, hd⟩
    · intro e' he'
      rcases Finmap.mem_insert.mp he' with rfl | he'
      · exact .inr rfl
      · exact .inl (by simpa [setRecv] using he')
    · intro e' n'
      simp only [skippedKey, setRecv, modifyChains_mkskipped]
      by_cases hee : e' = e
      · subst hee
        rw [Finmap.lookup_insert, Option.bind_some, lookup_foldl_insert]
        by_cases hn' : j < n' ∧ n' ≤ upTo
        · rw [if_pos (by omega), if_pos ⟨rfl, hn'⟩]
        · rw [if_neg (by omega), if_neg (fun hboth => hn' hboth.2)]
          cases s.mkskipped.lookup e' <;> rfl
      · rw [Finmap.lookup_insert_of_ne _ hee, if_neg (fun hboth => hee hboth.1)]

/-- A message too far ahead of its chain. -/
lemma deriveKey_of_far {c : SckaChain Key} (hnone : s.skippedKey e n = none)
    (hchain : s.recvChain e = some c) (hahead : c.n < n) (hfar : ¬ c.Reaches n) :
    s.deriveKey H e n = (.error (.maxSkipExceeded (n - 1 - c.n) maxSkip), s) := by
  have hskip : s.skipMessageKeys H e (n - 1) =
      (.error (.maxSkipExceeded (n - 1 - c.n) maxSkip), s) := by
    rw [SckaChain.reaches_iff hahead, not_le] at hfar
    simp only [skipMessageKeys, hchain, if_pos hfar]
  simp only [deriveKey, trySkipped_eq_none hnone, hchain, Option.map_some, Option.any_some,
    decide_eq_true_eq, if_neg (not_le.mpr hahead), hskip]

/-- The ways `deriveKey` can end, when `base` is what the epoch's receive chain started from:
it takes a skipped key, it refuses and leaves the state as it was, or it moves the chain up to
the message and stores the keys of the messages in between. -/
inductive Derives (H : Hash Key) (base : Key) (e n : ℕ) (s : SpqrState Key) :
    Result Key → SpqrState Key → Prop
  | stored {k s'} (hk : s.skippedKey e n = some k) (hcore : SameCore s s')
      (hchains : s'.kdfchains = s.kdfchains) (hmem : ∀ e' ∈ s'.mkskipped, e' ∈ s.mkskipped)
      (hskipped : ∀ e' n', s'.skippedKey e' n' =
        if e' = e ∧ n' = n then none else s.skippedKey e' n') :
      Derives H base e n s (.ok k) s'
  | rejected {err} (hnone : s.skippedKey e n = none)
      (hwhy : ∀ c, s.recvChain e = some c → n ≤ c.n ∨ ¬ c.Reaches n) :
      Derives H base e n s (.error err) s
  | fresh {j s'} (hnone : s.skippedKey e n = none)
      (hchain : s.recvChain e = some (.at H base j)) (hlt : j < n)
      (hreach : (SckaChain.at H base j).Reaches n)
      (hcore : SameCore s s') (hkeys : ∀ e', e' ∈ s'.kdfchains ↔ e' ∈ s.kdfchains)
      (hsend : ∀ e', s'.sendChain e' = s.sendChain e')
      (hrecv : ∀ e', s'.recvChain e' = if e' = e then some (.at H base n) else s.recvChain e')
      (hmem : ∀ e' ∈ s'.mkskipped, e' ∈ s.mkskipped ∨ e' = e)
      (hskipped : ∀ e' n', s'.skippedKey e' n' =
        if e' = e ∧ j < n' ∧ n' < n then some (sckaKey H base n') else s.skippedKey e' n') :
      Derives H base e n s (.ok (sckaKey H base n)) s'

/-- **What the second half of a receive can do.** -/
theorem derives_deriveKey {base : Key}
    (hon : ∀ c, s.recvChain e = some c → ∃ j, c = .at H base j) :
    Derives H base e n s (s.deriveKey H e n).1 (s.deriveKey H e n).2 := by
  cases hsk : s.skippedKey e n with
  | some k =>
      obtain ⟨s', htry, hcore, hchains, hmem, hskipped⟩ := trySkipped_eq_some hsk
      simp only [deriveKey, htry]
      exact .stored hsk hcore hchains hmem hskipped
  | none =>
      cases hchain : s.recvChain e with
      | none =>
          have hskip : s.skipMessageKeys H e (n - 1) = (.ok (), s) := by
            simp only [skipMessageKeys, hchain]
          simp only [deriveKey, trySkipped_eq_none hsk, hchain, Option.map_none, Option.any_none,
            Bool.false_eq_true, if_false, hskip]
          exact .rejected hsk (by simp [hchain])
      | some c =>
          obtain ⟨j, rfl⟩ := hon c hchain
          by_cases hle : n ≤ j
          · simp only [deriveKey, trySkipped_eq_none hsk, hchain, Option.map_some, SckaChain.at_n,
              Option.any_some, decide_eq_true_eq, if_pos hle]
            exact .rejected hsk (by simp [hchain, hle])
          have hlt : j < n := not_le.mp hle
          by_cases hreach : (SckaChain.at H base j).Reaches n
          swap
          · rw [deriveKey_of_far hsk hchain hlt hreach]
            refine .rejected hsk ?_
            intro c hc
            rw [hchain] at hc
            cases hc
            exact .inr hreach
          simp only [deriveKey, trySkipped_eq_none hsk, hchain, Option.map_some, SckaChain.at_n,
            Option.any_some, decide_eq_true_eq, if_neg hle]
          have htest : n - 1 ≤ u32 ((SckaChain.at H base j).n + maxSkip) :=
            (SckaChain.reaches_iff hlt).mp hreach
          obtain ⟨s₁, hskip, hcore₁, hkeys₁, hsend₁, hrecv₁, hmem₁, hskipped₁⟩ :=
            skipMessageKeys_spec hchain (show j ≤ n - 1 by omega) htest
          have hchain₁ : s₁.recvChain e = some (.at H base (n - 1)) := by
            rw [hrecv₁, if_pos rfl]
          have hn : n - 1 + 1 = n := by omega
          simp only [hskip, hchain₁, SckaChain.advance_at, hn, ne_eq, not_true_eq_false, if_false]
          refine .fresh hsk hchain hlt hreach (hcore₁.trans (sameCore_modifyChains _)) ?_ ?_ ?_
            ?_ ?_
          · intro e'
            rw [setRecv, mem_modifyChains, hkeys₁]
          · intro e'
            rw [sendChain_setRecv, hsend₁]
          · intro e'
            rw [recvChain_setRecv hchain₁, hrecv₁]
            split <;> rfl
          · intro e' he'
            exact hmem₁ e' (by simpa [setRecv] using he')
          · intro e' n'
            have hsame : (s₁.setRecv e (.at H base n)).skippedKey e' n' = s₁.skippedKey e' n' := by
              simp [skippedKey, setRecv]
            rw [hsame, hskipped₁]
            by_cases hin : e' = e ∧ j < n' ∧ n' < n
            · rw [if_pos hin, if_pos (by omega)]
            · rw [if_neg hin, if_neg (by omega)]

end SpqrState

end Hushwire
