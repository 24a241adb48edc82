import Hushwire.Ratchet.Ideal

/-!
# What a call does to a session

`decrypt` has six ways to fail, and changes a different part of the session before each of
them.  This module says once what each of its parts can do, as a relation between the session
before and the result and the session after: `Skips` for `skip_receiving_messages`, `Ratchets`
for the optional Diffie-Hellman step, `Resolves` for the EC key as a whole and `Opens` for
`decrypt`; `Seals` does the same for `encrypt`.  Everything proved about runs of sessions goes
through these relations.

The chains are described by their position: `ChainState.at base n` is the chain that started
from `base`, after `n` messages, and `ecKey base n` is the key of its message `n`.
-/

namespace Hushwire

variable {Key : Type}

/-! ## Chains by position -/

/-- `KDF_CK` as a step of a key chain; it binds no counter. -/
def ecStep (H : Hash Key) (_ : ℕ) (ck : Key) : Key × Key :=
  ((H.kdfCk ck).chainKey, (H.kdfCk ck).messageKey)

/-- The key of message `n` of the chain that starts from `base`; the first message is 0. -/
def ecKey (H : Hash Key) (base : Key) (n : ℕ) : Key := KeyChain.messageKey (ecStep H) base n

/-- The chain from `base` after `n` messages. -/
def ChainState.at (H : Hash Key) (base : Key) (n : ℕ) : ChainState Key :=
  ⟨KeyChain.chainKey (ecStep H) base n, n⟩

section Chains

variable {H : Hash Key} {base : Key}

@[simp] lemma ChainState.at_messageNumber (n : ℕ) :
    (ChainState.at H base n).messageNumber = n := rfl

lemma ChainState.new_eq_at : ChainState.new base = .at H base 0 := rfl

lemma ChainState.advance_at (n : ℕ) :
    (ChainState.at H base n).advance H = (ecKey H base n, .at H base (n + 1)) := rfl

end Chains

/-! ## The store -/

namespace SkippedKeys

variable [DecidableEq Key] {store : SkippedKeys Key} {dh key d : Key} {n i : ℕ}

/-- The key stored for message `n` of the chain with ratchet key `dh`. -/
def find (store : SkippedKeys Key) (dh : Key) (n : ℕ) : Option Key :=
  (store.keys.lookup (n, dh)).map SkippedKey.messageKey

/-- The store without that key. -/
def remove (dh : Key) (n : ℕ) (store : SkippedKeys Key) : SkippedKeys Key :=
  ⟨store.keys.erase (n, dh)⟩

@[simp] lemma find_new : (new : SkippedKeys Key).find dh n = none := rfl

lemma tryRemoveByDh_eq : store.tryRemoveByDh dh n = (store.find dh n, store.remove dh n) := rfl

lemma find_remove : (store.remove dh n).find d i =
    if d = dh ∧ i = n then none else store.find d i := by
  have hlookup : (store.keys.erase (n, dh)).lookup (i, d) =
      if (i, d) = (n, dh) then none else store.keys.lookup (i, d) := Map.lookup_erase_eq_ite _ _ _
  rw [find, remove, hlookup]
  by_cases h : d = dh ∧ i = n
  · rw [if_pos (Prod.ext h.2 h.1), if_pos h]
    rfl
  · rw [if_neg (fun he => h ⟨(Prod.mk.inj he).2, (Prod.mk.inj he).1⟩), if_neg h]
    rfl

lemma remove_of_find_eq_none (h : store.find dh n = none) : store.remove dh n = store := by
  have hnone : store.keys.lookup (n, dh) = none := Option.map_eq_none_iff.mp h
  refine congrArg SkippedKeys.mk (Finmap.ext_lookup fun x => ?_)
  rw [Map.lookup_erase_eq_ite]
  split
  · rename_i hx
    rw [hx, hnone]
  · rfl

lemma insert_of_full (h : maxSkip ≤ store.len) : store.insert n dh key = store := if_pos h

lemma find_insert (h : store.len < maxSkip) : (store.insert n dh key).find d i =
    if d = dh ∧ i = n then some key else store.find d i := by
  have hlookup : (Finmap.insert (n, dh) (⟨key, dh⟩ : SkippedKey Key) store.keys).lookup (i, d) =
      if (i, d) = (n, dh) then some ⟨key, dh⟩ else store.keys.lookup (i, d) :=
    Map.lookup_insert_eq_ite _ _ _ _
  rw [insert, if_neg (not_le.mpr h), find, hlookup]
  by_cases h : d = dh ∧ i = n
  · rw [if_pos (Prod.ext h.2 h.1), if_pos h]
    rfl
  · rw [if_neg (fun he => h ⟨(Prod.mk.inj he).2, (Prod.mk.inj he).1⟩), if_neg h]
    rfl

lemma len_le_len_insert : store.len ≤ (store.insert n dh key).len := by
  unfold insert
  split
  · exact le_rfl
  · exact Map.len_le_len_insert _ _ _

lemma len_insert (h : store.len < maxSkip) (hfind : store.find dh n = none) :
    (store.insert n dh key).len = store.len + 1 := by
  rw [insert, if_neg (not_le.mpr h)]
  refine Map.len_insert_of_notMem ?_ _
  rw [← Finmap.lookup_eq_none]
  exact Option.map_eq_none_iff.mp hfind

/-- The store after the keys of `k` messages of a chain, from message `n` on. -/
def insertRange (H : Hash Key) (base dh : Key) (n : ℕ) (store : SkippedKeys Key) :
    ℕ → SkippedKeys Key
  | 0 => store
  | k + 1 => (insertRange H base dh n store k).insert (n + k) dh (ecKey H base (n + k))

variable {H : Hash Key} {base : Key}

lemma len_le_len_insertRange {j k : ℕ} (h : j ≤ k) :
    (insertRange H base dh n store j).len ≤ (insertRange H base dh n store k).len := by
  induction h with
  | refl => exact le_rfl
  | step _ ih => exact ih.trans len_le_len_insert

/-- What is stored, as long as the store does not fill up on the way. -/
lemma find_insertRange {k : ℕ} (h : ∀ j < k, (insertRange H base dh n store j).len < maxSkip) :
    (insertRange H base dh n store k).find d i =
      if d = dh ∧ n ≤ i ∧ i < n + k then some (ecKey H base i) else store.find d i := by
  induction k with
  | zero =>
      rw [if_neg (by omega)]
      rfl
  | succ k ih =>
      rw [insertRange, find_insert (h k k.lt_succ_self),
        ih (fun j hj => h j (hj.trans k.lt_succ_self))]
      by_cases hd : d = dh
      · by_cases hi : i = n + k
        · rw [if_pos ⟨hd, hi⟩, if_pos ⟨hd, by omega, by omega⟩, hi]
        · rw [if_neg (fun h => hi h.2)]
          have hiff : (d = dh ∧ n ≤ i ∧ i < n + k) ↔ (d = dh ∧ n ≤ i ∧ i < n + (k + 1)) := by
            constructor
            · rintro ⟨h₁, h₂, h₃⟩
              exact ⟨h₁, h₂, by omega⟩
            · rintro ⟨h₁, h₂, h₃⟩
              exact ⟨h₁, h₂, by omega⟩
          rw [if_congr hiff rfl rfl]
      · rw [if_neg (fun h => hd h.1), if_neg (fun h => hd h.1), if_neg (fun h => hd h.1)]

/-- A full store takes nothing more. -/
lemma insertRange_of_full (h : maxSkip ≤ store.len) (k : ℕ) :
    insertRange H base dh n store k = store := by
  induction k with
  | zero => rfl
  | succ k ih => rw [insertRange, ih, insert_of_full h]

/-- The keys of a chain of which nothing is stored yet, up to the limit. -/
lemma len_insertRange (hnew : ∀ i, store.find dh i = none) {k : ℕ} (h : store.len + k ≤ maxSkip) :
    (insertRange H base dh n store k).len = store.len + k := by
  induction k with
  | zero => rfl
  | succ k ih =>
      have hk := ih (by omega)
      have hbelow : ∀ j < k, (insertRange H base dh n store j).len < maxSkip := by
        intro j hj
        have hle : (insertRange H base dh n store j).len ≤ (insertRange H base dh n store k).len :=
          len_le_len_insertRange hj.le
        omega
      have hfind : (insertRange H base dh n store k).find dh (n + k) = none := by
        rw [find_insertRange hbelow, if_neg (by omega)]
        exact hnew _
      rw [insertRange, len_insert (by omega) hfind, hk]
      rfl

/-- The keys of as many messages as fit fill the store, and none of another chain is there. -/
lemma insertRange_new_full (H : Hash Key) (base dh : Key) :
    maxSkip ≤ (insertRange H base dh 0 .new maxSkip).len ∧
      ∀ d i, d ≠ dh → (insertRange H base dh 0 .new maxSkip).find d i = none := by
  have hlen : ∀ k ≤ maxSkip, (insertRange H base dh 0 .new k).len = k := by
    intro k hk
    have hzero : (SkippedKeys.new : SkippedKeys Key).len = 0 := rfl
    have hle : (SkippedKeys.new : SkippedKeys Key).len + k ≤ maxSkip := by
      rwa [hzero, Nat.zero_add]
    rw [len_insertRange (fun _ => find_new) hle, hzero, Nat.zero_add]
  refine ⟨(hlen maxSkip le_rfl).ge, ?_⟩
  intro d i hd
  rw [find_insertRange, if_neg (fun h => hd h.1)]
  · exact find_new
  · intro j hj
    rw [hlen j hj.le]
    exact hj

end SkippedKeys

namespace RatchetSession

lemma performDhRatchetStep_dhRemote {C : Suite Key} {rng : Rng} {header : MessageHeader Key}
    {s : RatchetSession Key} :
    (s.performDhRatchetStep C rng header).dhRemote = some header.dhPublicKey := rfl

/-! ## Sends -/

/-- What `encrypt` can do. -/
inductive Seals (C : Suite Key) (rng : Rng) (plaintext : Bytes)
    (sender recipient : IdentityPublicKey) (s : RatchetSession Key) :
    Result RatchetMessage → RatchetSession Key → Prop
  | pending (hpending : s.pendingPrekey.isSome) :
      Seals C rng plaintext sender recipient s (.error .invalidSessionState) s
  | noKeys {e : CryptoError} {s' : RatchetSession Key} (hpending : s.pendingPrekey = none)
      (hkeys : s.sendKeys C rng = (.error e, s')) :
      Seals C rng plaintext sender recipient s (.error e) s'
  | failed {header : MessageHeader Key} {ecMk pqMk : Key} {e : CryptoError}
      {s' : RatchetSession Key} (hpending : s.pendingPrekey = none)
      (hkeys : s.sendKeys C rng = (.ok (header, ecMk, pqMk), s'))
      (haead : Aead.encrypt C.hash C.xchacha rng (C.hash.kdfHybrid ecMk pqMk) (pad plaintext)
        (buildAd C sender recipient (header.serialize C.postcard)) = .error e) :
      Seals C rng plaintext sender recipient s (.error e) s'
  | sealed {header : MessageHeader Key} {ecMk pqMk : Key} {ciphertext : Bytes}
      {s' : RatchetSession Key} (hpending : s.pendingPrekey = none)
      (hkeys : s.sendKeys C rng = (.ok (header, ecMk, pqMk), s'))
      (haead : Aead.encrypt C.hash C.xchacha rng (C.hash.kdfHybrid ecMk pqMk) (pad plaintext)
        (buildAd C sender recipient (header.serialize C.postcard)) = .ok ciphertext) :
      Seals C rng plaintext sender recipient s
        (.ok ⟨header.serialize C.postcard, ciphertext⟩) s'

/-- **What a send can do**, in all cases. -/
theorem seals_encrypt (C : Suite Key) (rng : Rng) (plaintext : Bytes)
    (sender recipient : IdentityPublicKey) (s : RatchetSession Key) :
    Seals C rng plaintext sender recipient s (s.encrypt C rng plaintext sender recipient).1
      (s.encrypt C rng plaintext sender recipient).2 := by
  unfold encrypt
  cases hpending : s.pendingPrekey with
  | some initial => exact .pending (by rw [hpending]; rfl)
  | none =>
      rw [if_neg (by simp)]
      unfold encryptRaw
      generalize hkeys : s.sendKeys C rng = out
      obtain ⟨e | ⟨header, ecMk, pqMk⟩, s'⟩ := out
      · exact .noKeys hpending hkeys
      · simp only
        cases haead : Aead.encrypt C.hash C.xchacha rng (C.hash.kdfHybrid ecMk pqMk)
            (pad plaintext) (buildAd C sender recipient (header.serialize C.postcard)) with
        | error e => exact .failed hpending hkeys haead
        | ok ciphertext => exact .sealed hpending hkeys haead

lemma encrypt_of_keys {C : Suite Key} {rng : Rng} {plaintext ciphertext : Bytes}
    {sender recipient : IdentityPublicKey} {s s' : RatchetSession Key} {header : MessageHeader Key}
    {ecMk pqMk : Key} (hpending : s.pendingPrekey = none)
    (hkeys : s.sendKeys C rng = (.ok (header, ecMk, pqMk), s'))
    (haead : Aead.encrypt C.hash C.xchacha rng (C.hash.kdfHybrid ecMk pqMk) (pad plaintext)
      (buildAd C sender recipient (header.serialize C.postcard)) = .ok ciphertext) :
    s.encrypt C rng plaintext sender recipient =
      (.ok ⟨header.serialize C.postcard, ciphertext⟩, s') := by
  simp only [encrypt, hpending, Option.isSome_none, Bool.false_eq_true, if_false, encryptRaw, hkeys,
    haead]

/-- The keys of the next message, if there is a chain to take one from. -/
lemma sendKeys_eq (C : Suite Key) (rng : Rng) (s : RatchetSession Key) :
    ∃ r spqr, s.spqr.ratchetSendKey C.toPrims rng = (r, spqr) ∧
      ((∃ e, s.sendKeys C rng = (.error e, { s with spqr })) ∧
          ((∃ e, r = .error e) ∨ s.sendingChain = none) ∨
        ∃ m pqN pqMk chain, r = .ok (m, pqN, pqMk) ∧ s.sendingChain = some chain ∧
          s.sendKeys C rng = (.ok (⟨s.dhSelfPublic, s.previousSendingChainLength,
              chain.messageNumber, m, pqN⟩, (chain.advance C.hash).1, pqMk),
            { s with spqr, sendingChain := some (chain.advance C.hash).2 })) := by
  unfold sendKeys
  generalize s.spqr.ratchetSendKey C.toPrims rng = out
  obtain ⟨e | ⟨m, pqN, pqMk⟩, spqr⟩ := out
  · exact ⟨_, _, rfl, .inl ⟨⟨e, rfl⟩, .inl ⟨e, rfl⟩⟩⟩
  · refine ⟨_, _, rfl, ?_⟩
    cases hc : s.sendingChain with
    | none => exact .inl ⟨⟨_, rfl⟩, .inr rfl⟩
    | some chain => exact .inr ⟨m, pqN, pqMk, chain, rfl, rfl, rfl⟩

/-- The keys of a send come with a send of the SPQR state. -/
lemma sendKeys_spqr (C : Suite Key) (rng : Rng) (s : RatchetSession Key) :
    (s.sendKeys C rng).2.spqr = (s.spqr.ratchetSendKey C.toPrims rng).2 := by
  obtain ⟨r, spqr, hpq, ⟨⟨e, h⟩, -⟩ | ⟨m, pqN, pqMk, chain, -, -, h⟩⟩ := sendKeys_eq C rng s
  · rw [h, hpq]
  · rw [h, hpq]

/-- Sealing the message changes nothing more. -/
lemma encryptRaw_snd (C : Suite Key) (rng : Rng) (plaintext : Bytes)
    (sender recipient : IdentityPublicKey) (s : RatchetSession Key) :
    (s.encryptRaw C rng plaintext sender recipient).2 = (s.sendKeys C rng).2 := by
  unfold encryptRaw
  rcases s.sendKeys C rng with ⟨e | ⟨header, ecMk, pqMk⟩, s'⟩
  · rfl
  · dsimp only
    split <;> rfl

variable [DecidableEq Key] {C : Suite Key} {H : Hash Key} {rng : Rng} {header : MessageHeader Key}
  {s : RatchetSession Key}

/-! ## Skipping -/

lemma skipKeys_succ (dh : Key) (k : ℕ) : ∀ (chain : ChainState Key) (store : SkippedKeys Key),
    skipKeys H dh (k + 1) chain store =
      (((skipKeys H dh k chain store).1.advance H).2,
        (skipKeys H dh k chain store).2.insert
          ((((skipKeys H dh k chain store).1.advance H).2).messageNumber - 1) dh
          ((skipKeys H dh k chain store).1.advance H).1) := by
  induction k with
  | zero => intro chain store; rfl
  | succ k ih => intro chain store; exact ih _ _

/-- **The loop of `skip_receiving_messages`.** -/
lemma skipKeys_at (dh base : Key) (n k : ℕ) (store : SkippedKeys Key) :
    skipKeys H dh k (.at H base n) store =
      (.at H base (n + k), store.insertRange H base dh n k) := by
  induction k with
  | zero => rfl
  | succ k ih =>
      rw [skipKeys_succ, ih]
      rfl

lemma skipKeys_messageNumber (dh : Key) (k : ℕ) (chain : ChainState Key) (store : SkippedKeys Key) :
    (skipKeys H dh k chain store).1.messageNumber = chain.messageNumber + k := by
  induction k with
  | zero => rfl
  | succ k ih =>
      rw [skipKeys_succ]
      exact congrArg (· + 1) ih

/-- What `skip_receiving_messages` can do. -/
inductive Skips (H : Hash Key) (upTo : ℕ) (s : RatchetSession Key) :
    Result Unit → RatchetSession Key → Prop
  | noChain (hc : s.receivingChain = none) : Skips H upTo s (.ok ()) s
  | passed {c : ChainState Key} (hc : s.receivingChain = some c) (h : upTo < c.messageNumber) :
      Skips H upTo s (.ok ()) s
  | tooFar {c : ChainState Key} (hc : s.receivingChain = some c)
      (h : c.messageNumber + maxSkip < upTo) :
      Skips H upTo s (.error (.maxSkipExceeded (upTo - c.messageNumber) maxSkip)) s
  | stored {c : ChainState Key} (hc : s.receivingChain = some c) (hle : c.messageNumber ≤ upTo)
      (hgap : upTo ≤ c.messageNumber + maxSkip) :
      Skips H upTo s (.ok ()) { s with
        receivingChain := some (skipKeys H (s.dhRemote.getD H.zero) (upTo - c.messageNumber) c
          s.skipped).1
        skipped := (skipKeys H (s.dhRemote.getD H.zero) (upTo - c.messageNumber) c s.skipped).2 }

lemma skips_skipReceivingMessages (H : Hash Key) (upTo : ℕ) (s : RatchetSession Key) :
    Skips H upTo s (s.skipReceivingMessages H upTo).1 (s.skipReceivingMessages H upTo).2 := by
  unfold skipReceivingMessages
  cases hc : s.receivingChain with
  | none => exact .noChain hc
  | some c =>
      simp only
      by_cases hpassed : upTo < c.messageNumber
      · rw [if_pos hpassed]
        exact .passed hc hpassed
      · rw [if_neg hpassed]
        by_cases hgap : maxSkip < upTo - c.messageNumber
        · rw [if_pos hgap]
          exact .tooFar hc (by omega)
        · rw [if_neg hgap]
          exact .stored hc (by omega) (by omega)

lemma skipReceivingMessages_of_none {upTo : ℕ} (hc : s.receivingChain = none) :
    s.skipReceivingMessages H upTo = (.ok (), s) := by
  simp only [skipReceivingMessages, hc]

lemma skipReceivingMessages_of_passed {upTo : ℕ} {c : ChainState Key}
    (hc : s.receivingChain = some c) (hlt : upTo < c.messageNumber) :
    s.skipReceivingMessages H upTo = (.ok (), s) := by
  simp only [skipReceivingMessages, hc, if_pos hlt]

/-- Skipping within reach, on a chain whose position is known. -/
lemma skipReceivingMessages_at {upTo r : ℕ} {base dh : Key}
    (hc : s.receivingChain = some (.at H base r)) (hdh : s.dhRemote = some dh) (hle : r ≤ upTo)
    (hgap : upTo ≤ r + maxSkip) :
    s.skipReceivingMessages H upTo = (.ok (), { s with
      receivingChain := some (.at H base upTo)
      skipped := s.skipped.insertRange H base dh r (upTo - r) }) := by
  have hnot : ¬ upTo < r := not_lt.mpr hle
  have hnot' : ¬ maxSkip < upTo - r := by omega
  simp only [skipReceivingMessages, hc, ChainState.at_messageNumber, if_neg hnot, if_neg hnot', hdh,
    Option.getD_some, skipKeys_at, Nat.add_sub_cancel' hle]

lemma Skips.eq_at {upTo r : ℕ} {base dh : Key} {s' : RatchetSession Key}
    (h : Skips H upTo s (.ok ()) s') (hc : s.receivingChain = some (.at H base r))
    (hdh : s.dhRemote = some dh) (hle : r ≤ upTo) :
    s' = { s with
      receivingChain := some (.at H base upTo)
      skipped := s.skipped.insertRange H base dh r (upTo - r) } := by
  cases h with
  | noChain hnone => exact absurd (hnone.symm.trans hc) (by simp)
  | passed hc' hpassed =>
      obtain rfl := Option.some.inj (hc.symm.trans hc')
      exact absurd hpassed (not_lt.mpr hle)
  | stored hc' _ _ =>
      obtain rfl := Option.some.inj (hc.symm.trans hc')
      rw [hdh, Option.getD_some, ChainState.at_messageNumber, skipKeys_at, Nat.add_sub_cancel' hle]

/-! ## The EC key of a message -/

/-- What happens before the receiving chain is used: nothing if the ratchet key is the current
one, otherwise the rest of the old chain is skipped and a Diffie-Hellman step is made. -/
inductive Ratchets (C : Suite Key) (rng : Rng) (header : MessageHeader Key)
    (s : RatchetSession Key) : Result Unit → RatchetSession Key → Prop
  | same (hdh : s.dhRemote = some header.dhPublicKey) : Ratchets C rng header s (.ok ()) s
  | refused {e : CryptoError} {s' : RatchetSession Key} (hdh : s.dhRemote ≠ some header.dhPublicKey)
      (hskip : Skips C.hash header.previousChainLength s (.error e) s') :
      Ratchets C rng header s (.error e) s'
  | stepped {s₁ : RatchetSession Key} (hdh : s.dhRemote ≠ some header.dhPublicKey)
      (hskip : Skips C.hash header.previousChainLength s (.ok ()) s₁) :
      Ratchets C rng header s (.ok ()) (s₁.performDhRatchetStep C rng header)

/-- What the first half of `decrypt` can do. -/
inductive Resolves (C : Suite Key) (rng : Rng) (header : MessageHeader Key)
    (s : RatchetSession Key) : Result Key → RatchetSession Key → Prop
  | stored {key : Key}
      (hkey : s.skipped.find header.dhPublicKey header.messageNumber = some key) :
      Resolves C rng header s (.ok key)
        { s with skipped := s.skipped.remove header.dhPublicKey header.messageNumber }
  | refused {e : CryptoError} {s' : RatchetSession Key}
      (hnone : s.skipped.find header.dhPublicKey header.messageNumber = none)
      (hratchet : Ratchets C rng header s (.error e) s') : Resolves C rng header s (.error e) s'
  | tooFar {e : CryptoError} {s₁ s' : RatchetSession Key}
      (hnone : s.skipped.find header.dhPublicKey header.messageNumber = none)
      (hratchet : Ratchets C rng header s (.ok ()) s₁)
      (hskip : Skips C.hash header.messageNumber s₁ (.error e) s') :
      Resolves C rng header s (.error e) s'
  | noChain {s₁ s' : RatchetSession Key}
      (hnone : s.skipped.find header.dhPublicKey header.messageNumber = none)
      (hratchet : Ratchets C rng header s (.ok ()) s₁)
      (hskip : Skips C.hash header.messageNumber s₁ (.ok ()) s')
      (hc : s'.receivingChain = none) : Resolves C rng header s (.error .invalidSessionState) s'
  | advanced {s₁ s' : RatchetSession Key} {c : ChainState Key}
      (hnone : s.skipped.find header.dhPublicKey header.messageNumber = none)
      (hratchet : Ratchets C rng header s (.ok ()) s₁)
      (hskip : Skips C.hash header.messageNumber s₁ (.ok ()) s')
      (hc : s'.receivingChain = some c) :
      Resolves C rng header s (.ok (c.advance C.hash).1)
        { s' with receivingChain := some (c.advance C.hash).2 }

lemma ratchets_ratchetIfNeeded (C : Suite Key) (rng : Rng) (header : MessageHeader Key)
    (s : RatchetSession Key) :
    Ratchets C rng header s (s.ratchetIfNeeded C rng header).1
      (s.ratchetIfNeeded C rng header).2 := by
  have hiff : s.dhRemote.all (fun r => r ≠ header.dhPublicKey) = true ↔
      s.dhRemote ≠ some header.dhPublicKey := by
    cases s.dhRemote <;> simp
  unfold ratchetIfNeeded
  by_cases hdh : s.dhRemote = some header.dhPublicKey
  · rw [if_neg (fun h => hiff.mp h hdh)]
    exact .same hdh
  · rw [if_pos (hiff.mpr hdh)]
    have hskip := skips_skipReceivingMessages C.hash header.previousChainLength s
    generalize s.skipReceivingMessages C.hash header.previousChainLength = out at hskip ⊢
    obtain ⟨e | _, s₁⟩ := out
    · exact .refused hdh hskip
    · exact .stepped hdh hskip

/-- A key that is not stored comes from the receiving chain. -/
lemma ecMessageKey_of_none
    (hnone : s.skipped.find header.dhPublicKey header.messageNumber = none) :
    s.ecMessageKey C rng header =
      match s.ratchetIfNeeded C rng header with
      | (.error e, s) => (.error e, s)
      | (.ok _, s) =>
          match s.skipReceivingMessages C.hash header.messageNumber with
          | (.error e, s) => (.error e, s)
          | (.ok _, s) => s.advanceReceiving C.hash := by
  have hfound : s.skipped.tryRemoveByDh header.dhPublicKey header.messageNumber =
      (none, s.skipped) := by
    rw [SkippedKeys.tryRemoveByDh_eq, hnone, SkippedKeys.remove_of_find_eq_none hnone]
  unfold ecMessageKey
  generalize s.skipped.tryRemoveByDh header.dhPublicKey header.messageNumber = found at hfound ⊢
  subst hfound
  rfl

lemma ratchetIfNeeded_of_same (hdh : s.dhRemote = some header.dhPublicKey) :
    s.ratchetIfNeeded C rng header = (.ok (), s) := by
  simp [ratchetIfNeeded, hdh]

lemma ratchetIfNeeded_of_new {s₁ : RatchetSession Key}
    (hdh : s.dhRemote ≠ some header.dhPublicKey)
    (hskip : s.skipReceivingMessages C.hash header.previousChainLength = (.ok (), s₁)) :
    s.ratchetIfNeeded C rng header = (.ok (), s₁.performDhRatchetStep C rng header) := by
  have hall : s.dhRemote.all (fun r => r ≠ header.dhPublicKey) = true := by
    cases h : s.dhRemote with
    | none => rfl
    | some r => simpa [h] using hdh
  simp only [ratchetIfNeeded, hall, if_true, hskip]

/-- A message of the current chain that the chain has passed is handed the chain's next key. -/
lemma ecMessageKey_of_passed (rng : Rng) {c : ChainState Key}
    (hnone : s.skipped.find header.dhPublicKey header.messageNumber = none)
    (hdh : s.dhRemote = some header.dhPublicKey) (hc : s.receivingChain = some c)
    (hlt : header.messageNumber < c.messageNumber) :
    s.ecMessageKey C rng header = (.ok (c.advance C.hash).1,
      { s with receivingChain := some (c.advance C.hash).2 }) := by
  rw [ecMessageKey_of_none hnone, ratchetIfNeeded_of_same hdh]
  simp only [skipReceivingMessages_of_passed hc hlt, advanceReceiving, hc]

/-- A message under a new ratchet key is handed its key of the chain that the key starts. -/
lemma ecMessageKey_of_new (rng : Rng) {s₁ : RatchetSession Key}
    (hnone : s.skipped.find header.dhPublicKey header.messageNumber = none)
    (hdh : s.dhRemote ≠ some header.dhPublicKey)
    (hskip : s.skipReceivingMessages C.hash header.previousChainLength = (.ok (), s₁))
    (hn : header.messageNumber ≤ maxSkip) {base : Key}
    (hbase : (C.hash.kdfRk s₁.rootKey
      (C.x25519.diffieHellman s₁.dhSelf header.dhPublicKey)).chainKey = base) :
    s.ecMessageKey C rng header = (.ok (ecKey C.hash base header.messageNumber),
      { s₁.performDhRatchetStep C rng header with
        receivingChain := some (.at C.hash base (header.messageNumber + 1))
        skipped := s₁.skipped.insertRange C.hash base header.dhPublicKey 0
          header.messageNumber }) := by
  have hchain : (s₁.performDhRatchetStep C rng header).receivingChain =
      some (.at C.hash base 0) := by
    rw [← hbase]
    rfl
  rw [ecMessageKey_of_none hnone, ratchetIfNeeded_of_new hdh hskip]
  simp only [skipReceivingMessages_at hchain performDhRatchetStep_dhRemote (Nat.zero_le _)
    (hn.trans (Nat.le_add_left _ _)), advanceReceiving, ChainState.advance_at, Nat.sub_zero]
  rfl

/-- **What resolving the EC key can do**, in all cases. -/
theorem resolves_ecMessageKey (C : Suite Key) (rng : Rng) (header : MessageHeader Key)
    (s : RatchetSession Key) :
    Resolves C rng header s (s.ecMessageKey C rng header).1 (s.ecMessageKey C rng header).2 := by
  cases hfind : s.skipped.find header.dhPublicKey header.messageNumber with
  | some key =>
      rw [ecMessageKey, SkippedKeys.tryRemoveByDh_eq, hfind]
      exact .stored hfind
  | none =>
      rw [ecMessageKey_of_none hfind]
      have hratchet := ratchets_ratchetIfNeeded C rng header s
      generalize s.ratchetIfNeeded C rng header = out at hratchet ⊢
      obtain ⟨e | _, s₁⟩ := out
      · exact .refused hfind hratchet
      · have hskip := skips_skipReceivingMessages C.hash header.messageNumber s₁
        simp only
        generalize s₁.skipReceivingMessages C.hash header.messageNumber = out at hskip ⊢
        obtain ⟨e | _, s₂⟩ := out
        · exact .tooFar hfind hratchet hskip
        · simp only [advanceReceiving]
          cases hc : s₂.receivingChain with
          | none => exact .noChain hfind hratchet hskip hc
          | some c => exact .advanced hfind hratchet hskip hc

lemma Resolves.of_eq {r : Result Key} {s' : RatchetSession Key}
    (h : s.ecMessageKey C rng header = (r, s')) : Resolves C rng header s r s' := by
  have hresolves := resolves_ecMessageKey C rng header s
  rwa [h] at hresolves

/-- Skipping keeps the Diffie-Hellman part of the session. -/
lemma Skips.dhRemote {upTo : ℕ} {r : Result Unit} {s' : RatchetSession Key}
    (h : Skips H upTo s r s') :
    s'.dhRemote = s.dhRemote := by
  cases h <;> rfl

lemma Skips.root {upTo : ℕ} {r : Result Unit} {s' : RatchetSession Key} (h : Skips H upTo s r s') :
    s'.rootKey = s.rootKey ∧ s'.dhSelf = s.dhSelf := by
  cases h <;> exact ⟨rfl, rfl⟩

/-- The EC half of a delivery does not look at the SPQR half, nor touch it. -/
lemma Skips.spqr {upTo : ℕ} {r : Result Unit} {s' : RatchetSession Key} (h : Skips H upTo s r s') :
    s'.spqr = s.spqr ∧ s'.pendingPrekey = s.pendingPrekey := by
  cases h <;> exact ⟨rfl, rfl⟩

lemma Ratchets.spqr {r : Result Unit} {s' : RatchetSession Key}
    (h : Ratchets C rng header s r s') :
    s'.spqr = s.spqr ∧ s'.pendingPrekey = s.pendingPrekey := by
  cases h with
  | same _ => exact ⟨rfl, rfl⟩
  | refused _ hskip => exact hskip.spqr
  | stepped _ hskip => exact hskip.spqr

lemma Resolves.spqr {r : Result Key} {s' : RatchetSession Key} (h : Resolves C rng header s r s') :
    s'.spqr = s.spqr ∧ s'.pendingPrekey = s.pendingPrekey := by
  cases h with
  | stored _ => exact ⟨rfl, rfl⟩
  | refused _ hratchet => exact hratchet.spqr
  | tooFar _ hratchet hskip | noChain _ hratchet hskip _ | advanced _ hratchet hskip _ =>
      exact ⟨hskip.spqr.1.trans hratchet.spqr.1, hskip.spqr.2.trans hratchet.spqr.2⟩

/-! ## Deliveries -/

/-- The AEAD and the padding, under the hybrid of the two keys. -/
def openWith (C : Suite Key) (ecMk pqMk : Key) (ciphertext ad : Bytes) : Result Bytes := do
  let padded ← Aead.decrypt C.hash C.xchacha (C.hash.kdfHybrid ecMk pqMk) ciphertext ad
  unpad padded

/-- What `decrypt` can do. -/
inductive Opens (C : Suite Key) (rng : Rng) (message : RatchetMessage)
    (sender recipient : IdentityPublicKey) (s : RatchetSession Key) :
    Result Bytes → RatchetSession Key → Prop
  | garbled {e : CryptoError}
      (hheader : MessageHeader.deserialize C.postcard message.header = .error e) :
      Opens C rng message sender recipient s (.error e) s
  | noEcKey {header : MessageHeader Key} {e : CryptoError} {s' : RatchetSession Key}
      (hheader : MessageHeader.deserialize C.postcard message.header = .ok header)
      (hec : s.ecMessageKey C rng header = (.error e, s')) :
      Opens C rng message sender recipient s (.error e) s'
  | noPqKey {header : MessageHeader Key} {ecMk : Key} {e : CryptoError} {s₁ : RatchetSession Key}
      {spqr : SpqrState Key}
      (hheader : MessageHeader.deserialize C.postcard message.header = .ok header)
      (hec : s.ecMessageKey C rng header = (.ok ecMk, s₁))
      (hpq : s.spqr.ratchetReceiveKey C.toPrims header.braidMsg header.pqMessageNumber =
        (.error e, spqr)) :
      Opens C rng message sender recipient s (.error e) { s₁ with spqr }
  | keyed {header : MessageHeader Key} {ecMk pqMk : Key} {s₁ : RatchetSession Key}
      {spqr : SpqrState Key}
      (hheader : MessageHeader.deserialize C.postcard message.header = .ok header)
      (hec : s.ecMessageKey C rng header = (.ok ecMk, s₁))
      (hpq : s.spqr.ratchetReceiveKey C.toPrims header.braidMsg header.pqMessageNumber =
        (.ok pqMk, spqr)) :
      Opens C rng message sender recipient s
        (openWith C ecMk pqMk message.ciphertext (buildAd C sender recipient message.header))
        { s₁ with spqr }

/-- **What a delivery can do**, in all cases. -/
theorem opens_decrypt (C : Suite Key) (rng : Rng) (message : RatchetMessage)
    (sender recipient : IdentityPublicKey) (s : RatchetSession Key) :
    Opens C rng message sender recipient s (s.decrypt C rng message sender recipient).1
      (s.decrypt C rng message sender recipient).2 := by
  unfold decrypt
  cases hheader : MessageHeader.deserialize C.postcard message.header with
  | error e => exact .garbled hheader
  | ok header =>
      simp only
      generalize hec : s.ecMessageKey C rng header = out
      obtain ⟨e | ecMk, s₁⟩ := out
      · exact .noEcKey hheader hec
      · have hsame : s₁.spqr = s.spqr := (Resolves.of_eq hec).spqr.1
        simp only [hsame]
        cases hpq : s.spqr.ratchetReceiveKey C.toPrims header.braidMsg header.pqMessageNumber with
        | mk r spqr =>
            rcases r with e | pqMk
            · exact .noPqKey hheader hec hpq
            · exact .keyed hheader hec hpq

/-! ## What a rejected message leaves behind -/

section Rejected

variable {upTo : ℕ} {s' : RatchetSession Key} {c : ChainState Key}

lemma Skips.of_error {e : CryptoError} (h : Skips H upTo s (.error e) s') :
    s' = s ∧ ∃ c, s.receivingChain = some c ∧ c.messageNumber + maxSkip < upTo := by
  cases h with
  | tooFar hc hfar => exact ⟨rfl, _, hc, hfar⟩

lemma Skips.le_of_ok (h : Skips H upTo s (.ok ()) s') (hc : s.receivingChain = some c) :
    upTo ≤ c.messageNumber + maxSkip := by
  cases h with
  | noChain hnone => exact absurd (hnone.symm.trans hc) (by simp)
  | passed hc' hpassed =>
      obtain rfl := Option.some.inj (hc.symm.trans hc')
      exact hpassed.le.trans (Nat.le_add_right _ _)
  | stored hc' _ hgap =>
      obtain rfl := Option.some.inj (hc.symm.trans hc')
      exact hgap

/-- Skipping moves the chain forward, if there is one. -/
lemma Skips.receivingChain {r : Result Unit} (h : Skips H upTo s r s') :
    s' = s ∧ s.receivingChain = none ∨ ∃ c c', s.receivingChain = some c ∧
      s'.receivingChain = some c' ∧ c.messageNumber ≤ c'.messageNumber := by
  cases h with
  | noChain hc => exact .inl ⟨rfl, hc⟩
  | passed hc _ => exact .inr ⟨_, _, hc, hc, le_rfl⟩
  | tooFar hc _ => exact .inr ⟨_, _, hc, hc, le_rfl⟩
  | stored hc _ _ =>
      refine .inr ⟨_, _, hc, rfl, ?_⟩
      rw [skipKeys_messageNumber]
      exact Nat.le_add_right _ _

/-- The refusals that come before the first change: the key is not stored, and the skip that
comes first (to the end of the old chain for a new ratchet key, to the message itself for the
current one) has too large a gap, or there is no chain to take the key from. -/
def RefusesEarly (s : RatchetSession Key) (header : MessageHeader Key) : Prop :=
  s.skipped.find header.dhPublicKey header.messageNumber = none ∧
    if s.dhRemote = some header.dhPublicKey then
      ∀ c, s.receivingChain = some c → c.messageNumber + maxSkip < header.messageNumber
    else
      ∃ c, s.receivingChain = some c ∧ c.messageNumber + maxSkip < header.previousChainLength

/-- The parts of a session that a delivery changes before it can still fail. -/
def SameReceiving (s s' : RatchetSession Key) : Prop :=
  s'.skipped = s.skipped ∧ s'.dhRemote = s.dhRemote ∧ s'.receivingChain = s.receivingChain

lemma Resolves.of_refusesEarly {r : Result Key} (h : Resolves C rng header s r s')
    (hearly : RefusesEarly s header) : (∃ e, r = .error e) ∧ s' = s := by
  obtain ⟨hnone, hif⟩ := hearly
  -- with a gap that large the ratchet is refused, or there is none and the skip is
  have hratchet : ∀ {r₁ s₁}, Ratchets C rng header s r₁ s₁ →
      (∃ e, r₁ = .error e ∧ s₁ = s) ∨ s₁ = s ∧ ∀ c, s.receivingChain = some c →
        c.messageNumber + maxSkip < header.messageNumber := by
    intro r₁ s₁ hr
    cases hr with
    | same hdh =>
        rw [if_pos hdh] at hif
        exact .inr ⟨rfl, hif⟩
    | refused _ hskip => exact .inl ⟨_, rfl, hskip.of_error.1⟩
    | stepped hdh hskip =>
        rw [if_neg hdh] at hif
        obtain ⟨c, hc, hfar⟩ := hif
        exact absurd (hskip.le_of_ok hc) (not_le.mpr hfar)
  cases h with
  | stored hkey => exact absurd (hnone.symm.trans hkey) (by simp)
  | refused _ hr =>
      rcases hratchet hr with ⟨e, -, rfl⟩ | ⟨rfl, -⟩
      · exact ⟨⟨_, rfl⟩, rfl⟩
      · exact ⟨⟨_, rfl⟩, rfl⟩
  | tooFar _ hr hskip =>
      rcases hratchet hr with ⟨e, he, -⟩ | ⟨rfl, -⟩
      · cases he
      · exact ⟨⟨_, rfl⟩, hskip.of_error.1⟩
  | noChain _ hr hskip hc =>
      rcases hratchet hr with ⟨e, he, -⟩ | ⟨rfl, -⟩
      · cases he
      · rcases hskip.receivingChain with ⟨heq, -⟩ | ⟨_, c', -, hc', -⟩
        · exact ⟨⟨_, rfl⟩, heq⟩
        · exact absurd (hc.symm.trans hc') (by simp)
  | advanced _ hr hskip hc =>
      rcases hratchet hr with ⟨e, he, -⟩ | ⟨rfl, hfar⟩
      · cases he
      · rcases hskip.receivingChain with ⟨rfl, hnone⟩ | ⟨c, _, hc', -, -⟩
        · exact absurd (hnone.symm.trans hc) (by simp)
        · exact absurd (hskip.le_of_ok hc') (not_le.mpr (hfar c hc'))

/-- Everything else that can happen leaves its mark: the key is gone from the store, the remote
ratchet key is a new one, or the receiving chain has moved. -/
lemma Resolves.refusesEarly_of_same {r : Result Key} (h : Resolves C rng header s r s')
    (hsame : SameReceiving s s') : RefusesEarly s header := by
  obtain ⟨hstore, hdh', hchain⟩ := hsame
  -- a ratchet step is never undone
  have hratchet : ∀ {s₁}, Ratchets C rng header s (.ok ()) s₁ → s₁.dhRemote = s'.dhRemote →
      s.dhRemote = some header.dhPublicKey ∧ s₁ = s := by
    intro s₁ hr heq
    cases hr with
    | same hdh => exact ⟨hdh, rfl⟩
    | stepped hdh _ => exact absurd (hdh'.symm.trans heq.symm) hdh
  cases h with
  | stored hkey =>
      have hgone : (s.skipped.remove header.dhPublicKey header.messageNumber).find
          header.dhPublicKey header.messageNumber = _ := SkippedKeys.find_remove
      rw [if_pos ⟨rfl, rfl⟩] at hgone
      simp only at hstore
      rw [hstore, hkey] at hgone
      cases hgone
  | refused hnone hr =>
      cases hr with
      | refused hdh hskip =>
          obtain ⟨-, c, hc, hfar⟩ := hskip.of_error
          exact ⟨hnone, by rw [if_neg hdh]; exact ⟨c, hc, hfar⟩⟩
  | tooFar hnone hr hskip =>
      obtain ⟨hdh, rfl⟩ := hratchet hr hskip.dhRemote.symm
      obtain ⟨-, c, hc, hfar⟩ := hskip.of_error
      refine ⟨hnone, ?_⟩
      rw [if_pos hdh]
      intro c' hc'
      obtain rfl := Option.some.inj (hc.symm.trans hc')
      exact hfar
  | noChain hnone hr hskip hc =>
      obtain ⟨hdh, rfl⟩ := hratchet hr hskip.dhRemote.symm
      refine ⟨hnone, ?_⟩
      rw [if_pos hdh]
      intro c hc'
      rw [← hchain, hc] at hc'
      cases hc'
  | advanced _ hr hskip hc =>
      obtain ⟨-, rfl⟩ := hratchet hr hskip.dhRemote.symm
      rcases hskip.receivingChain with ⟨rfl, hnone⟩ | ⟨c, c', hc₁, hc', hle⟩
      · exact absurd (hnone.symm.trans hc) (by simp)
      · obtain rfl := Option.some.inj (hc'.symm.trans hc)
        have heq := Option.some.inj (hchain.trans hc₁)
        have hnumber : c'.messageNumber + 1 = c.messageNumber :=
          congrArg ChainState.messageNumber heq
        omega

/-- After the header only the EC half changes anything but the SPQR state. -/
lemma Opens.exists_resolves {message : RatchetMessage} {sender recipient : IdentityPublicKey}
    {r : Result Bytes} (h : Opens C rng message sender recipient s r s') :
    (∃ e, MessageHeader.deserialize C.postcard message.header = .error e) ∧ s' = s ∨
      ∃ header r₁ s₁ spqr, MessageHeader.deserialize C.postcard message.header = .ok header ∧
        Resolves C rng header s r₁ s₁ ∧ s' = { s₁ with spqr } ∧
        ((∃ e, r₁ = .error e) → spqr = s₁.spqr) := by
  cases h with
  | garbled hheader => exact .inl ⟨⟨_, hheader⟩, rfl⟩
  | noEcKey hheader hec => exact .inr ⟨_, _, _, _, hheader, .of_eq hec, rfl, fun _ => rfl⟩
  | noPqKey hheader hec _ => exact .inr ⟨_, _, _, _, hheader, .of_eq hec, rfl, by simp⟩
  | keyed hheader hec _ => exact .inr ⟨_, _, _, _, hheader, .of_eq hec, rfl, by simp⟩

/-- **When a rejected message leaves no trace.**  A `decrypt` that fails leaves the session as it
was exactly when the header does not parse, or the first skip refuses the header before anything
was changed.  Every other failure has used up a stored key, made a Diffie-Hellman step or moved
the receiving chain. -/
theorem rejected_unchanged_iff (C : Suite Key) (rng : Rng) (message : RatchetMessage)
    (sender recipient : IdentityPublicKey) (s : RatchetSession Key) {e : CryptoError}
    {s' : RatchetSession Key} (h : s.decrypt C rng message sender recipient = (.error e, s')) :
    s' = s ↔ ∀ header, MessageHeader.deserialize C.postcard message.header = .ok header →
      RefusesEarly s header := by
  have hopens := opens_decrypt C rng message sender recipient s
  rw [h] at hopens
  rcases hopens.exists_resolves with ⟨⟨e', hgarbled⟩, hsame⟩ |
    ⟨header, r₁, s₁, spqr, hheader, hec, hs', hspqr⟩
  · simp only at hsame
    simp [hsame, hgarbled]
  · simp only at hs'
    constructor
    · intro hsame header' hheader'
      obtain rfl := Except.ok.inj (hheader.symm.trans hheader')
      rw [hs'] at hsame
      have hparts : SameReceiving s s₁ := by
        rw [← hsame]
        exact ⟨rfl, rfl, rfl⟩
      exact hec.refusesEarly_of_same hparts
    · intro hearly
      obtain ⟨herror, rfl⟩ := hec.of_refusesEarly (hearly header hheader)
      rw [hs', hspqr herror]

lemma decrypt_of_refusesEarly (rng : Rng) {message : RatchetMessage}
    (sender recipient : IdentityPublicKey)
    (hheader : MessageHeader.deserialize C.postcard message.header = .ok header)
    (hearly : RefusesEarly s header) :
    ∃ e s', s.decrypt C rng message sender recipient = (.error e, s') := by
  obtain ⟨⟨e, herror⟩, -⟩ := (resolves_ecMessageKey C rng header s).of_refusesEarly hearly
  obtain ⟨s', hec⟩ : ∃ s', s.ecMessageKey C rng header = (.error e, s') := ⟨_, Prod.ext herror rfl⟩
  refine ⟨e, s', ?_⟩
  simp only [decrypt, hheader, hec]

/-- Alice has not received anything yet and is handed a message under Bob's first key. -/
theorem rejected_unchanged_iff_initial_key :
    ∃ e, idealAlice.decrypt idealSuite (constRng 2)
        (headerOnly ⟨idealSuite.x25519.publicKey idealSecret, 0, 0, .idle 1, 1⟩) [] [] =
      (.error e, idealAlice) := by
  have hheader := deserialize_headerOnly ⟨idealSuite.x25519.publicKey idealSecret, 0, 0, .idle 1, 1⟩
  have hearly : RefusesEarly idealAlice
      ⟨idealSuite.x25519.publicKey idealSecret, 0, 0, .idle 1, 1⟩ := by
    have hremote : idealAlice.dhRemote = some (idealSuite.x25519.publicKey idealSecret) := rfl
    refine ⟨SkippedKeys.find_new, ?_⟩
    rw [if_pos hremote]
    intro c hc
    cases hc
  obtain ⟨e, s', hcall⟩ := decrypt_of_refusesEarly (constRng 2) [] [] hheader hearly
  have hsame : s' = idealAlice := by
    refine (rejected_unchanged_iff idealSuite _ _ _ _ _ hcall).mpr ?_
    intro header hheader'
    obtain rfl := Except.ok.inj (hheader.symm.trans hheader')
    exact hearly
  rw [hsame] at hcall
  exact ⟨e, hcall⟩

/-- A ratchet key that is not refused at once becomes the remote key, whoever sent it. -/
lemma Resolves.dhRemote_eq {r : Result Key} (h : Resolves C rng header s r s')
    (hnone : s.skipped.find header.dhPublicKey header.messageNumber = none)
    (hearly : ¬ RefusesEarly s header) : s'.dhRemote = some header.dhPublicKey := by
  have hratchet : ∀ {s₁}, Ratchets C rng header s (.ok ()) s₁ →
      s₁.dhRemote = some header.dhPublicKey := by
    intro s₁ hr
    cases hr with
    | same hdh => exact hdh
    | stepped _ _ => rfl
  cases h with
  | stored hkey => exact absurd (hnone.symm.trans hkey) (by simp)
  | refused _ hr =>
      cases hr with
      | refused hdh hskip =>
          refine absurd ⟨hnone, ?_⟩ hearly
          rw [if_neg hdh]
          exact hskip.of_error.2
  | tooFar _ hr hskip => exact hskip.dhRemote.trans (hratchet hr)
  | noChain _ hr hskip _ => exact hskip.dhRemote.trans (hratchet hr)
  | advanced _ hr hskip _ => exact hskip.dhRemote.trans (hratchet hr)

/-- **A forged message changes the session that rejects it.**  Bob, right after the handshake, is
handed a header with a ratchet key of the attacker's choice and no ciphertext at all.  He returns
an error, and the attacker's key is his remote key from then on. -/
theorem forged_message_changes_session :
    ∃ e s', idealBob.decrypt idealSuite (constRng 2) (headerOnly ⟨7, 0, 0, .idle 1, 1⟩) [] [] =
        (.error e, s') ∧
      idealBob.dhRemote = none ∧ s'.dhRemote = some 7 ∧ s' ≠ idealBob := by
  have hopens := opens_decrypt idealSuite (constRng 2) (headerOnly ⟨7, 0, 0, .idle 1, 1⟩) [] []
    idealBob
  have herror : ∃ e, (idealBob.decrypt idealSuite (constRng 2)
      (headerOnly ⟨7, 0, 0, .idle 1, 1⟩) [] []).1 = .error e := by
    generalize idealBob.decrypt idealSuite (constRng 2) (headerOnly ⟨7, 0, 0, .idle 1, 1⟩) [] [] =
      out at hopens ⊢
    obtain ⟨r, s'⟩ := out
    cases hopens with
    | garbled _ | noEcKey _ _ | noPqKey _ _ _ => exact ⟨_, rfl⟩
    | keyed _ _ _ => exact ⟨.invalidCiphertext, rfl⟩
  have hremote : (idealBob.decrypt idealSuite (constRng 2)
      (headerOnly ⟨7, 0, 0, .idle 1, 1⟩) [] []).2.dhRemote = some 7 := by
    rcases hopens.exists_resolves with
      ⟨⟨e, hgarbled⟩, -⟩ | ⟨header, r, s₁, spqr, hheader, hec, hs', -⟩
    · rw [deserialize_headerOnly] at hgarbled
      cases hgarbled
    · rw [deserialize_headerOnly] at hheader
      obtain rfl := Except.ok.inj hheader
      rw [hs']
      refine hec.dhRemote_eq rfl ?_
      rintro ⟨-, hif⟩
      rw [if_neg (by simp [idealBob, initializeBob])] at hif
      obtain ⟨c, hc, -⟩ := hif
      cases hc
  obtain ⟨e, he⟩ := herror
  generalize idealBob.decrypt idealSuite (constRng 2) (headerOnly ⟨7, 0, 0, .idle 1, 1⟩) [] [] =
    out at he hremote ⊢
  obtain ⟨r, s'⟩ := out
  have hnone : idealBob.dhRemote = none := rfl
  refine ⟨e, s', congrArg (·, s') he, hnone, hremote, ?_⟩
  intro hsame
  rw [hsame] at hremote
  exact absurd (hnone.symm.trans hremote) (by simp)

end Rejected

end RatchetSession

end Hushwire
