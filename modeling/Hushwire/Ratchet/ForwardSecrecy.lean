import Hushwire.Handshake.FirstContact
import Hushwire.Ratchet.EcMoves
import Hushwire.Ratchet.Ideal

/-!
# Forward secrecy of the EC ratchet

A session takes keys from its Diffie-Hellman ratchet and its two chains, stores those of messages
that are late, and erases what it has used.  `EcFrontier` reads that as a `Secrecy.Frontier`: the
keys hang in a tree under the shared secret, with the edges of `KDF_RK` and `KDF_CK`, and the slots
are the root key, the two chain keys and the entries of the store of skipped keys.

Every move of the ratchet expands slots, empties them or overwrites them (`EcBooks.move`).  Two
results about runs follow.

* `ec_key_never_reused`: no EC message key is taken twice, neither for two messages of one direction
  nor once for sending and once for receiving.
* `forward_secrecy`: whoever gets hold of everything a session holds, and of every key in the world
  that is not of this EC ratchet, cannot compute the AEAD key of any message that was sent or
  received before.  In particular all Diffie-Hellman outputs and the whole post-quantum ratchet may
  be known.
-/

namespace Hushwire

open Duplex Secrecy

variable {Key : Type}

/-! ## The tree of keys -/

/-- The derivations of the EC ratchet: `KDF_RK` from the root key, `KDF_CK` from the chain key. -/
inductive Hash.EcParent (H : Hash Key) (p : Key) : Key → Prop
  | root (dhOutput : Key) : EcParent H p (H.kdfRk p dhOutput).rootKey
  | base (dhOutput : Key) : EcParent H p (H.kdfRk p dhOutput).chainKey
  | chain : EcParent H p (H.kdfCk p).chainKey
  | message : EcParent H p (H.kdfCk p).messageKey

/-- A key of the EC ratchet that starts from `sharedSecret`. -/
def Hash.EcKey (H : Hash Key) (sharedSecret k : Key) : Prop :=
  Relation.ReflTransGen H.EcParent sharedSecret k

section Tree

variable {H : Hash Key} {bytes : Set Bytes} {sharedSecret p c : Key}

lemma Hash.EcParent.cases (h : H.EcParent p c) :
    (∃ dhOutput i, c = H.hkdf (.inl dhOutput) (some p) (ascii "HushwireRatchet") 64 i) ∨
      ∃ data, c = H.hmac p data := by
  cases h with
  | root d => exact .inl ⟨d, 0, rfl⟩
  | base d => exact .inl ⟨d, 1, rfl⟩
  | chain => exact .inr ⟨_, rfl⟩
  | message => exact .inr ⟨_, rfl⟩

lemma Hash.EcParent.needs (hH : H.Free) (h : H.EcParent p c) : Needs (H.Computes bytes) p c := by
  rcases h.cases with ⟨d, i, rfl⟩ | ⟨data, rfl⟩
  · exact hH.needs_salt
  · exact hH.needs_hmac

lemma Hash.EcParent.computes (bytes : Set Bytes) (h : H.EcParent p c) :
    ∃ inputs, H.Computes bytes inputs c := by
  rcases h.cases with ⟨d, i, rfl⟩ | ⟨data, rfl⟩
  · exact ⟨_, .hkdf _ _ _ _ _ (by simp)⟩
  · exact ⟨_, .hmac _ _⟩

/-- A shared secret that is no key of an EC ratchet is the root of a tree. -/
lemma ecTree (hH : H.Free) (hss : ∀ p, ¬ H.EcParent p sharedSecret) :
    Tree H.EcParent sharedSecret where
  unique p p' c h h' := by
    rcases h.cases with ⟨d, i, rfl⟩ | ⟨data, rfl⟩
    · rcases h'.cases with ⟨d', i', heq⟩ | ⟨data', heq⟩
      · exact (hH.hkdf_injective _ _ _ _ _ _ _ _ _ _ heq).2.1
      · exact absurd heq (hH.hkdf_ne_hmac _ _ _ _ _ _ _)
    · rcases h'.cases with ⟨d', i', heq⟩ | ⟨data', heq⟩
      · exact absurd heq.symm (hH.hkdf_ne_hmac _ _ _ _ _ _ _)
      · exact (hH.hmac_injective _ _ _ _ heq).1
  orphan := hss

lemma kdfRk_ne (hH : H.Free) (rk d : Key) : (H.kdfRk rk d).chainKey ≠ (H.kdfRk rk d).rootKey :=
  fun heq => one_ne_zero (hH.hkdf_injective _ _ _ _ _ _ _ _ _ _ heq).2.2.2

lemma kdfCk_ne (hH : H.Free) (ck : Key) : (H.kdfCk ck).messageKey ≠ (H.kdfCk ck).chainKey := by
  intro heq
  have hdata : ([0x01] : Bytes) = [0x02] := (hH.hmac_injective _ _ _ _ heq).2
  exact absurd hdata (by decide)

end Tree

/-! ## The books -/

section Books

variable [DecidableEq Key]

/-- The keys of the EC ratchet that a session holds and has erased. -/
def EcFrontier (H : Hash Key) (sharedSecret : Key) (s : RatchetSession Key) (erased : Set Key) :
    Prop :=
  Frontier H.EcParent sharedSecret s.ecSlot erased

/-- Some keys have been erased, each of those used among them, and no key was used twice. -/
def EcBooks (H : Hash Key) (sharedSecret : Key) (s : RatchetSession Key) (used : List Key) : Prop :=
  ∃ erased, EcFrontier H sharedSecret s erased ∧ (∀ k ∈ used, k ∈ erased) ∧ used.Nodup

variable {C : Suite Key} {H : Hash Key} {sharedSecret : Key} {s s' : RatchetSession Key}
  {used : List Key}

namespace EcBooks

/-- Before the first step the responder holds the shared secret and nothing else. -/
lemma initializeBob (bobDhKeypair : Bytes × Key) :
    EcBooks C.hash sharedSecret (.initializeBob C sharedSecret bobDhKeypair) [] := by
  refine ⟨∅, Frontier.start (p := .root) ?_, by simp, List.nodup_nil⟩
  intro q c hq
  cases q with
  | root => exact ⟨rfl, (Option.some.inj hq).symm⟩
  | sending | receiving => cases hq
  | skipped dh n =>
      have hfind : (SkippedKeys.new : SkippedKeys Key).find dh n = some c := hq
      rw [SkippedKeys.find_new] at hfind
      cases hfind

/-- The books do not look at anything but the slots. -/
lemma congr (h : EcBooks H sharedSecret s used) (hslot : s'.ecSlot = s.ecSlot) :
    EcBooks H sharedSecret s' used := by
  obtain ⟨erased, hfrontier, hused⟩ := h
  refine ⟨erased, ?_, hused⟩
  rw [EcFrontier, hslot]
  exact hfrontier

/-- A key that was erased without being used. -/
lemma forget {k : Key} (h : EcBooks H sharedSecret s (used ++ [k])) :
    EcBooks H sharedSecret s used := by
  obtain ⟨erased, hfrontier, hused, hnodup⟩ := h
  exact ⟨erased, hfrontier, fun k hk => hused k (List.mem_append_left _ hk),
    hnodup.sublist (List.sublist_append_left _ _)⟩

/-- Erasing keys on the way, none of which is used. -/
lemma of_frontier (h : EcBooks H sharedSecret s used) (more : Set Key)
    (hstep : ∀ erased, EcFrontier H sharedSecret s erased →
      EcFrontier H sharedSecret s' (erased ∪ more)) : EcBooks H sharedSecret s' used := by
  obtain ⟨erased, hfrontier, hused, hnodup⟩ := h
  exact ⟨_, hstep erased hfrontier, fun k hk => .inl (hused k hk), hnodup⟩

/-- Using a key that had not been erased before. -/
lemma use {k : Key} (h : EcBooks H sharedSecret s used) (more : Set Key) (hk : k ∈ more)
    (hstep : ∀ erased, EcFrontier H sharedSecret s erased →
      EcFrontier H sharedSecret s' (erased ∪ more) ∧ k ∉ erased) :
    EcBooks H sharedSecret s' (used ++ [k]) := by
  obtain ⟨erased, hfrontier, hused, hnodup⟩ := h
  obtain ⟨hfrontier', hnew⟩ := hstep erased hfrontier
  refine ⟨_, hfrontier', ?_, List.nodup_append_comm.mp
    (hnodup.cons fun hmem => hnew (hused k hmem))⟩
  intro k' hk'
  rcases List.mem_append.mp hk' with hk' | hk'
  · exact .inl (hused k' hk')
  · rw [List.mem_singleton.mp hk']
    exact .inr hk

/-! ### Sending -/

/-- The next key of the sending chain. -/
lemma advanceSending (hH : H.Free) (hT : Tree H.EcParent sharedSecret) {chain : ChainState Key}
    (hc : s.sendingChain = some chain) (h : EcBooks H sharedSecret s used) :
    EcBooks H sharedSecret { s with sendingChain := some (chain.advance H).2 }
      (used ++ [(chain.advance H).1]) := by
  have hk : s.ecSlot .sending = some chain.chainKey := by simp [RatchetSession.ecSlot, hc]
  refine h.use ({chain.chainKey} ∪ {(chain.advance H).1}) (.inr rfl) fun erased hfrontier =>
     ⟨?_, (hfrontier.new_child hT hk .message).1⟩
  refine Frontier.advance hT hfrontier hk .chain .message (kdfCk_ne hH _) ?_
  intro r d hr
  cases r with
  | sending => exact .inl ⟨rfl, (Option.some.inj hr).symm⟩
  | root | receiving | skipped => exact .inr ⟨by simp, hr⟩

/-! ### Receiving -/

/-- One turn of the loop of `skip_receiving_messages`: the key goes into the store, unless the store
is full. -/
lemma storeNext (hH : H.Free) (hT : Tree H.EcParent sharedSecret) {chain : ChainState Key}
    (hc : s.receivingChain = some chain) (n : ℕ) (dh : Key) (h : EcBooks H sharedSecret s used) :
    EcBooks H sharedSecret { s with
      receivingChain := some (chain.advance H).2
      skipped := s.skipped.insert n dh (chain.advance H).1 } used := by
  have hk : s.ecSlot .receiving = some chain.chainKey := by simp [RatchetSession.ecSlot, hc]
  refine h.of_frontier {chain.chainKey} fun erased hfrontier => ?_
  refine Frontier.split (q := .skipped dh n) hT hfrontier hk .chain .message (kdfCk_ne hH _) ?_
  intro r d hr
  cases r with
  | receiving => exact .inl ⟨rfl, (Option.some.inj hr).symm⟩
  | root | sending => exact .inr (.inr ⟨by simp, hr⟩)
  | skipped dh' n' =>
      have hfind : (s.skipped.insert n dh (chain.advance H).1).find dh' n' = some d := hr
      rcases lt_or_ge s.skipped.len maxSkip with hroom | hfull
      · rw [SkippedKeys.find_insert hroom] at hfind
        split at hfind
        · rename_i hthis
          exact .inr (.inl ⟨by rw [hthis.1, hthis.2], (Option.some.inj hfind).symm⟩)
        · exact .inr (.inr ⟨by simp, hfind⟩)
      · rw [SkippedKeys.insert_of_full hfull] at hfind
        exact .inr (.inr ⟨by simp, hfind⟩)

/-- The receiving half of a Diffie-Hellman step. -/
lemma expandReceiving (hH : H.Free) (hT : Tree H.EcParent sharedSecret) (dhOutput : Key)
    (h : EcBooks H sharedSecret s used) : EcBooks H sharedSecret { s with
      rootKey := (H.kdfRk s.rootKey dhOutput).rootKey
      receivingChain := some (.new (H.kdfRk s.rootKey dhOutput).chainKey) } used := by
  refine h.of_frontier {s.rootKey} fun erased hfrontier => ?_
  refine Frontier.split (p := .root) (q := .receiving) hT hfrontier rfl (.root dhOutput)
    (.base dhOutput) (kdfRk_ne hH _ _) ?_
  intro r d hr
  cases r with
  | root => exact .inl ⟨rfl, (Option.some.inj hr).symm⟩
  | receiving => exact .inr (.inl ⟨rfl, (Option.some.inj hr).symm⟩)
  | sending | skipped => exact .inr (.inr ⟨by simp, hr⟩)

/-- The sending half of a Diffie-Hellman step. -/
lemma expandSending (hH : H.Free) (hT : Tree H.EcParent sharedSecret) (dhOutput : Key)
    (h : EcBooks H sharedSecret s used) : EcBooks H sharedSecret { s with
      rootKey := (H.kdfRk s.rootKey dhOutput).rootKey
      sendingChain := some (.new (H.kdfRk s.rootKey dhOutput).chainKey) } used := by
  refine h.of_frontier {s.rootKey} fun erased hfrontier => ?_
  refine Frontier.split (p := .root) (q := .sending) hT hfrontier rfl (.root dhOutput)
    (.base dhOutput) (kdfRk_ne hH _ _) ?_
  intro r d hr
  cases r with
  | root => exact .inl ⟨rfl, (Option.some.inj hr).symm⟩
  | sending => exact .inr (.inl ⟨rfl, (Option.some.inj hr).symm⟩)
  | receiving | skipped => exact .inr (.inr ⟨by simp, hr⟩)

/-- A stored key is used. -/
lemma takeStored {dh key : Key} {n : ℕ} (hkey : s.skipped.find dh n = some key)
    (h : EcBooks H sharedSecret s used) :
    EcBooks H sharedSecret { s with skipped := s.skipped.remove dh n } (used ++ [key]) := by
  have hk : s.ecSlot (.skipped dh n) = some key := hkey
  refine h.use {key} (Set.mem_singleton key) fun erased hfrontier =>
    ⟨?_, hfrontier.notErased _ _ hk⟩
  refine Frontier.take hfrontier hk ?_
  intro r d hr
  cases r with
  | root | sending | receiving => exact ⟨by simp, hr⟩
  | skipped dh' n' =>
      have hfind : (s.skipped.remove dh n).find dh' n' = some d := hr
      rw [SkippedKeys.find_remove] at hfind
      split at hfind
      · cases hfind
      · rename_i hother
        exact ⟨by simpa using hother, hfind⟩

/-- The next key of the receiving chain is used. -/
lemma advanceReceiving (hH : H.Free) (hT : Tree H.EcParent sharedSecret) {chain : ChainState Key}
    (hc : s.receivingChain = some chain) (h : EcBooks H sharedSecret s used) :
    EcBooks H sharedSecret { s with receivingChain := some (chain.advance H).2 }
      (used ++ [(chain.advance H).1]) := by
  have hk : s.ecSlot .receiving = some chain.chainKey := by simp [RatchetSession.ecSlot, hc]
  refine h.use ({chain.chainKey} ∪ {(chain.advance H).1}) (.inr rfl) fun erased hfrontier =>
     ⟨?_, (hfrontier.new_child hT hk .message).1⟩
  refine Frontier.advance hT hfrontier hk .chain .message (kdfCk_ne hH _) ?_
  intro r d hr
  cases r with
  | receiving => exact .inl ⟨rfl, (Option.some.inj hr).symm⟩
  | root | sending | skipped => exact .inr ⟨by simp, hr⟩

/-- **Every move keeps the books.** -/
theorem move (hH : H.Free) (hT : Tree H.EcParent sharedSecret) {used' : List Key}
    (hmove : EcMove H (s, used) (s', used')) (h : EcBooks H sharedSecret s used) :
    EcBooks H sharedSecret s' used' := by
  cases hmove with
  | still hslot => exact h.congr hslot
  | send hc => exact h.advanceSending hH hT hc
  | store hc n dh => exact h.storeNext hH hT hc n dh
  | step d₁ d₂ => exact ((h.expandReceiving hH hT d₁).expandSending hH hT d₂).congr rfl
  | take hkey => exact h.takeStored hkey
  | receive hc => exact h.advanceReceiving hH hT hc
  | forget => exact h.forget

/-- The EC half of a delivery, whatever it makes of the message. -/
lemma resolves (hH : C.hash.Free) (hT : Tree C.hash.EcParent sharedSecret) {rng : Rng}
    {header : MessageHeader Key} {r : Result Key}
    (hresolves : RatchetSession.Resolves C rng header s r s')
    (h : EcBooks C.hash sharedSecret s used) :
    EcBooks C.hash sharedSecret s' (used ++ r.toOption.toList) :=
  (EcMoves.resolves hresolves).preserves (fun hmove h => h.move hH hT hmove) h

end EcBooks

end Books

/-! ## Runs -/

section Runs

variable [DecidableEq Key] {C : Suite Key} {sharedSecret : Key}

/-- **Every call keeps the books.** -/
theorem ecBooks_inductive (hH : C.hash.Free) (hT : Tree C.hash.EcParent sharedSecret) :
    (sessionMachine C).Inductive
      (fun s log => EcBooks C.hash sharedSecret s (ecKeysUsed log)) :=
  ecMoves_inductive (fun hmove h => h.move hH hT hmove)

/-- The books of a session after any calls. -/
theorem RatchetSession.Starts.ecBooks (hH : C.hash.Free) (hT : Tree C.hash.EcParent sharedSecret)
    {side : Side} {start : RatchetSession Key}
    (hstart : RatchetSession.Starts C sharedSecret side start)
    (calls : List (Call SessionInput RatchetMessage)) :
    EcBooks C.hash sharedSecret ((sessionMachine C).exec (start, []) calls).1
      (ecKeysUsed ((sessionMachine C).exec (start, []) calls).2) := by
  refine (ecBooks_inductive hH hT).exec calls (start, []) ?_
  cases hstart with
  | alice rng bobDhPublic =>
      -- Alice has made the first sending half with Bob's prekey
      exact ((EcBooks.initializeBob (rng.fill 32, C.x25519.publicKey (rng.fill 32))).expandSending
        hH hT (C.x25519.diffieHellman (rng.fill 32) bobDhPublic)).congr rfl
  | bob bobDhKeypair => exact .initializeBob bobDhKeypair

/-- **No EC message key is taken twice.**  Take a session of either role and any calls of `encrypt`
and `decrypt`, on genuine, replayed or forged messages.  The EC keys of the messages it sealed and
the EC keys it took for messages it was handed are pairwise distinct, also across the two
directions. -/
theorem ec_key_never_reused (hH : C.hash.Free) (hss : ∀ p, ¬ C.hash.EcParent p sharedSecret)
    {side : Side} {start : RatchetSession Key}
    (hstart : RatchetSession.Starts C sharedSecret side start)
    (calls : List (Call SessionInput RatchetMessage)) :
    (ecKeysUsed ((sessionMachine C).exec (start, []) calls).2).Nodup := by
  obtain ⟨-, -, -, hnodup⟩ := hstart.ecBooks hH (ecTree hH hss) calls
  exact hnodup

end Runs

/-! ## Forward secrecy -/

/-- The AEAD key of the message with these two keys. -/
def Hash.aeadKey (H : Hash Key) (ecMk pqMk : Key) : Key :=
  Aead.deriveEncKey H (H.kdfHybrid ecMk pqMk)

/-- A key of the EC ratchet that starts from `sharedSecret`, or what a message makes of it. -/
def Hash.OfEcRatchet (H : Hash Key) (sharedSecret k : Key) : Prop :=
  ∃ ec, H.EcKey sharedSecret ec ∧ (k = ec ∨ ∃ pqMk, k = H.kdfHybrid ec pqMk ∨ k = H.aeadKey ec pqMk)

section Secrets

variable {H : Hash Key} {bytes : Set Bytes} {sharedSecret k : Key}

lemma Hash.EcKey.cases (h : H.EcKey sharedSecret k) :
    k = sharedSecret ∨ ∃ p, H.EcParent p k := by
  rcases Relation.ReflTransGen.cases_tail h with rfl | ⟨p, -, hp⟩
  · exact .inl rfl
  · exact .inr ⟨p, hp⟩

/-- An output of HKDF that anybody can compute, under another info string, is no key of the EC
ratchet. -/
lemma Hash.EcKey.ne_hkdf (hH : H.Free) (hss : ∀ inputs, ¬ H.Computes bytes inputs sharedSecret)
    (h : H.EcKey sharedSecret k) {ikm : Key ⊕ Bytes} {salt : Option Key} {info : Bytes} {len i : ℕ}
    (hikm : ∀ b, ikm = .inr b → b ∈ bytes) (hinfo : ascii "HushwireRatchet" ≠ info) :
    k ≠ H.hkdf ikm salt info len i := by
  rintro rfl
  rcases h.cases with heq | ⟨p, hp⟩
  · have hcomp : H.Computes bytes _ (H.hkdf ikm salt info len i) := .hkdf _ _ _ _ _ hikm
    rw [heq] at hcomp
    exact hss _ hcomp
  · rcases hp.cases with ⟨d, j, heq⟩ | ⟨data, heq⟩
    · exact hH.hkdf_ne hinfo heq.symm
    · exact hH.hkdf_ne_hmac _ _ _ _ _ _ _ heq

/-- The keys of messages are no keys of the EC ratchet. -/
lemma Hash.EcKey.ne_message (hH : H.Free) (hss : ∀ inputs, ¬ H.Computes bytes inputs sharedSecret)
    (h : H.EcKey sharedSecret k) (ec pqMk : Key) :
    k ≠ H.kdfHybrid ec pqMk ∧ k ≠ H.aeadKey ec pqMk :=
  ⟨h.ne_hkdf hH hss (by simp) (by decide), h.ne_hkdf hH hss (by simp) (by decide)⟩

/-- No key of the post-quantum half is one of the EC ratchet, or of a message. -/
lemma Hash.PqShaped.not_ofEcRatchet (hH : H.Free)
    (hss : ∀ inputs, ¬ H.Computes bytes inputs sharedSecret) (hbytes : ∀ n, beBytes 4 n ∈ bytes)
    (hpq : H.PqShaped k) : ¬ H.OfEcRatchet sharedSecret k := by
  obtain ⟨ikm, salt, info, len, i, rfl, hikm, hinfo⟩ := hpq
  -- none of the three info strings starts like one of the post-quantum half
  have hne : ∀ other, ¬ (Hash.spqrProtocolInfo <+: other ∨ Auth.protocolInfo <+: other) →
      info ≠ other := fun other hother heq => hother (heq ▸ hinfo)
  rintro ⟨ec, hec, heq | ⟨pqMk, heq | heq⟩⟩
  · refine hec.ne_hkdf hH hss ?_ (hne _ (by decide)).symm heq.symm
    intro b hb
    obtain ⟨n, rfl⟩ := hikm b hb
    exact hbytes n
  · exact hH.hkdf_ne (hne _ (by decide)) heq
  · exact hH.hkdf_ne (hne _ (by decide)) heq

end Secrets

section ForwardSecrecy

variable [DecidableEq Key] {C : Suite Key} {sharedSecret : Key}

/-- **Forward secrecy of the EC ratchet.**  Take a session of either role after any calls, on
messages of anyone's making, and give a thief all keys the session then holds, in both halves, and
every key of the world that is not of this EC ratchet: all Diffie-Hellman outputs, all KEM secrets,
the whole post-quantum ratchet.  The AEAD key of a message whose EC key the session has taken before
cannot be computed from that, whatever its PQ key is.  Assumed is that the shared secret itself
cannot be computed. -/
theorem forward_secrecy (hH : C.hash.Free) {bytes : Set Bytes} (hbytes : ∀ n, beBytes 4 n ∈ bytes)
    (hss : ∀ inputs, ¬ C.hash.Computes bytes inputs sharedSecret) {side : Side}
    {start : RatchetSession Key} (hstart : RatchetSession.Starts C sharedSecret side start)
    (calls : List (Call SessionInput RatchetMessage)) {world : Set Key}
    (hworld : ∀ k ∈ world, ¬ C.hash.OfEcRatchet sharedSecret k) :
    ∀ ecMk ∈ ecKeysUsed ((sessionMachine C).exec (start, []) calls).2, ∀ pqMk,
      ¬ Derives (C.hash.Computes bytes)
        (((sessionMachine C).exec (start, []) calls).1.secrets ∪ world)
        (C.hash.aeadKey ecMk pqMk) := by
  intro ecMk hused pqMk
  obtain ⟨erased, hfrontier, husedErased, -⟩ := hstart.ecBooks hH (ecTree hH
    (fun p hp => (hp.computes bytes).elim hss)) calls
  have hspqr := hstart.spqrHolding calls
  have hecKey : ∀ k ∈ erased, C.hash.EcKey sharedSecret k :=
    fun k hk => hfrontier.descends k (.inr hk)
  -- the erased keys and what messages make of them
  let messages : Set Key := {k | ∃ ec ∈ erased, ∃ pqMk,
    k = C.hash.kdfHybrid ec pqMk ∨ k = C.hash.aeadKey ec pqMk}
  have hguarded : Guarded (C.hash.Computes bytes) (erased ∪ messages) := by
    refine (hfrontier.guarded (fun _ _ hp => hp.needs hH) hss).union ?_
    rintro k ⟨ec, hec, pqMk, rfl | rfl⟩
    · exact ⟨ec, .inl hec, hH.needs_ikm⟩
    · exact ⟨C.hash.kdfHybrid ec pqMk, .inr ⟨ec, hec, pqMk, .inl rfl⟩, hH.needs_ikm⟩
  have hsecret : ∀ k ∈ erased ∪ messages, C.hash.OfEcRatchet sharedSecret k := by
    rintro k (hk | ⟨ec, hec, pqMk, hk⟩)
    · exact ⟨k, hecKey k hk, .inl rfl⟩
    · exact ⟨ec, hecKey ec hec, .inr ⟨pqMk, hk⟩⟩
  refine hguarded.not_derives ?_ (.inr ⟨ecMk, husedErased ecMk hused, pqMk, .inr rfl⟩)
  rintro k ((⟨slot, hslot⟩ | hpq) | hk) hmem
  · rcases hmem with hmem | ⟨ec, -, pqMk, hk⟩
    · exact hfrontier.notErased slot k hslot hmem
    · have hne := (show C.hash.EcKey sharedSecret k from
        hfrontier.descends k (.inl ⟨slot, hslot⟩)).ne_message hH hss ec pqMk
      exact hk.elim hne.1 hne.2
  · exact (hspqr.pqShaped hpq).not_ofEcRatchet hH hss hbytes (hsecret k hmem)
  · exact hworld k hk (hsecret k hmem)

end ForwardSecrecy

/-! ## The first exchange -/

section FirstExchange

variable [DecidableEq Key] {C : Suite Key} (hP : C.toPrims.Correct)
  (hseals : ∀ rng key plaintext ad,
    ∃ ciphertext, Aead.encrypt C.hash C.xchacha rng key plaintext ad = .ok ciphertext)

include hP hseals

/-- Alice's first message, and the keys it takes, where the AEAD seals everything. -/
lemma initializeAlice_send (rng : Rng) (sharedSecret bobDhPublic : Key) (input : SessionInput) :
    let alice := RatchetSession.initializeAlice C rng sharedSecret bobDhPublic
    ∃ header ecMk pqMk message spqr,
      alice.spqr.ratchetSendKey C.toPrims input.rng =
          (.ok (header.braidMsg, header.pqMessageNumber, pqMk), spqr) ∧
        ((sessionMachine C).exec (alice, []) [.send input]).2 =
          ((spqrMachine C.toPrims).send alice.spqr input.rng).2.2.map .spqr ++
            [.sealed header ecMk pqMk input.plaintext message] := by
  intro alice
  obtain ⟨m, pqMk, spqr, hpq, -⟩ := first_send hP sharedSecret input.rng
  obtain ⟨ciphertext, -, hcall⟩ :=
    sessionMachine_send_of_keys (s := alice) hseals input rfl rfl hpq
  have hlog : ((sessionMachine C).exec (alice, []) [.send input]).2 =
      ((sessionMachine C).send alice input).2.2 := List.nil_append _
  rw [hcall] at hlog
  exact ⟨⟨alice.dhSelfPublic, _, _, m, 1⟩, _, pqMk, _, spqr, hpq, hlog⟩

/-- **The first exchange.**  Bob opens Alice's first message with the keys that it was sealed with,
and has keys to answer. -/
theorem first_exchange (hX : C.x25519.Commutes) (hA : C.xchacha.Correct) (hW : C.postcard.Correct)
    (rng : Rng) (sharedSecret : Key) (bobSecret : Bytes) {input input' : SessionInput}
    (hself : input'.identity = input.peerIdentity) (hpeer : input'.peerIdentity = input.identity) :
    let alice := RatchetSession.initializeAlice C rng sharedSecret (C.x25519.publicKey bobSecret)
    let bob := RatchetSession.initializeBob C sharedSecret (bobSecret, C.x25519.publicKey bobSecret)
    ∃ ecMk message alice' evs bob' evs' header,
      (sessionMachine C).send alice input = (alice', some message, evs) ∧ ecKeysUsed evs = [ecMk] ∧
        (sessionMachine C).recv bob message input' = (bob', evs') ∧ ecKeysUsed evs' = [ecMk] ∧
        .opened header input.plaintext ∈ evs' ∧
        ∀ answer, ∃ ecMk', ecKeysUsed ((sessionMachine C).send bob' answer).2.2 = [ecMk'] := by
  intro alice bob
  obtain ⟨m, pqMk, spqr, spqr', hsend, hrecv, -, hanswers⟩ :=
    exists_first_spqr_key hP sharedSecret input.rng
  obtain ⟨ciphertext, hsealed, hcall⟩ :=
    sessionMachine_send_of_keys (s := alice) hseals input rfl rfl hsend
  obtain ⟨session, hec, -, hspqr, hpending, hchain⟩ := ecMessageKey_first hX input'.rng sharedSecret
    (rng.fill 32) bobSecret m
  have hopened := decrypt_of_keys hA hW hsealed hec (by rw [hspqr]; exact hrecv)
  rw [← hself, ← hpeer] at hopened
  have hreceive := sessionMachine_recv_of_opened (MessageHeader.deserialize_serialize hW _) hec
    hopened
  refine ⟨_, _, _, _, _, _, _, hcall, ecKeysUsed_sealed .., hreceive, ?_,
    List.mem_append_right _ (List.mem_cons_of_mem _ (List.mem_append_right _
      (List.mem_singleton_self _))), ?_⟩
  · rw [ecKeysUsed_append, ecKeysUsed_ratchetEvents, List.nil_append]
    show _ :: ecKeysUsed _ = _
    rw [ecKeysUsed_append, ecKeysUsed_map]
    rfl
  · intro answer
    obtain ⟨m', n, pqMk', spqr'', hanswer⟩ := hanswers answer.rng
    obtain ⟨chain, hsome⟩ := Option.isSome_iff_exists.mp hchain
    obtain ⟨ciphertext', -, hcall'⟩ := sessionMachine_send_of_keys
      (s := { session with spqr := spqr' }) hseals answer hpending hsome hanswer
    rw [hcall']
    exact ⟨_, ecKeysUsed_sealed ..⟩

end FirstExchange

/-! ## An instance -/

/-- The ideal suite with KDFs whose outputs are all distinct. -/
noncomputable def freeSuite : Suite ℕ :=
  { idealSuite with hash := Ideal.freeHash }

lemma freeSuite_correct : freeSuite.toPrims.Correct := ⟨Ideal.kem_correct, Ideal.codec_correct⟩

/-- The shared secret 0 is no key of an EC ratchet. -/
lemma freeSuite_orphan (p : ℕ) : ¬ freeSuite.hash.EcParent p 0 := by
  intro hp
  obtain ⟨inputs, hcomp⟩ := hp.computes ∅
  exact Ideal.freeHash_not_computes Nat.two_pos ∅ inputs hcomp

/-- Alice's session under it. -/
noncomputable def freeAlice : RatchetSession ℕ :=
  .initializeAlice freeSuite (constRng 1) 0 (freeSuite.x25519.publicKey idealSecret)

lemma freeAlice_send (input : SessionInput) : ∃ header ecMk pqMk message spqr,
    freeAlice.spqr.ratchetSendKey freeSuite.toPrims input.rng =
        (.ok (header.braidMsg, header.pqMessageNumber, pqMk), spqr) ∧
      ((sessionMachine freeSuite).exec (freeAlice, []) [.send input]).2 =
        ((spqrMachine freeSuite.toPrims).send freeAlice.spqr input.rng).2.2.map .spqr ++
          [.sealed header ecMk pqMk input.plaintext message] :=
  initializeAlice_send freeSuite_correct (fun _ _ _ _ => ⟨_, rfl⟩) _ _ _ input

/-- Nothing to say, and no randomness to say it with. -/
def idleInput : SessionInput := ⟨zeroRng, [], [], []⟩

lemma freeAlice_starts : RatchetSession.Starts freeSuite 0 .alice freeAlice := .alice _ _

/-- Bob's session. -/
noncomputable def freeBob : RatchetSession ℕ :=
  .initializeBob freeSuite 0 (idealSecret, freeSuite.x25519.publicKey idealSecret)

lemma freeBob_starts : RatchetSession.Starts freeSuite 0 .bob freeBob := .bob _

/-- Alice's first message, as Bob opens and answers it. -/
lemma free_exchange (input input' : SessionInput) (hself : input'.identity = input.peerIdentity)
    (hpeer : input'.peerIdentity = input.identity) :
    ∃ ecMk message alice' evs bob' evs' header,
      (sessionMachine freeSuite).send freeAlice input = (alice', some message, evs) ∧
        ecKeysUsed evs = [ecMk] ∧
        (sessionMachine freeSuite).recv freeBob message input' = (bob', evs') ∧
        ecKeysUsed evs' = [ecMk] ∧ .opened header input.plaintext ∈ evs' ∧
        ∀ answer, ∃ ecMk', ecKeysUsed ((sessionMachine freeSuite).send bob' answer).2.2 = [ecMk'] :=
  first_exchange freeSuite_correct (fun _ _ _ _ => ⟨_, rfl⟩) Ideal.x25519_commutes
    Ideal.xchacha_correct Ideal.postcard_correct (constRng 1) 0 idealSecret hself hpeer

/-- The key that Bob takes for Alice's first message, and the key of his answer. -/
theorem ec_key_never_reused_both_directions : ∃ message taken made,
    ecKeysUsed ((sessionMachine freeSuite).exec (freeBob, [])
        [.recv message idleInput, .send idleInput]).2 = [taken, made] ∧ taken ≠ made := by
  obtain ⟨ecMk, message, _, _, bob', evs', _, -, -, hreceive, htaken, -, hanswers⟩ :=
    free_exchange idleInput idleInput rfl rfl
  obtain ⟨ecMk', hmade⟩ := hanswers idleInput
  have hkeys : ecKeysUsed ((sessionMachine freeSuite).exec (freeBob, [])
      [.recv message idleInput, .send idleInput]).2 = [ecMk, ecMk'] := by
    simp only [Machine.exec_cons, Machine.exec_nil, Machine.call_send, Machine.call_recv, hreceive,
      List.nil_append, ecKeysUsed_append, htaken, hmade, List.singleton_append]
  have hnodup := ec_key_never_reused Ideal.freeHash_free freeSuite_orphan freeBob_starts
    [.recv message idleInput, .send idleInput]
  rw [hkeys] at hnodup
  exact ⟨message, ecMk, ecMk', hkeys, List.ne_of_not_mem_cons (List.nodup_cons.mp hnodup).1⟩

/-- A thief who takes Alice's session after her first message does not get its AEAD key. -/
theorem forward_secrecy_first_message :
    ∃ ecMk ∈ ecKeysUsed ((sessionMachine freeSuite).exec (freeAlice, []) [.send idleInput]).2,
      ¬ Derives (freeSuite.hash.Computes Set.univ)
        (((sessionMachine freeSuite).exec (freeAlice, []) [.send idleInput]).1.secrets ∪ ∅)
        (freeSuite.hash.aeadKey ecMk 0) := by
  obtain ⟨header, ecMk, pqMk, message, spqr, -, hlog⟩ := freeAlice_send idleInput
  have hmem : ecMk ∈ ecKeysUsed
      ((sessionMachine freeSuite).exec (freeAlice, []) [.send idleInput]).2 := by
    rw [hlog, ecKeysUsed_sealed]
    exact List.mem_singleton_self ecMk
  refine ⟨ecMk, hmem, ?_⟩
  exact forward_secrecy Ideal.freeHash_free (fun _ => Set.mem_univ _)
    (Ideal.freeHash_not_computes Nat.two_pos Set.univ) freeAlice_starts _ (by simp) ecMk hmem 0

end Hushwire
