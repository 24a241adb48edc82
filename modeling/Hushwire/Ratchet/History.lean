import Hushwire.Ratchet.ForwardSecrecy

/-!
# The Diffie-Hellman history of a session

The root key of a session is what `KDF_RK` has made of the shared secret and of all Diffie-Hellman
outputs so far, in order (`Hash.rootChain`).  If KDF outputs do not collide, the root key determines
these outputs, and so does every EC message key for the outputs before it.

Two results about two sessions from one shared secret, each after any calls, on messages of anyone's
making.

* `common_key_common_history` — a message key that both have used stands at the same place for both:
  their Diffie-Hellman outputs agree up to there.
* `root_keys_never_match` — the root keys of initiator and responder are different at any time.  The
  initiator is an odd number of steps from the shared secret, the responder an even number.  So
  `root_key_fingerprint`, a 32-bit checksum of the root key that is meant for finding out whether
  two sides are in step, is taken of two keys that are never the same.
-/

namespace Hushwire

open Duplex Secrecy

variable {Key : Type}

/-! ## Places in the key schedule -/

namespace Hash

variable (H : Hash Key) (sharedSecret : Key)

/-- The root key after some Diffie-Hellman outputs. -/
def rootChain (outputs : List Key) : Key :=
  outputs.foldl (fun rk d => (H.kdfRk rk d).rootKey) sharedSecret

/-- The chain key at a place: after how many steps of the chain that belongs to the last of these
outputs. -/
inductive ChainAt : List Key → ℕ → Key → Prop
  | base (before : List Key) (d : Key) :
      ChainAt (before ++ [d]) 0 (H.kdfRk (H.rootChain sharedSecret before) d).chainKey
  | next {outputs : List Key} {n : ℕ} {ck : Key} (h : ChainAt outputs n ck) :
      ChainAt outputs (n + 1) (H.kdfCk ck).chainKey

/-- The message key at a place. -/
def MessageAt (outputs : List Key) (n : ℕ) (k : Key) : Prop :=
  ∃ ck, H.ChainAt sharedSecret outputs n ck ∧ k = (H.kdfCk ck).messageKey

variable {H sharedSecret}

lemma rootChain_concat (outputs : List Key) (d : Key) :
    H.rootChain sharedSecret (outputs ++ [d]) =
      (H.kdfRk (H.rootChain sharedSecret outputs) d).rootKey := List.foldl_concat ..

/-! ### The place of a key -/

/-- The shared secret is no later root key. -/
lemma rootChain_concat_ne (hss : ∀ p, ¬ H.EcParent p sharedSecret) (outputs : List Key) (d : Key) :
    H.rootChain sharedSecret (outputs ++ [d]) ≠ sharedSecret := by
  intro h
  have hparent : H.EcParent _ (H.kdfRk (H.rootChain sharedSecret outputs) d).rootKey := .root d
  rw [← rootChain_concat, h] at hparent
  exact hss _ hparent

/-- **The root key determines the outputs.** -/
theorem rootChain_injective (hH : H.Free) (hss : ∀ p, ¬ H.EcParent p sharedSecret)
    {outputs outputs' : List Key}
    (h : H.rootChain sharedSecret outputs = H.rootChain sharedSecret outputs') :
    outputs = outputs' := by
  -- the last step is undone on both sides, and the shared secret is no output
  induction outputs using List.reverseRecOn generalizing outputs' with
  | nil =>
      rcases List.eq_nil_or_concat outputs' with rfl | ⟨before', d', rfl⟩
      · rfl
      · rw [List.concat_eq_append] at h
        exact absurd h.symm (rootChain_concat_ne hss before' d')
  | append_singleton before d ih =>
      rcases List.eq_nil_or_concat outputs' with rfl | ⟨before', d', rfl⟩
      · exact absurd h (rootChain_concat_ne hss before d)
      · rw [List.concat_eq_append, rootChain_concat, rootChain_concat] at h
        obtain ⟨hd, hroot, -⟩ := hH.hkdf_injective _ _ _ _ _ _ _ _ _ _ h
        rw [List.concat_eq_append, ih hroot, Sum.inl.inj hd]

/-- A chain key stands at one place. -/
lemma ChainAt.place_unique (hH : H.Free) (hss : ∀ p, ¬ H.EcParent p sharedSecret)
    {outputs outputs' : List Key} {n n' : ℕ} {ck : Key} (h : H.ChainAt sharedSecret outputs n ck)
    (h' : H.ChainAt sharedSecret outputs' n' ck) : outputs = outputs' ∧ n = n' := by
  induction h generalizing outputs' n' with
  | base before d =>
      generalize hck : (H.kdfRk (H.rootChain sharedSecret before) d).chainKey = ck at h'
      cases h' with
      | base before' d' =>
          obtain ⟨hd, hroot, -⟩ := hH.hkdf_injective _ _ _ _ _ _ _ _ _ _ hck
          rw [rootChain_injective hH hss hroot, Sum.inl.inj hd]
          exact ⟨rfl, rfl⟩
      | next _ => exact absurd hck (hH.hkdf_ne_hmac _ _ _ _ _ _ _)
  | next _ ih =>
      rename_i n ck _
      generalize hck : (H.kdfCk ck).chainKey = ck' at h'
      cases h' with
      | base before' d' => exact absurd hck.symm (hH.hkdf_ne_hmac _ _ _ _ _ _ _)
      | next h' =>
          obtain ⟨houtputs, rfl⟩ := ih ((hH.hmac_injective _ _ _ _ hck).1 ▸ h')
          exact ⟨houtputs, rfl⟩

lemma MessageAt.place_unique (hH : H.Free) (hss : ∀ p, ¬ H.EcParent p sharedSecret)
    {outputs outputs' : List Key} {n n' : ℕ} {k : Key} (h : H.MessageAt sharedSecret outputs n k)
    (h' : H.MessageAt sharedSecret outputs' n' k) : outputs = outputs' ∧ n = n' := by
  obtain ⟨ck, hck, rfl⟩ := h
  obtain ⟨ck', hck', heq⟩ := h'
  obtain rfl := (hH.hmac_injective _ _ _ _ heq).1
  exact hck.place_unique hH hss hck'

end Hash

/-! ## The history of a session -/

/-- What the key in a slot is, by the outputs so far. -/
def EcSlot.At (H : Hash Key) (sharedSecret : Key) (outputs : List Key) (k : Key) : EcSlot Key → Prop
  | .root => k = H.rootChain sharedSecret outputs
  | .sending | .receiving => ∃ before n, before <+: outputs ∧ H.ChainAt sharedSecret before n k
  | .skipped _ _ => ∃ before n, before <+: outputs ∧ H.MessageAt sharedSecret before n k

/-- What stands at a place still does after more outputs. -/
lemma EcSlot.At.mono {H : Hash Key} {sharedSecret k : Key} {outputs : List Key} {slot : EcSlot Key}
    (hroot : slot ≠ .root) (h : slot.At H sharedSecret outputs k) (more : List Key) :
    slot.At H sharedSecret (outputs ++ more) k := by
  cases slot with
  | root => exact absurd rfl hroot
  | sending | receiving | skipped =>
      obtain ⟨before, n, hbefore, hat⟩ := h
      exact ⟨before, n, hbefore.trans (List.prefix_append _ _), hat⟩

section Session

variable [DecidableEq Key]

/-- All keys that a session holds or has used stand at places of its history. -/
structure EcHistory (H : Hash Key) (sharedSecret : Key) (outputs : List Key)
    (s : RatchetSession Key) (used : List Key) : Prop where
  slots : ∀ slot k, s.ecSlot slot = some k → slot.At H sharedSecret outputs k
  used : ∀ k ∈ used, ∃ before n, before <+: outputs ∧ H.MessageAt sharedSecret before n k

namespace EcHistory

variable {H : Hash Key} {sharedSecret : Key} {outputs used : List Key} {s s' : RatchetSession Key}
  {chain : ChainState Key}

lemma rootKey_eq (h : EcHistory H sharedSecret outputs s used) :
    s.rootKey = H.rootChain sharedSecret outputs := h.slots .root _ rfl

lemma sendingChain_at (h : EcHistory H sharedSecret outputs s used)
    (hc : s.sendingChain = some chain) :
    ∃ before n, before <+: outputs ∧ H.ChainAt sharedSecret before n chain.chainKey :=
  h.slots .sending _ (by simp [RatchetSession.ecSlot, hc])

lemma receivingChain_at (h : EcHistory H sharedSecret outputs s used)
    (hc : s.receivingChain = some chain) :
    ∃ before n, before <+: outputs ∧ H.ChainAt sharedSecret before n chain.chainKey :=
  h.slots .receiving _ (by simp [RatchetSession.ecSlot, hc])

/-- One more key of the history is used. -/
lemma use (hslots : ∀ slot k, s'.ecSlot slot = some k → slot.At H sharedSecret outputs k)
    (hused : ∀ k ∈ used, ∃ before n, before <+: outputs ∧ H.MessageAt sharedSecret before n k)
    {k : Key} (hk : ∃ before n, before <+: outputs ∧ H.MessageAt sharedSecret before n k) :
    EcHistory H sharedSecret outputs s' (used ++ [k]) := by
  refine ⟨hslots, fun k' hk' => ?_⟩
  rcases List.mem_append.mp hk' with hk' | hk'
  · exact hused k' hk'
  · rw [List.mem_singleton.mp hk']
    exact hk

omit [DecidableEq Key] in
/-- The next keys of a chain stand at places if the chain does. -/
lemma advance_at {ck : Key}
    (h : ∃ before n, before <+: outputs ∧ H.ChainAt sharedSecret before n ck) :
    (∃ before n, before <+: outputs ∧ H.ChainAt sharedSecret before n (H.kdfCk ck).chainKey) ∧
      ∃ before n, before <+: outputs ∧
        H.MessageAt sharedSecret before n (H.kdfCk ck).messageKey := by
  obtain ⟨before, n, hbefore, hat⟩ := h
  exact ⟨⟨before, n + 1, hbefore, .next hat⟩, before, n, hbefore, _, hat, rfl⟩

/-- A Diffie-Hellman step: two outputs more, and a chain for each of them. -/
lemma step (h : EcHistory H sharedSecret outputs s used) (d₁ d₂ : Key) :
    EcHistory H sharedSecret (outputs ++ [d₁, d₂]) { s with
      rootKey := (H.kdfRk (H.kdfRk s.rootKey d₁).rootKey d₂).rootKey
      receivingChain := some (.new (H.kdfRk s.rootKey d₁).chainKey)
      sendingChain := some (.new (H.kdfRk (H.kdfRk s.rootKey d₁).rootKey d₂).chainKey) } used := by
  have hsplit : outputs ++ [d₁, d₂] = (outputs ++ [d₁]) ++ [d₂] := List.append_cons ..
  refine ⟨fun slot k hk => ?_, fun k hk => ?_⟩
  · cases slot with
    | root =>
        obtain rfl := Option.some.inj hk
        show _ = H.rootChain sharedSecret (outputs ++ [d₁, d₂])
        rw [hsplit, Hash.rootChain_concat, Hash.rootChain_concat, h.rootKey_eq]
    | sending =>
        obtain rfl := Option.some.inj hk
        refine ⟨outputs ++ [d₁, d₂], 0, List.prefix_rfl, ?_⟩
        rw [hsplit, h.rootKey_eq, ← Hash.rootChain_concat]
        exact .base _ _
    | receiving =>
        obtain rfl := Option.some.inj hk
        refine ⟨outputs ++ [d₁], 0, ?_, ?_⟩
        · rw [hsplit]
          exact List.prefix_append _ _
        · rw [h.rootKey_eq]
          exact .base _ _
    | skipped dh n => exact (h.slots (.skipped dh n) k hk).mono (by simp) _
  · obtain ⟨before, n, hbefore, hat⟩ := h.used k hk
    exact ⟨before, n, hbefore.trans (List.prefix_append _ _), hat⟩

/-- **A move keeps to the history**, or makes it longer by two. -/
theorem move {used' : List Key} (hmove : EcMove H (s, used) (s', used'))
    (h : EcHistory H sharedSecret outputs s used) :
    ∃ outputs', outputs'.length % 2 = outputs.length % 2 ∧
      EcHistory H sharedSecret outputs' s' used' := by
  cases hmove with
  | still hslot => exact ⟨outputs, rfl, hslot ▸ h.slots, h.used⟩
  | send hc =>
      obtain ⟨hnext, hmessage⟩ := advance_at (h.sendingChain_at hc)
      refine ⟨outputs, rfl, use (fun slot k hk => ?_) h.used hmessage⟩
      cases slot with
      | sending => exact Option.some.inj hk ▸ hnext
      | root | receiving | skipped => exact h.slots _ k hk
  | @store _ _ chain hc n dh =>
      obtain ⟨hnext, hmessage⟩ := advance_at (h.receivingChain_at hc)
      refine ⟨outputs, rfl, fun slot k hk => ?_, h.used⟩
      cases slot with
      | receiving => exact Option.some.inj hk ▸ hnext
      | root | sending => exact h.slots _ k hk
      | skipped dh' n' =>
          have hfind : (s.skipped.insert n dh (chain.advance H).1).find dh' n' = some k := hk
          rcases lt_or_ge s.skipped.len maxSkip with hroom | hfull
          · rw [SkippedKeys.find_insert hroom] at hfind
            split at hfind
            · exact Option.some.inj hfind ▸ hmessage
            · exact h.slots (.skipped dh' n') k hfind
          · rw [SkippedKeys.insert_of_full hfull] at hfind
            exact h.slots (.skipped dh' n') k hfind
  | step d₁ d₂ =>
      refine ⟨outputs ++ [d₁, d₂], ?_, h.step d₁ d₂⟩
      rw [List.length_append]
      exact Nat.add_mod_right _ _
  | @take _ _ dh _ n hkey =>
      refine ⟨outputs, rfl, use (fun slot k hk => ?_) h.used (h.slots (.skipped dh n) _ hkey)⟩
      cases slot with
      | root | sending | receiving => exact h.slots _ k hk
      | skipped dh' n' =>
          have hfind : (s.skipped.remove dh n).find dh' n' = some k := hk
          rw [SkippedKeys.find_remove] at hfind
          split at hfind
          · cases hfind
          · exact h.slots (.skipped dh' n') k hfind
  | receive hc =>
      obtain ⟨hnext, hmessage⟩ := advance_at (h.receivingChain_at hc)
      refine ⟨outputs, rfl, use (fun slot k hk => ?_) h.used hmessage⟩
      cases slot with
      | receiving => exact Option.some.inj hk ▸ hnext
      | root | sending | skipped => exact h.slots _ k hk
  | forget => exact ⟨outputs, rfl, h.slots, fun k hk => h.used k (List.mem_append_left _ hk)⟩

end EcHistory

/-! ## Runs -/

variable {C : Suite Key} {sharedSecret : Key}

/-- How many steps from the shared secret a side is, modulo 2. -/
def stepParity : Side → ℕ
  | .alice => 1
  | .bob => 0

/-- Before the first step the responder's history is empty. -/
lemma ecHistory_initializeBob (bobDhKeypair : Bytes × Key) :
    EcHistory C.hash sharedSecret [] (.initializeBob C sharedSecret bobDhKeypair) [] := by
  refine ⟨fun slot k hk => ?_, by simp⟩
  cases slot with
  | root => exact (Option.some.inj hk).symm
  | sending | receiving => cases hk
  | skipped dh n =>
      have hfind : (SkippedKeys.new : SkippedKeys Key).find dh n = some k := hk
      rw [SkippedKeys.find_new] at hfind
      cases hfind

/-- The initiator starts with one output. -/
lemma ecHistory_initializeAlice (rng : Rng) (bobDhPublic : Key) :
    EcHistory C.hash sharedSecret [C.x25519.diffieHellman (rng.fill 32) bobDhPublic]
      (.initializeAlice C rng sharedSecret bobDhPublic) [] := by
  refine ⟨fun slot k hk => ?_, by simp⟩
  cases slot with
  | root => exact (Option.some.inj hk).symm
  | sending =>
      obtain rfl := Option.some.inj hk
      exact ⟨_, 0, List.prefix_rfl, .base [] _⟩
  | receiving => cases hk
  | skipped dh n =>
      have hfind : (SkippedKeys.new : SkippedKeys Key).find dh n = some k := hk
      rw [SkippedKeys.find_new] at hfind
      cases hfind

/-- **The history of a session after any calls.** -/
theorem RatchetSession.Starts.ecHistory {side : Side} {start : RatchetSession Key}
    (hstart : RatchetSession.Starts C sharedSecret side start)
    (calls : List (Call SessionInput RatchetMessage)) :
    ∃ outputs, outputs.length % 2 = stepParity side ∧
      EcHistory C.hash sharedSecret outputs ((sessionMachine C).exec (start, []) calls).1
        (ecKeysUsed ((sessionMachine C).exec (start, []) calls).2) := by
  let I (s : RatchetSession Key) (used : List Key) : Prop := ∃ outputs,
    outputs.length % 2 = stepParity side ∧ EcHistory C.hash sharedSecret outputs s used
  have hI : ∀ {s s' : RatchetSession Key} {used used' : List Key},
      EcMove C.hash (s, used) (s', used') → I s used → I s' used' := by
    rintro s s' used used' hmove ⟨outputs, hparity, h⟩
    obtain ⟨outputs', hparity', h'⟩ := h.move hmove
    exact ⟨outputs', hparity'.trans hparity, h'⟩
  refine (ecMoves_inductive hI).exec calls (start, []) ?_
  cases hstart with
  | alice rng bobDhPublic => exact ⟨_, rfl, ecHistory_initializeAlice rng bobDhPublic⟩
  | bob bobDhKeypair => exact ⟨[], rfl, ecHistory_initializeBob bobDhKeypair⟩

end Session

/-- **The root keys of two sides never match.**  Take the sessions of initiator and responder from
one shared secret, each after any calls of `encrypt` and `decrypt`, on messages of anyone's making.
Their root keys are different. -/
theorem root_keys_never_match [DecidableEq Key] {C : Suite Key} (hH : C.hash.Free)
    {sharedSecret : Key} (hss : ∀ p, ¬ C.hash.EcParent p sharedSecret)
    {alice bob : RatchetSession Key} (halice : RatchetSession.Starts C sharedSecret .alice alice)
    (hbob : RatchetSession.Starts C sharedSecret .bob bob)
    (aliceCalls bobCalls : List (Call SessionInput RatchetMessage)) :
    ((sessionMachine C).exec (alice, []) aliceCalls).1.rootKey ≠
      ((sessionMachine C).exec (bob, []) bobCalls).1.rootKey := by
  obtain ⟨outputs, hodd, h⟩ := halice.ecHistory aliceCalls
  obtain ⟨outputs', heven, h'⟩ := hbob.ecHistory bobCalls
  intro heq
  rw [h.rootKey_eq, h'.rootKey_eq] at heq
  rw [Hash.rootChain_injective hH hss heq, heven] at hodd
  exact absurd hodd (by decide)

/-- Alice after her first message, and Bob before he has it. -/
theorem root_keys_never_match_first_message :
    ((sessionMachine freeSuite).exec (freeAlice, []) [.send idleInput]).1.rootKey ≠
      ((sessionMachine freeSuite).exec (freeBob, []) []).1.rootKey :=
  root_keys_never_match Ideal.freeHash_free freeSuite_orphan freeAlice_starts freeBob_starts _ _

/-- **A common key means a common history.**  Take two sessions from one shared secret, each after
any calls, on messages of anyone's making.  Each has one list of Diffie-Hellman outputs that its
root key is made of.  An EC message key that both have used, be it for messages sent or received,
stands at the same place for both, and all outputs up to there are the same. -/
theorem common_key_common_history [DecidableEq Key] {C : Suite Key} (hH : C.hash.Free)
    {sharedSecret : Key} (hss : ∀ p, ¬ C.hash.EcParent p sharedSecret) {side side' : Side}
    {start start' : RatchetSession Key} (hstart : RatchetSession.Starts C sharedSecret side start)
    (hstart' : RatchetSession.Starts C sharedSecret side' start')
    (calls calls' : List (Call SessionInput RatchetMessage)) :
    ∃! outputs : List Key × List Key,
      (((sessionMachine C).exec (start, []) calls).1.rootKey =
          C.hash.rootChain sharedSecret outputs.1 ∧
        ((sessionMachine C).exec (start', []) calls').1.rootKey =
          C.hash.rootChain sharedSecret outputs.2) ∧
      ∀ k ∈ ecKeysUsed ((sessionMachine C).exec (start, []) calls).2,
        k ∈ ecKeysUsed ((sessionMachine C).exec (start', []) calls').2 →
          ∃ before n, before <+: outputs.1 ∧ before <+: outputs.2 ∧
            C.hash.MessageAt sharedSecret before n k := by
  obtain ⟨outputs, -, h⟩ := hstart.ecHistory calls
  obtain ⟨outputs', -, h'⟩ := hstart'.ecHistory calls'
  refine ⟨(outputs, outputs'), ⟨⟨h.rootKey_eq, h'.rootKey_eq⟩, ?_⟩, ?_⟩
  · intro k hk hk'
    obtain ⟨before, n, hbefore, hat⟩ := h.used k hk
    obtain ⟨before', n', hbefore', hat'⟩ := h'.used k hk'
    obtain ⟨rfl, rfl⟩ := hat.place_unique hH hss hat'
    exact ⟨before, n, hbefore, hbefore', hat⟩
  · rintro ⟨other, other'⟩ ⟨⟨hroot, hroot'⟩, -⟩
    rw [h.rootKey_eq] at hroot
    rw [h'.rootKey_eq] at hroot'
    rw [Hash.rootChain_injective hH hss hroot, Hash.rootChain_injective hH hss hroot']

/-- Alice and Bob after her first message. -/
theorem common_key_common_history_first_message : ∃ message k outputs outputs' before n,
    k ∈ ecKeysUsed ((sessionMachine freeSuite).exec (freeAlice, []) [.send idleInput]).2 ∧
      k ∈ ecKeysUsed ((sessionMachine freeSuite).exec (freeBob, []) [.recv message idleInput]).2 ∧
      ((sessionMachine freeSuite).exec (freeAlice, []) [.send idleInput]).1.rootKey =
        freeSuite.hash.rootChain 0 outputs ∧
      ((sessionMachine freeSuite).exec (freeBob, []) [.recv message idleInput]).1.rootKey =
        freeSuite.hash.rootChain 0 outputs' ∧
      before <+: outputs ∧ before <+: outputs' ∧ freeSuite.hash.MessageAt 0 before n k := by
  obtain ⟨ecMk, message, _, evs, _, evs', _, hsend, hmade, hreceive, htaken, -⟩ :=
    free_exchange idleInput idleInput rfl rfl
  have hused : ecMk ∈ ecKeysUsed
      ((sessionMachine freeSuite).exec (freeAlice, []) [.send idleInput]).2 := by
    simp only [Machine.exec_cons, Machine.exec_nil, Machine.call_send, hsend, List.nil_append,
      hmade, List.mem_singleton]
  have hused' : ecMk ∈ ecKeysUsed
      ((sessionMachine freeSuite).exec (freeBob, []) [.recv message idleInput]).2 := by
    simp only [Machine.exec_cons, Machine.exec_nil, Machine.call_recv, hreceive, List.nil_append,
      htaken, List.mem_singleton]
  obtain ⟨outputs, ⟨⟨hroot, hroot'⟩, hcommon⟩, -⟩ := common_key_common_history Ideal.freeHash_free
    freeSuite_orphan freeAlice_starts freeBob_starts [.send idleInput] [.recv message idleInput]
  obtain ⟨before, n, hbefore, hbefore', hat⟩ := hcommon ecMk hused hused'
  exact ⟨message, ecMk, outputs.1, outputs.2, before, n, hused, hused', hroot, hroot', hbefore,
    hbefore', hat⟩

end Hushwire
