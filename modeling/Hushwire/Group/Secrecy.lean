import Hushwire.Group.Authentication
import Hushwire.Primitives.Symbolic

/-!
# Who can read a group message

A sender's chain is copied to many: the sender hands its state out in distribution messages, and
whoever has processed one may use the state and hand it on in turn.  Each of these parties moves its
copy on its own, and keeps the keys of messages that have not arrived yet.

`groupAfter` are the states of all of them after any actions.  A copy always stands at a `Window` of
the sender's chain (`onChain_groupAfter`), and an iteration that is spent for a copy stays spent
(`Spent.apply`).

* `group_key_exposed_iff` — from the states of any set of parties the AEAD key of an iteration can
  be computed exactly if the iteration is not spent for one of them.  So parties who pool what they
  have read no more than they could read one by one.
* `group_forward_secrecy` — who has sent or opened a message, or has joined after it, holds nothing
  from which its key could be computed.

The assumption is that HKDF and HMAC are free and that nobody computes the first chain key.
-/

namespace Hushwire

open Secrecy

variable {Key : Type}

/-! ## All holders of a chain -/

/-- A party uses its state, or hands it on to a new party. -/
inductive GroupAction
  | use (party : ℕ) (call : SenderKeyUse)
  | share (party : ℕ) (groupId : Bytes)

section Runs

variable (G : GroupSuite Key)

/-- The states of all parties after an action. -/
def GroupAction.apply (parties : List (SenderKeyState Key)) :
    GroupAction → List (SenderKeyState Key)
  | use party call => parties.modify party (fun state => call.apply G state)
  | share party groupId =>
      match parties[party]? with
      | none => parties
      | some state =>
          parties ++ [processSenderKeyDistributionMessage
            (distributionMessageForExisting state groupId)]

/-- The states of all parties after some actions.  Party 0 has made the chain; the distribution
message it has made it with is the one for the state it has at the start (`create_eq`). -/
def groupAfter (chainKey : Key) (seed groupId : Bytes) (auth : SenderKeyAuth)
    (actions : List GroupAction) : List (SenderKeyState Key) :=
  actions.foldl (GroupAction.apply G)
    [(createSenderKeyDistributionMessage G chainKey seed groupId auth).1]

end Runs

/-- The keys in a state. -/
def SenderKeyState.secrets (state : SenderKeyState Key) : Set Key :=
  {k | k = state.chainKey ∨ ∃ i, (i, k) ∈ state.skippedMessageKeys}

/-- Where a state stands. -/
def SenderKeyState.window (state : SenderKeyState Key) : Window :=
  ⟨state.iteration, state.skippedMessageKeys.map Prod.fst⟩

/-- A copy of the chain from `base`. -/
def SenderKeyState.OnChain (H : Hash Key) (base : Key) (state : SenderKeyState Key) : Prop :=
  ∃ w : Window, w.Valid ∧ state = state.atWindow H base w

section Copies

variable {G : GroupSuite Key} {base : Key} {r state : SenderKeyState Key} {w : Window} {j : ℕ}

lemma window_atWindow : (r.atWindow G.hash base w).window = w := by
  rw [SenderKeyState.window, atWindow_skipped]
  rfl

lemma onChain_atWindow (hw : w.Valid) : (r.atWindow G.hash base w).OnChain G.hash base :=
  ⟨w, hw, rfl⟩

/-- What is in a copy. -/
lemma mem_secrets_atWindow {k : Key} : k ∈ (r.atWindow G.hash base w).secrets ↔
    k = senderChainKey G.hash base w.next ∨ ∃ i ∈ w.kept, k = senderMessageKey G.hash base i := by
  simp only [SenderKeyState.secrets, SenderKeyState.atWindow, Set.mem_ofPred_eq, List.mem_map,
    Prod.mk.injEq]
  constructor
  · rintro (h | ⟨_, i, hi, -, rfl⟩)
    · exact .inl h
    · exact .inr ⟨i, hi, rfl⟩
  · rintro (h | ⟨i, hi, rfl⟩)
    · exact .inl h
    · exact .inr ⟨i, i, hi, rfl, rfl⟩

/-! ### What the uses do to a copy -/

variable (base r w) in
/-- `group_encrypt` moves a copy by one, or not at all. -/
lemma groupEncrypt_atWindow (rng : Rng) (groupId plaintext : Bytes) :
    (∃ e, groupEncrypt G rng groupId plaintext (r.atWindow G.hash base w) =
        (.error e, r.atWindow G.hash base w)) ∨
      ∃ m, groupEncrypt G rng groupId plaintext (r.atWindow G.hash base w) =
        (.ok m, r.atWindow G.hash base { w with next := w.next + 1 }) ∧ m.iteration = w.next := by
  rcases groupEncrypt_cases G rng groupId plaintext (r.atWindow G.hash base w) with
    hcall | ⟨ciphertext, auth, hcall⟩
  · exact .inl hcall
  · exact .inr ⟨_, hcall, rfl⟩

variable (base r w) in
/-- `group_decrypt`, on any message, leaves a copy where it was, or it takes the message's iteration
and tries the key of that iteration on it. -/
lemma groupDecrypt_atWindow (m : SenderKeyMessage) :
    (∃ e, groupDecrypt G m (r.atWindow G.hash base w) = (.error e, r.atWindow G.hash base w)) ∨
      ∃ w', authenticate G (r.atWindow G.hash base w) m = .ok () ∧
        w.accept maxGroupSkip m.iteration = some w' ∧
        groupDecrypt G m (r.atWindow G.hash base w) =
          (Aead.decrypt G.hash G.xchacha (senderMessageKey G.hash base m.iteration) m.ciphertext
            m.groupId, r.atWindow G.hash base w') := by
  simp only [atWindow_eq_standing]
  rcases hauth : authenticate G (r.standing G.hash base 0 w) m with e | _
  · exact .inl ⟨e, by simp only [groupDecrypt, hauth]⟩
  by_cases hkept : m.iteration ∈ w.kept
  · exact .inr ⟨_, rfl, Window.accept_of_mem hkept, groupDecrypt_kept hauth hkept⟩
  have hcall := groupDecrypt_notKept hauth (Nat.zero_le _) hkept
  rw [Window.accept_of_notMem hkept]
  rcases hahead : w.ahead maxGroupSkip m.iteration with - | w'
  · rw [hahead] at hcall
    exact .inl hcall
  · rw [hahead] at hcall
    dsimp only at hcall
    rw [Nat.sub_zero] at hcall
    rcases hopen : Aead.decrypt G.hash G.xchacha (senderMessageKey G.hash base m.iteration)
        m.ciphertext m.groupId with e | plaintext
    · rw [hopen] at hcall
      exact .inl ⟨e, hcall⟩
    · rw [hopen] at hcall
      exact .inr ⟨w', rfl, rfl, hcall⟩

/-- What is spent before the next number is passed still is. -/
lemma spent_next (h : w.Spent j) : Window.Spent { w with next := w.next + 1 } j :=
  ⟨h.1.trans (Nat.lt_succ_self _), h.2⟩

variable (base r) in
/-- **One use of a copy.**  It stands at a window again, and what was spent still is. -/
lemma apply_atWindow (hw : w.Valid) (use : SenderKeyUse) :
    ∃ w' : Window, w'.Valid ∧ use.apply G (r.atWindow G.hash base w) = r.atWindow G.hash base w' ∧
      ∀ j, w.Spent j → w'.Spent j := by
  cases use with
  | encrypt call =>
      rw [SenderKeyUse.apply]
      rcases groupEncrypt_atWindow base r w call.rng call.groupId call.plaintext with
        ⟨e, hcall⟩ | ⟨m, hcall, -⟩
      · exact ⟨w, hw, by rw [hcall], fun _ h => h⟩
      · refine ⟨{ w with next := w.next + 1 }, ⟨?_, hw.nodup⟩, by rw [hcall], fun _ => spent_next⟩
        exact fun i hi => (hw.behind i hi).trans (Nat.lt_succ_self _)
  | decrypt message =>
      rw [SenderKeyUse.apply]
      rcases groupDecrypt_atWindow base r w message with ⟨e, hcall⟩ | ⟨w', -, haccept, hcall⟩
      · exact ⟨w, hw, by rw [hcall], fun _ h => h⟩
      · exact ⟨w', hw.accept haccept, by rw [hcall], (hw.spent_accept haccept).2.2⟩
  | reload => exact ⟨w, hw, rfl, fun _ h => h⟩

lemma OnChain.apply (h : state.OnChain G.hash base) (use : SenderKeyUse) :
    (use.apply G state).OnChain G.hash base ∧
      ∀ j, state.window.Spent j → (use.apply G state).window.Spent j := by
  obtain ⟨w, hw, hstate⟩ := h
  obtain ⟨w', hw', happly, hspent⟩ := apply_atWindow (G := G) base state hw use
  rw [← hstate] at happly
  rw [happly, hstate, window_atWindow, window_atWindow]
  exact ⟨onChain_atWindow hw', hspent⟩

/-- Who processes a distribution message has a copy, with nothing behind it. -/
lemma onChain_shared (h : state.OnChain G.hash base) (groupId : Bytes) :
    (processSenderKeyDistributionMessage
      (distributionMessageForExisting state groupId)).OnChain G.hash base := by
  obtain ⟨w, -, hstate⟩ := h
  refine ⟨⟨w.next, []⟩, ⟨fun i hi => absurd hi List.not_mem_nil, List.nodup_nil⟩, ?_⟩
  rw [hstate]
  rfl

end Copies

/-! ### Any actions -/

section Actions

variable {G : GroupSuite Key} {base : Key} {parties : List (SenderKeyState Key)}
  {state : SenderKeyState Key} {action : GroupAction} {p j : ℕ}

/-- Where the state of a party after an action comes from. -/
lemma exists_before (h : (action.apply G parties)[p]? = some state) :
    parties[p]? = some state ∨
      (∃ old call, parties[p]? = some old ∧ action = .use p call ∧ state = call.apply G old) ∨
      ∃ q old groupId, parties[q]? = some old ∧ action = .share q groupId ∧ p = parties.length ∧
        state = processSenderKeyDistributionMessage
          (distributionMessageForExisting old groupId) := by
  cases action with
  | use q call =>
      rw [GroupAction.apply, List.getElem?_modify] at h
      obtain ⟨old, hold, rfl⟩ := Option.map_eq_some_iff.mp h
      by_cases hq : q = p
      · subst hq
        rw [if_pos rfl]
        exact .inr (.inl ⟨old, call, hold, rfl, rfl⟩)
      · rw [if_neg hq]
        exact .inl hold
  | share q groupId =>
      rw [GroupAction.apply] at h
      split at h
      · exact .inl h
      · rename_i old hold
        rw [List.getElem?_append] at h
        split at h
        · exact .inl h
        · rename_i hp
          obtain ⟨hlt, hstate⟩ := List.getElem?_eq_some_iff.mp h
          rw [List.length_singleton] at hlt
          rw [List.getElem_singleton] at hstate
          exact .inr (.inr ⟨q, old, groupId, hold, rfl, by omega, hstate.symm⟩)

/-- Parties stay, and have a state of before or a use of it. -/
lemma exists_after (h : parties[p]? = some state) (action : GroupAction) :
    ∃ state', (action.apply G parties)[p]? = some state' ∧
      (state' = state ∨ ∃ call, action = .use p call ∧ state' = call.apply G state) := by
  cases action with
  | use q call =>
      rw [GroupAction.apply, List.getElem?_modify, h]
      by_cases hq : q = p
      · subst hq
        exact ⟨_, congrArg some (if_pos rfl), .inr ⟨call, rfl, rfl⟩⟩
      · exact ⟨_, congrArg some (if_neg hq), .inl rfl⟩
  | share q groupId =>
      refine ⟨state, ?_, .inl rfl⟩
      rw [GroupAction.apply]
      split
      · exact h
      · rw [List.getElem?_append_left (List.getElem?_eq_some_iff.mp h).1]
        exact h

/-- All parties have copies. -/
def OnChains (H : Hash Key) (base : Key) (parties : List (SenderKeyState Key)) : Prop :=
  ∀ (p : ℕ) (state : SenderKeyState Key), parties[p]? = some state → state.OnChain H base

lemma OnChains.apply (h : OnChains G.hash base parties) (action : GroupAction) :
    OnChains G.hash base (action.apply G parties) := by
  intro p state hstate
  rcases exists_before hstate with hold | ⟨old, call, hold, -, rfl⟩ |
    ⟨q, old, groupId, hold, -, -, rfl⟩
  · exact h p state hold
  · exact (OnChain.apply (h p old hold) call).1
  · exact onChain_shared (h q old hold) groupId

lemma OnChains.foldl (h : OnChains G.hash base parties) (actions : List GroupAction) :
    OnChains G.hash base (actions.foldl (GroupAction.apply G) parties) := by
  induction actions generalizing parties with
  | nil => exact h
  | cons action actions ih => exact ih (h.apply action)

/-- What is spent for a party stays so, whatever is done. -/
lemma OnChains.spent_foldl (h : OnChains G.hash base parties) (hstate : parties[p]? = some state)
    (hspent : state.window.Spent j) (actions : List GroupAction) :
    ∃ state', (actions.foldl (GroupAction.apply G) parties)[p]? = some state' ∧
      state'.window.Spent j := by
  induction actions generalizing parties state with
  | nil => exact ⟨state, hstate, hspent⟩
  | cons action actions ih =>
      obtain ⟨state', hstate', hcase⟩ := exists_after (G := G) hstate action
      refine ih (h.apply action) hstate' ?_
      rcases hcase with rfl | ⟨call, -, rfl⟩
      · exact hspent
      · exact (OnChain.apply (h p state hstate) call).2 j hspent

/-- **All copies are copies of one chain**, after any actions. -/
theorem onChain_groupAfter (base : Key) (seed groupId : Bytes) (auth : SenderKeyAuth)
    (actions : List GroupAction) :
    OnChains G.hash base (groupAfter G base seed groupId auth actions) := by
  apply OnChains.foldl
  intro p state hstate
  obtain ⟨hlt, rfl⟩ := List.getElem?_eq_some_iff.mp hstate
  rw [List.getElem_singleton, create_eq]
  exact ⟨⟨0, []⟩, ⟨fun i hi => absurd hi List.not_mem_nil, List.nodup_nil⟩, rfl⟩

end Actions

/-! ## The keys of a chain, apart -/

/-- The AEAD key of iteration `n`. -/
def senderEncKey (H : Hash Key) (base : Key) (n : ℕ) : Key :=
  Aead.deriveEncKey H (senderMessageKey H base n)

/-- The keys that come from the chain's first key. -/
def Hash.OfSenderChain (H : Hash Key) (base k : Key) : Prop :=
  ∃ n, k = senderChainKey H base n ∨ k = senderMessageKey H base n ∨ k = senderEncKey H base n

section Keys

variable {H : Hash Key} {bytes : Set Bytes} {base : Key}

lemma ne_base (hbase : ∀ inputs, ¬ H.Computes bytes inputs base) {inputs : List Key} {k : Key}
    (h : H.Computes bytes inputs k) : k ≠ base := by
  rintro rfl
  exact hbase inputs h

lemma senderChainKey_injective (hH : H.Free) (hbase : ∀ inputs, ¬ H.Computes bytes inputs base) :
    Function.Injective (senderChainKey H base) := by
  intro n
  induction n with
  | zero =>
      intro m h
      cases m with
      | zero => rfl
      | succ m => exact absurd h.symm (ne_base hbase (.hmac _ [0x02]))
  | succ n ih =>
      intro m h
      cases m with
      | zero => exact absurd h (ne_base hbase (.hmac _ [0x02]))
      | succ m => exact congrArg (· + 1) (ih (hH.hmac_injective _ _ _ _ h).1)

lemma senderMessageKey_injective (hH : H.Free) (hbase : ∀ inputs, ¬ H.Computes bytes inputs base) :
    Function.Injective (senderMessageKey H base) :=
  fun _ _ h => senderChainKey_injective hH hbase (hH.hmac_injective _ _ _ _ h).1

lemma senderMessageKey_ne_chainKey (hH : H.Free) (hbase : ∀ inputs, ¬ H.Computes bytes inputs base)
    (i n : ℕ) : senderMessageKey H base i ≠ senderChainKey H base n := by
  intro h
  cases n with
  | zero => exact ne_base hbase (.hmac _ [0x01]) h
  | succ n =>
      have hdata := (hH.hmac_injective _ _ _ _ h).2
      exact absurd hdata (by decide)

lemma computes_senderEncKey {n : ℕ} :
    H.Computes bytes [senderMessageKey H base n, H.zero] (senderEncKey H base n) :=
  .hkdf (.inl (senderMessageKey H base n)) (some H.zero) _ _ _ (fun b hb => by cases hb)

lemma senderEncKey_ne_chainKey (hH : H.Free) (hbase : ∀ inputs, ¬ H.Computes bytes inputs base)
    (i n : ℕ) : senderEncKey H base i ≠ senderChainKey H base n := by
  intro h
  cases n with
  | zero => exact ne_base hbase computes_senderEncKey h
  | succ n => exact hH.hkdf_ne_hmac _ _ _ _ _ _ _ h

lemma senderEncKey_ne_messageKey (hH : H.Free) (i n : ℕ) :
    senderEncKey H base i ≠ senderMessageKey H base n := hH.hkdf_ne_hmac _ _ _ _ _ _ _

/-- What stands between the outside and the key of iteration `j`. -/
def guardOf (H : Hash Key) (base : Key) (j : ℕ) : Set Key :=
  {k | ∃ n ≤ j, k = senderChainKey H base n} ∪ {senderMessageKey H base j, senderEncKey H base j}

lemma guarded_guardOf (hH : H.Free) (hbase : ∀ inputs, ¬ H.Computes bytes inputs base) (j : ℕ) :
    Guarded (H.Computes bytes) (guardOf H base j) := by
  apply (guarded_chain hbase (fun _ => hH.needs_hmac) j).union
  rintro k (rfl | rfl)
  · exact ⟨senderChainKey H base j, .inl ⟨j, le_rfl, rfl⟩, hH.needs_hmac⟩
  · exact ⟨senderMessageKey H base j, .inr (.inl rfl), hH.needs_ikm⟩

/-- A copy for which an iteration is spent has nothing of what guards its key. -/
lemma notMem_guardOf (hH : H.Free) (hbase : ∀ inputs, ¬ H.Computes bytes inputs base) {w : Window}
    {j : ℕ} (hspent : w.Spent j) {k : Key}
    (hk : k = senderChainKey H base w.next ∨ ∃ i ∈ w.kept, k = senderMessageKey H base i) :
    k ∉ guardOf H base j := by
  rcases hk with rfl | ⟨i, hi, rfl⟩
  · rintro (⟨n, hn, heq⟩ | heq | heq)
    · exact absurd hspent.1 (not_lt.mpr (senderChainKey_injective hH hbase heq ▸ hn))
    · exact senderMessageKey_ne_chainKey hH hbase _ _ heq.symm
    · exact senderEncKey_ne_chainKey hH hbase _ _ heq.symm
  · rintro (⟨n, -, heq⟩ | heq | heq)
    · exact senderMessageKey_ne_chainKey hH hbase _ _ heq
    · exact hspent.2 (senderMessageKey_injective hH hbase heq ▸ hi)
    · exact senderEncKey_ne_messageKey hH _ _ heq.symm

/-- Who has the message key can encrypt and decrypt. -/
lemma derives_senderEncKey {known : Set Key} (hzero : H.zero ∈ known) {j : ℕ}
    (h : Derives (H.Computes bytes) known (senderMessageKey H base j)) :
    Derives (H.Computes bytes) known (senderEncKey H base j) := by
  refine .compute computes_senderEncKey ?_
  intro k hk
  rcases List.mem_cons.mp hk with rfl | hk
  · exact h
  · obtain rfl := List.mem_singleton.mp hk
    exact .known hzero

/-- **What a copy gives away.**  Each key of an iteration that is not spent. -/
lemma derives_of_not_spent {known : Set Key} (hzero : H.zero ∈ known) {w : Window} {j : ℕ}
    (hnot : ¬ w.Spent j) (hsecrets : ∀ k, (k = senderChainKey H base w.next ∨
      ∃ i ∈ w.kept, k = senderMessageKey H base i) → k ∈ known) :
    Derives (H.Computes bytes) known (senderEncKey H base j) := by
  apply derives_senderEncKey hzero
  by_cases hkept : j ∈ w.kept
  · exact .known (hsecrets _ (.inr ⟨j, hkept, rfl⟩))
  · have hle : w.next ≤ j := not_lt.mp (fun hlt => hnot ⟨hlt, hkept⟩)
    have hchain : Derives (H.Computes bytes) known (senderChainKey H base j) :=
      Derives.later (fun n => .hmac (senderChainKey H base n) [0x02]) hle
        (.known (hsecrets _ (.inl rfl)))
    refine .compute (.hmac (senderChainKey H base j) [0x01]) ?_
    intro k hk
    obtain rfl := List.mem_singleton.mp hk
    exact hchain

end Keys

/-! ## Theft -/

/-- The keys in the states of some parties. -/
def stolenSecrets (parties : List (SenderKeyState Key)) (stolen : Set ℕ) : Set Key :=
  {k | ∃ p ∈ stolen, ∃ state, parties[p]? = some state ∧ k ∈ state.secrets}

/-- Copies for which an iteration is spent do not give its key away, all of them together. -/
lemma not_derives_of_spent {G : GroupSuite Key} (hH : G.hash.Free) {bytes : Set Bytes} {base : Key}
    (hbase : ∀ inputs, ¬ G.hash.Computes bytes inputs base) {known : Set Key}
    (hknown : ∀ k ∈ known, ¬ G.hash.OfSenderChain base k) {parties : List (SenderKeyState Key)}
    (hchains : OnChains G.hash base parties) {stolen : Set ℕ} {j : ℕ}
    (hspent : ∀ p ∈ stolen, ∀ state : SenderKeyState Key, parties[p]? = some state →
      state.window.Spent j) :
    ¬ Derives (G.hash.Computes bytes) (known ∪ stolenSecrets parties stolen)
        (senderEncKey G.hash base j) := by
  refine (guarded_guardOf hH hbase j).not_derives ?_ (.inr (.inr rfl))
  rintro k (hk | ⟨p, hp, state, hstate, hk⟩)
  · -- what was known before is not of this chain
    rintro (⟨n, -, rfl⟩ | rfl | rfl)
    · exact hknown _ hk ⟨n, .inl rfl⟩
    · exact hknown _ hk ⟨j, .inr (.inl rfl)⟩
    · exact hknown _ hk ⟨j, .inr (.inr rfl)⟩
  · have hspent := hspent p hp state hstate
    obtain ⟨w, -, hw⟩ := hchains p state hstate
    rw [hw] at hk hspent
    rw [window_atWindow] at hspent
    exact notMem_guardOf hH hbase hspent (mem_secrets_atWindow.mp hk)

/-- **Who can read an iteration.**  Take a chain, hand its state on in any way, and let all who have
a copy do anything with it.  Somebody steals the states of any set of parties, and knows any keys
that do not come from the chain.  The AEAD key of iteration `j` can be computed from that exactly if
one of the stolen states, on its own, still has `j` ahead of it or in its store. -/
theorem group_key_exposed_iff {G : GroupSuite Key} (hH : G.hash.Free) {bytes : Set Bytes}
    {base : Key} (hbase : ∀ inputs, ¬ G.hash.Computes bytes inputs base) {known : Set Key}
    (hzero : G.hash.zero ∈ known) (hknown : ∀ k ∈ known, ¬ G.hash.OfSenderChain base k)
    (seed groupId : Bytes) (auth : SenderKeyAuth) (actions : List GroupAction) (stolen : Set ℕ)
    (j : ℕ) :
    Derives (G.hash.Computes bytes)
        (known ∪ stolenSecrets (groupAfter G base seed groupId auth actions) stolen)
        (senderEncKey G.hash base j) ↔
      ∃ p ∈ stolen, ∃ state, (groupAfter G base seed groupId auth actions)[p]? = some state ∧
        ¬ state.window.Spent j := by
  have hchains := onChain_groupAfter (G := G) base seed groupId auth actions
  constructor
  · intro hder
    by_contra hnone
    push Not at hnone
    exact not_derives_of_spent hH hbase hknown hchains hnone hder
  · rintro ⟨p, hp, state, hstate, hnot⟩
    obtain ⟨w, -, hw⟩ := hchains p state hstate
    rw [hw, window_atWindow] at hnot
    refine derives_of_not_spent (.inl hzero) hnot ?_
    intro k hk
    refine .inr ⟨p, hp, state, hstate, ?_⟩
    rw [hw]
    exact mem_secrets_atWindow.mpr hk

/-- A suite with free hash functions. -/
def freeGroup : GroupSuite ℕ where
  hash := Ideal.freeHash
  xchacha := Ideal.xchacha
  ed25519 := Ideal.ed25519

/-- The zero key is not of the chain from 1. -/
lemma zero_not_ofSenderChain : ¬ Ideal.freeHash.OfSenderChain 1 0 := by
  have hzero : ∀ inputs, ¬ Ideal.freeHash.Computes Set.univ inputs 0 :=
    Ideal.freeHash_not_computes Nat.two_pos Set.univ
  rintro ⟨n, h | h | h⟩
  · cases n with
    | zero => cases h
    | succ n => exact ne_base hzero (.hmac _ [0x02]) h.symm
  · exact ne_base hzero (.hmac _ [0x01]) h.symm
  · exact ne_base hzero computes_senderEncKey h.symm

/-- The state of a member who has just joined. -/
theorem group_key_exposed_iff_new_member :
    Derives (freeGroup.hash.Computes Set.univ)
        ({0} ∪ stolenSecrets (groupAfter freeGroup 1 [] [] .hmac [.share 0 []]) {1})
        (senderEncKey freeGroup.hash 1 3) ↔
      ∃ p ∈ ({1} : Set ℕ), ∃ state,
        (groupAfter freeGroup 1 [] [] .hmac [.share 0 []])[p]? = some state ∧
          ¬ state.window.Spent 3 :=
  group_key_exposed_iff (G := freeGroup) Ideal.freeHash_free
    (Ideal.freeHash_not_computes Nat.one_lt_two Set.univ) (Set.mem_singleton 0)
    (fun k hk => by obtain rfl := hk; exact zero_not_ofSenderChain) [] [] .hmac [.share 0 []] {1} 3

/-- An action with which party `p` leaves iteration `j` behind: it sends or opens the message of
that iteration, or it joins with the state of somebody who is past it. -/
inductive LeavesBehind (G : GroupSuite Key) (j : ℕ) (parties : List (SenderKeyState Key)) (p : ℕ) :
    GroupAction → Prop
  | sent {state : SenderKeyState Key} {call : GroupCall} {m : SenderKeyMessage}
      (hstate : parties[p]? = some state)
      (hsent : (groupEncrypt G call.rng call.groupId call.plaintext state).1 = .ok m)
      (hj : m.iteration = j) : LeavesBehind G j parties p (.use p (.encrypt call))
  | opened {state : SenderKeyState Key} {m : SenderKeyMessage} {plaintext : Bytes}
      (hstate : parties[p]? = some state) (hopened : (groupDecrypt G m state).1 = .ok plaintext)
      (hj : m.iteration = j) : LeavesBehind G j parties p (.use p (.decrypt m))
  | joined {q : ℕ} {state : SenderKeyState Key} {groupId : Bytes}
      (hstate : parties[q]? = some state) (hj : j < state.iteration) (hp : p = parties.length) :
      LeavesBehind G j parties p (.share q groupId)

/-- What is left behind is spent. -/
lemma LeavesBehind.spent {G : GroupSuite Key} {base : Key} {j p : ℕ}
    {parties : List (SenderKeyState Key)} (hchains : OnChains G.hash base parties)
    {action : GroupAction} (h : LeavesBehind G j parties p action) :
    ∃ state, (action.apply G parties)[p]? = some state ∧ state.window.Spent j := by
  cases h with
  | @sent state call m hstate hsent hj =>
      obtain ⟨w, hw, hcopy⟩ := hchains p state hstate
      refine ⟨SenderKeyUse.apply G state (.encrypt call), ?_, ?_⟩
      · rw [GroupAction.apply, List.getElem?_modify, hstate]
        exact congrArg some (if_pos rfl)
      · rw [hcopy] at hsent ⊢
        rcases groupEncrypt_atWindow (G := G) base state w call.rng call.groupId
          call.plaintext with ⟨e, hcall⟩ | ⟨m', hcall, hiteration⟩
        · rw [hcall] at hsent
          cases hsent
        · rw [hcall] at hsent
          obtain rfl := Except.ok.inj hsent
          rw [SenderKeyUse.apply, hcall, window_atWindow]
          refine ⟨?_, fun hkept => ?_⟩
          · exact hj ▸ hiteration ▸ Nat.lt_succ_self _
          · exact absurd (hw.behind j hkept) (by rw [← hj, hiteration]; exact lt_irrefl _)
  | @opened state m plaintext hstate hopened hj =>
      obtain ⟨w, hw, hcopy⟩ := hchains p state hstate
      refine ⟨SenderKeyUse.apply G state (.decrypt m), ?_, ?_⟩
      · rw [GroupAction.apply, List.getElem?_modify, hstate]
        exact congrArg some (if_pos rfl)
      · rw [hcopy] at hopened ⊢
        rcases groupDecrypt_atWindow (G := G) base state w m with
          ⟨e, hcall⟩ | ⟨w', -, haccept, hcall⟩
        · rw [hcall] at hopened
          cases hopened
        · rw [SenderKeyUse.apply, hcall, window_atWindow, ← hj]
          exact (hw.spent_accept haccept).2.1
  | @joined q state groupId hstate hj hp =>
      refine ⟨processSenderKeyDistributionMessage (distributionMessageForExisting state groupId),
        ?_, hj, List.not_mem_nil⟩
      rw [GroupAction.apply, hstate, hp]
      exact List.getElem?_concat_length

/-- **Forward secrecy in a group.**  At some point of a run each of the stolen parties has sent the
message of iteration `j`, has opened it, or has joined with the state of somebody who was past it.
Whatever was done before and after, the AEAD key of `j` cannot be computed from what they hold
together. -/
theorem group_forward_secrecy {G : GroupSuite Key} (hH : G.hash.Free) {bytes : Set Bytes}
    {base : Key} (hbase : ∀ inputs, ¬ G.hash.Computes bytes inputs base) {known : Set Key}
    (hknown : ∀ k ∈ known, ¬ G.hash.OfSenderChain base k)
    (seed groupId : Bytes) (auth : SenderKeyAuth) (actions : List GroupAction) (stolen : Set ℕ)
    (j : ℕ) (hleft : ∀ p ∈ stolen, ∃ before action after, actions = before ++ action :: after ∧
      LeavesBehind G j (groupAfter G base seed groupId auth before) p action) :
    ¬ Derives (G.hash.Computes bytes)
        (known ∪ stolenSecrets (groupAfter G base seed groupId auth actions) stolen)
        (senderEncKey G.hash base j) := by
  apply not_derives_of_spent hH hbase hknown (onChain_groupAfter base seed groupId auth actions)
  intro p hp state hstate
  obtain ⟨before, action, after, rfl, hleaves⟩ := hleft p hp
  have hchains := onChain_groupAfter (G := G) base seed groupId auth before
  obtain ⟨left, hleftState, hleftSpent⟩ := hleaves.spent hchains
  obtain ⟨state', hstate', hspent⟩ := (hchains.apply action).spent_foldl hleftState hleftSpent after
  rw [groupAfter, List.foldl_append, List.foldl_cons] at hstate
  obtain rfl := Option.some.inj (hstate.symm.trans hstate')
  exact hspent

/-- The sender of a message and a member who joins after it. -/
theorem group_forward_secrecy_first_message :
    ¬ Derives (freeGroup.hash.Computes Set.univ)
        ({0} ∪ stolenSecrets (groupAfter freeGroup 1 [] [] .hmac
          [.use 0 (.encrypt ⟨constRng 1, [], [10]⟩), .share 0 []]) {0, 1})
        (senderEncKey freeGroup.hash 1 0) := by
  refine group_forward_secrecy (G := freeGroup) Ideal.freeHash_free
    (Ideal.freeHash_not_computes Nat.one_lt_two Set.univ)
    (fun k hk => by obtain rfl := hk; exact zero_not_ofSenderChain) [] [] .hmac _ {0, 1} 0 ?_
  rintro p (rfl | rfl)
  · exact ⟨[], _, _, rfl, .sent rfl rfl rfl⟩
  · exact ⟨[_], _, [], rfl, .joined rfl Nat.one_pos rfl⟩

end Hushwire
