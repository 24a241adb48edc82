import Hushwire.Group.Replay
import Hushwire.Library.Overflow

/-!
# The counter of a sender key

The iteration of a sender-key chain is a `u32` in `src/protocol/sender_key/mod.rs`, and a
distribution message may start a chain at any of its values.  The rest of the development counts in
`ℕ`.  This module has the calls as the machine makes them, for both settings of `overflow-checks`,
and says how far the two agree.

* `groupDecryptU32_eq`, `groupEncryptU32_eq` — a call of the machine is the call over `ℕ` with its
  counter fitted to 32 bits at the end.  Whatever happens in the loops, this is all that can differ.
* `groupDecryptAllU32_exact` — as long as nothing overflows, a run is the run over `ℕ`, so all that
  is proved of receivers holds of the machine's.
* `counter_exact_iff` — when the counter is exact.  It is unless a message with iteration `u32::MAX`
  is accepted, or made: the `+= 1` after it does not fit.  `counter_overflows` is a sender and a
  receiver of its chain at that iteration.
-/

namespace Hushwire

variable {Key : Type}

/-! ## The code, with its additions -/

/-- `u32::MAX`. -/
def u32Max : ℕ := 2 ^ 32 - 1

/-- What a `u32` makes of an exact value. -/
def fitU32 (mode : OverflowMode) (n : ℕ) : Option ℕ := mode.fit (u32Max + 1) n

/-- `+` on `u32`. -/
def addU32 (mode : OverflowMode) (a b : ℕ) : Option ℕ := mode.add (u32Max + 1) a b

lemma fitU32_of_le {mode : OverflowMode} {n : ℕ} (h : n ≤ u32Max) : fitU32 mode n = some n :=
  OverflowMode.fit_of_lt (Nat.lt_succ_of_le h)

lemma addU32_of_le {mode : OverflowMode} {a b : ℕ} (h : a + b ≤ u32Max) :
    addU32 mode a b = some (a + b) :=
  fitU32_of_le h

lemma le_of_fitU32 {mode : OverflowMode} {n k : ℕ} (h : fitU32 mode n = some k) : k ≤ u32Max :=
  Nat.le_of_lt_succ (OverflowMode.lt_of_fit (Nat.succ_pos _) h)

section Calls

variable (G : GroupSuite Key) (mode : OverflowMode)

/-- `group_encrypt`.  A program that an overflow stops has no outcome. -/
def groupEncryptU32 (rng : Rng) (groupId plaintext : Bytes) (state : SenderKeyState Key) :
    Option (Result SenderKeyMessage × SenderKeyState Key) :=
  if state.isSender = false then some (.error .missingSenderKey, state)
  else
    let mk := hmacDerive G.hash state.chainKey 0x01
    match Aead.encrypt G.hash G.xchacha rng mk plaintext groupId with
    | .error e => some (.error e, state)
    | .ok ciphertext =>
        let iteration := state.iteration
        match messageAuth G state (authenticatedData groupId iteration ciphertext) with
        | .error e => some (.error e, state)
        | .ok auth => do
            let next ← addU32 mode state.iteration 1
            some (.ok { groupId, iteration, ciphertext, auth },
              { state with
                chainKey := hmacDerive G.hash state.chainKey 0x02
                iteration := next })

/-- The loop of `group_decrypt` that stores the keys passed over, the `i`-th of them next. -/
def storeSkippedU32 (iteration : ℕ) :
    ℕ → List Key → List (ℕ × Key) → Option (List (ℕ × Key))
  | _, [], store => some store
  | i, mk :: rest, store => do
      let iter ← addU32 mode iteration i
      storeSkippedU32 iteration (i + 1) rest
        (if store.length < maxGroupSkip then store ++ [(iter, mk)] else store)

/-- The loop of `group_decrypt` that moves the chain, for the steps that are left. -/
def advanceU32 (H : Hash Key) : ℕ → Key → ℕ → Option (Key × ℕ)
  | 0, ck, iteration => some (ck, iteration)
  | k + 1, ck, iteration => do
      let iteration ← addU32 mode iteration 1
      advanceU32 H k (hmacDerive H ck 0x02) iteration

/-- `group_decrypt`.  The differences in `verify_hmac` and `derive_message_key` are taken after a
comparison, and the two have no additions. -/
def groupDecryptU32 (message : SenderKeyMessage) (state : SenderKeyState Key) :
    Option (Result Bytes × SenderKeyState Key) :=
  match authenticate G state message with
  | .error e => some (.error e, state)
  | .ok _ =>
      match state.skippedMessageKeys.find? (fun p => p.1 = message.iteration) with
      | some (_, mk) =>
          some (Aead.decrypt G.hash G.xchacha mk message.ciphertext message.groupId,
            { state with
              skippedMessageKeys :=
                state.skippedMessageKeys.eraseP (fun p => p.1 = message.iteration) })
      | none =>
          match state.deriveMessageKey G.hash message.iteration with
          | .error e => some (.error e, state)
          | .ok (skipped, mk) =>
              match Aead.decrypt G.hash G.xchacha mk message.ciphertext message.groupId with
              | .error e => some (.error e, state)
              | .ok plaintext => do
                  let skippedMessageKeys ←
                    storeSkippedU32 mode state.iteration 0 skipped state.skippedMessageKeys
                  -- the number of rounds of `state.iteration..=message.iteration`
                  let steps := message.iteration + 1 - state.iteration
                  let (chainKey, iteration) ←
                    advanceU32 mode G.hash steps state.chainKey state.iteration
                  some (.ok plaintext, { state with skippedMessageKeys, chainKey, iteration })

/-- Calls of `group_decrypt`, one after the other. -/
def groupDecryptAllU32 (state : SenderKeyState Key) :
    List SenderKeyMessage → Option (List (Result Bytes) × SenderKeyState Key)
  | [] => some ([], state)
  | m :: ms => do
      let out ← groupDecryptU32 G mode m state
      let rest ← groupDecryptAllU32 out.2 ms
      some (out.1 :: rest.1, rest.2)

end Calls

/-! ## The machine and the exact calls -/

/-- An exact outcome, with the counter as the machine has it. -/
def fitCounter {α : Type} (mode : OverflowMode) (out : α × SenderKeyState Key) :
    Option (α × SenderKeyState Key) :=
  (fitU32 mode out.2.iteration).map (fun n => (out.1, { out.2 with iteration := n }))

section Refinement

variable {G : GroupSuite Key} {mode : OverflowMode} {state : SenderKeyState Key}
  {m : SenderKeyMessage}

lemma fitCounter_of_le {α : Type} {out : α × SenderKeyState Key}
    (h : out.2.iteration ≤ u32Max) : fitCounter mode out = some out := by
  rw [fitCounter, fitU32_of_le h]
  rfl

/-- Moving the chain: the counter may be fitted at the end. -/
lemma advanceU32_eq (H : Hash Key) (k : ℕ) : ∀ ck iteration, iteration ≤ u32Max →
    advanceU32 mode H k ck iteration =
      (fitU32 mode (iteration + k)).map (fun n => (SenderKeyState.advanceKey H k ck, n)) := by
  induction k with
  | zero =>
      intro ck iteration hfits
      have hfit : fitU32 mode (iteration + 0) = some iteration := fitU32_of_le hfits
      rw [hfit]
      rfl
  | succ k ih =>
      intro ck iteration hfits
      have hrest : ∀ n, addU32 mode iteration 1 = some n →
          advanceU32 mode H k (hmacDerive H ck 0x02) n =
            (addU32 mode n k).map
              (fun n => (SenderKeyState.advanceKey H k (hmacDerive H ck 0x02), n)) := by
        intro n hn
        exact ih _ n (le_of_fitU32 hn)
      have hsum : (addU32 mode iteration 1).bind (fun n => addU32 mode n k) =
          fitU32 mode (iteration + (k + 1)) := by
        rw [Nat.add_comm k, ← Nat.add_assoc]
        exact OverflowMode.fit_bind_add mode (iteration + 1) k
      calc advanceU32 mode H (k + 1) ck iteration
          = (addU32 mode iteration 1).bind (advanceU32 mode H k (hmacDerive H ck 0x02)) := rfl
        _ = (addU32 mode iteration 1).bind (fun n => (addU32 mode n k).map
              (fun n => (SenderKeyState.advanceKey H k (hmacDerive H ck 0x02), n))) :=
            Option.bind_congr hrest
        _ = ((addU32 mode iteration 1).bind (fun n => addU32 mode n k)).map
              (fun n => (SenderKeyState.advanceKey H (k + 1) ck, n)) := Option.map_bind.symm
        _ = (fitU32 mode (iteration + (k + 1))).map
              (fun n => (SenderKeyState.advanceKey H (k + 1) ck, n)) := by rw [hsum]

/-- The keys passed over have iterations before the message's, so nothing overflows. -/
lemma storeSkippedU32_eq {iteration : ℕ} (keys : List Key) : ∀ i store,
    iteration + i + keys.length ≤ u32Max + 1 →
    storeSkippedU32 mode iteration i keys store =
      some (storeSkipped (iteration + i) keys store) := by
  induction keys with
  | nil => exact fun i store _ => rfl
  | cons mk rest ih =>
      intro i store hfits
      rw [List.length_cons] at hfits
      have hadd : addU32 mode iteration i = some (iteration + i) := addU32_of_le (by omega)
      rw [storeSkippedU32, hadd]
      exact ih (i + 1) _ (by omega)

lemma length_passOver (H : Hash Key) (k : ℕ) : ∀ ck skipped,
    (SenderKeyState.passOver H k ck skipped).1.length = skipped.length + k := by
  induction k with
  | zero => exact fun ck skipped => rfl
  | succ k ih =>
      intro ck skipped
      rw [SenderKeyState.passOver, ih, List.length_append, List.length_singleton, Nat.add_assoc,
        Nat.add_comm 1]

/-- What `derive_message_key` passes over lies between the two iterations. -/
lemma length_of_deriveMessageKey {H : Hash Key} {i : ℕ} {skipped : List Key} {mk : Key}
    (h : state.deriveMessageKey H i = .ok (skipped, mk)) :
    state.iteration + skipped.length = i := by
  simp only [SenderKeyState.deriveMessageKey] at h
  split_ifs at h with hlt hgap
  obtain ⟨rfl, -⟩ := Prod.mk.inj (Except.ok.inj h)
  rw [length_passOver, List.length_nil]
  omega

/-- **`group_decrypt` on the machine** is the exact call, with its counter fitted. -/
lemma groupDecryptU32_eq (hstate : state.iteration ≤ u32Max) (hm : m.iteration ≤ u32Max) :
    groupDecryptU32 G mode m state = fitCounter mode (groupDecrypt G m state) := by
  rcases hauth : authenticate G state m with e | _
  · simp only [groupDecryptU32, groupDecrypt, hauth]
    exact (fitCounter_of_le hstate).symm
  rcases hfind : state.skippedMessageKeys.find? (fun p => p.1 = m.iteration) with _ | ⟨j, mk⟩
  swap
  · simp only [groupDecryptU32, groupDecrypt, hauth, hfind]
    exact (fitCounter_of_le hstate).symm
  rcases hkey : state.deriveMessageKey G.hash m.iteration with e | ⟨skipped, mk⟩
  · simp only [groupDecryptU32, groupDecrypt, hauth, hfind, hkey]
    exact (fitCounter_of_le hstate).symm
  rcases hopen : Aead.decrypt G.hash G.xchacha mk m.ciphertext m.groupId with e | plaintext
  · simp only [groupDecryptU32, groupDecrypt, hauth, hfind, hkey, hopen]
    exact (fitCounter_of_le hstate).symm
  have hlength := length_of_deriveMessageKey hkey
  have hstore : storeSkippedU32 mode state.iteration 0 skipped state.skippedMessageKeys =
      some (storeSkipped state.iteration skipped state.skippedMessageKeys) :=
    storeSkippedU32_eq skipped 0 _ (by omega)
  have hchain : advanceU32 mode G.hash (m.iteration + 1 - state.iteration) state.chainKey
      state.iteration = _ := advanceU32_eq G.hash _ _ _ hstate
  simp only [groupDecryptU32, groupDecrypt, hauth, hfind, hkey, hopen, hstore, hchain, fitCounter]
  cases fitU32 mode (state.iteration + (m.iteration + 1 - state.iteration)) with
  | none => rfl
  | some n => rfl

/-- **`group_encrypt` on the machine** is the exact call, with its counter fitted. -/
lemma groupEncryptU32_eq (hstate : state.iteration ≤ u32Max) (rng : Rng)
    (groupId plaintext : Bytes) :
    groupEncryptU32 G mode rng groupId plaintext state =
      fitCounter mode (groupEncrypt G rng groupId plaintext state) := by
  by_cases hsender : state.isSender = false
  · rw [groupEncryptU32, groupEncrypt, if_pos hsender, if_pos hsender]
    exact (fitCounter_of_le hstate).symm
  rw [groupEncryptU32, groupEncrypt, if_neg hsender, if_neg hsender]
  rcases hseal : Aead.encrypt G.hash G.xchacha rng (hmacDerive G.hash state.chainKey 0x01) plaintext
    groupId with e | ciphertext
  · simp only [hseal]
    exact (fitCounter_of_le hstate).symm
  rcases hauth : messageAuth G state (authenticatedData groupId state.iteration ciphertext)
    with e | auth
  · simp only [hseal, hauth]
    exact (fitCounter_of_le hstate).symm
  have hadd : addU32 mode state.iteration 1 = fitU32 mode (state.iteration + 1) := rfl
  simp only [hseal, hauth, hadd, fitCounter]
  cases fitU32 mode (state.iteration + 1) with
  | none => rfl
  | some n => rfl

/-- With checks, there is an outcome if the counter fits. -/
lemma isSome_fitCounter {α : Type} {out : α × SenderKeyState Key} :
    (fitCounter .checked out).isSome ↔ out.2.iteration ≤ u32Max := by
  rw [fitCounter, Option.isSome_map]
  exact OverflowMode.isSome_fit_checked.trans Nat.lt_succ_iff

/-- Without checks, there always is. -/
lemma fitCounter_wrapping {α : Type} (out : α × SenderKeyState Key) :
    fitCounter .wrapping out =
      some (out.1, { out.2 with iteration := out.2.iteration % (u32Max + 1) }) := by
  rw [fitCounter, fitU32, OverflowMode.fit_wrapping]
  rfl

lemma exists_fitCounter_wrapping {α : Type} {out : α × SenderKeyState Key} {a : α} :
    (∃ state', fitCounter .wrapping out = some (a, state')) ↔ out.1 = a := by
  rw [fitCounter_wrapping]
  constructor
  · rintro ⟨state', hout⟩
    exact congrArg Prod.fst (Option.some.inj hout)
  · rintro rfl
    exact ⟨_, rfl⟩

/-- The counter that is one beyond the last. -/
lemma fitCounter_beyond {α : Type} {out : α × SenderKeyState Key}
    (h : out.2.iteration = u32Max + 1) :
    fitCounter .checked out = none ∧
      ∃ state', fitCounter .wrapping out = some (out.1, state') ∧ state'.iteration = 0 := by
  constructor
  · rw [fitCounter, h, fitU32, OverflowMode.fit_checked le_rfl]
    rfl
  · rw [fitCounter_wrapping, h]
    exact ⟨_, rfl, Nat.mod_self _⟩

/-- A call of `group_decrypt` that fails leaves the counter alone. -/
lemma iteration_of_groupDecrypt_error {e : CryptoError}
    (h : (groupDecrypt G m state).1 = .error e) :
    (groupDecrypt G m state).2.iteration = state.iteration := by
  rcases groupDecrypt_cases G m state with ⟨e', hcall⟩ | ⟨p, -, -, hcall⟩ |
    ⟨skipped, plaintext, hcall⟩
  · rw [hcall]
  · rw [hcall]
  · rw [hcall] at h
    cases h

/-- One of `group_encrypt` that succeeds moves it by one, any other leaves it alone. -/
lemma iteration_of_groupEncrypt (rng : Rng) (groupId plaintext : Bytes) :
    (groupEncrypt G rng groupId plaintext state).2.iteration =
      match (groupEncrypt G rng groupId plaintext state).1 with
      | .ok _ => state.iteration + 1
      | .error _ => state.iteration := by
  rcases groupEncrypt_cases G rng groupId plaintext state with
    ⟨e, hcall⟩ | ⟨ciphertext, auth, hcall⟩
  · rw [hcall]
  · rw [hcall]

end Refinement

/-! ## Receivers made from a distribution message -/

section Receivers

variable {G : GroupSuite Key} {d : SenderKeyDistributionMessage Key} {w : Window}
  {m : SenderKeyMessage}

/-- **The counter, exactly.**  A message that is accepted, late or ahead, leaves the counter at the
next iteration that was not passed. -/
lemma iteration_of_groupDecrypt_ok (hvalid : w.Valid) (hwithin : w.Within d.iteration maxGroupSkip)
    {plaintext : Bytes} (h : (groupDecrypt G m (.onWindow G.hash d w)).1 = .ok plaintext) :
    (groupDecrypt G m (.onWindow G.hash d w)).2.iteration = max w.next (m.iteration + 1) := by
  rcases groupDecrypt_window hwithin m with ⟨e, hcall⟩ | ⟨w', haccept, hstate⟩
  · rw [hcall] at h
    cases h
  · rw [hstate]
    exact hvalid.next_accept haccept

/-- Where a receiver stands whose counter is exact. -/
structure CountedWindow (start : ℕ) (w : Window) : Prop where
  valid : w.Valid
  within : w.Within start maxGroupSkip
  next_le : w.next ≤ u32Max

lemma countedWindow_new (hd : d.iteration ≤ u32Max) :
    CountedWindow d.iteration ⟨d.iteration, []⟩ where
  valid := ⟨fun _ hi => absurd hi List.not_mem_nil, List.nodup_nil⟩
  within := ⟨le_rfl, fun _ hi => absurd hi List.not_mem_nil, Nat.zero_le _⟩
  next_le := hd

/-- **One call that does not overflow.**  The machine makes the exact call, in either setting, and
the receiver stands at a window again. -/
lemma CountedWindow.groupDecryptU32_exact (hw : CountedWindow d.iteration w)
    (hm : m.iteration ≤ u32Max)
    (hfits : (groupDecrypt G m (.onWindow G.hash d w)).2.iteration ≤ u32Max) :
    (∀ mode, groupDecryptU32 G mode m (.onWindow G.hash d w) =
        some (groupDecrypt G m (.onWindow G.hash d w))) ∧
      ∃ w', CountedWindow d.iteration w' ∧
        (groupDecrypt G m (.onWindow G.hash d w)).2 = .onWindow G.hash d w' := by
  constructor
  · intro mode
    rw [groupDecryptU32_eq hw.next_le hm]
    exact fitCounter_of_le hfits
  · rcases groupDecrypt_window hw.within m with ⟨e, hcall⟩ | ⟨w', haccept, hstate⟩
    · exact ⟨w, hw, congrArg Prod.snd hcall⟩
    · rw [hstate] at hfits
      exact ⟨w', ⟨hw.valid.accept haccept, hw.within.accept haccept, hfits⟩, hstate⟩

/-- A run that no overflow stops leaves the receiver with an exact counter. -/
lemma CountedWindow.groupDecryptAllU32_checked (ms : List SenderKeyMessage) : ∀ {w : Window},
    CountedWindow d.iteration w → (∀ m ∈ ms, m.iteration ≤ u32Max) →
    ∀ {out}, groupDecryptAllU32 G .checked (.onWindow G.hash d w) ms = some out →
      ∃ w', CountedWindow d.iteration w' ∧ out.2 = .onWindow G.hash d w' := by
  induction ms with
  | nil =>
      intro w hw _ out hrun
      obtain rfl := Option.some.inj hrun
      exact ⟨w, hw, rfl⟩
  | cons m ms ih =>
      intro w hw hms out hrun
      obtain ⟨hm, hms⟩ := List.forall_mem_cons.mp hms
      rw [groupDecryptAllU32] at hrun
      obtain ⟨first, hfirst, hrun⟩ := Option.bind_eq_some_iff.mp hrun
      obtain ⟨rest, hrest, hout⟩ := Option.bind_eq_some_iff.mp hrun
      have hfits : (groupDecrypt G m (.onWindow G.hash d w)).2.iteration ≤ u32Max := by
        apply isSome_fitCounter.mp
        rw [← groupDecryptU32_eq hw.next_le hm, hfirst]
        rfl
      obtain ⟨hcall, w₁, hw₁, hstate⟩ := hw.groupDecryptU32_exact hm hfits
      obtain rfl := Option.some.inj ((hcall .checked).symm.trans hfirst)
      rw [hstate] at hrest
      obtain ⟨w', hw', hend⟩ := ih hw₁ hms hrest
      obtain rfl := Option.some.inj hout
      exact ⟨w', hw', hend⟩

/-- A call on a message with an iteration below the last one does not overflow. -/
lemma CountedWindow.iteration_le (hw : CountedWindow d.iteration w) (hm : m.iteration < u32Max) :
    (groupDecrypt G m (.onWindow G.hash d w)).2.iteration ≤ u32Max := by
  rcases hresult : (groupDecrypt G m (.onWindow G.hash d w)).1 with e | plaintext
  · rw [iteration_of_groupDecrypt_error hresult]
    exact hw.next_le
  · rw [iteration_of_groupDecrypt_ok hw.valid hw.within hresult]
    exact max_le hw.next_le hm

lemma CountedWindow.groupDecryptAllU32_eq (mode : OverflowMode) (ms : List SenderKeyMessage) :
    ∀ {w : Window}, CountedWindow d.iteration w → (∀ m ∈ ms, m.iteration < u32Max) →
      groupDecryptAllU32 G mode (.onWindow G.hash d w) ms =
        some (groupDecryptAll G (.onWindow G.hash d w) ms) := by
  induction ms with
  | nil => exact fun _ _ => rfl
  | cons m ms ih =>
      intro w hw hms
      obtain ⟨hm, hms⟩ := List.forall_mem_cons.mp hms
      obtain ⟨hcall, w₁, hw₁, hstate⟩ := hw.groupDecryptU32_exact hm.le (hw.iteration_le hm)
      have hrest := ih hw₁ hms
      rw [← hstate] at hrest
      rw [groupDecryptAllU32, groupDecryptAll, hcall mode]
      simp only [Option.bind_eq_bind, Option.bind_some, hrest]

end Receivers

/-- **Runs on the machine.**  On messages with iterations below `u32::MAX`, and for a chain that
starts at any iteration, the machine's calls are the exact ones. -/
theorem groupDecryptAllU32_exact (G : GroupSuite Key) {d : SenderKeyDistributionMessage Key}
    (hd : d.iteration ≤ u32Max) {ms : List SenderKeyMessage} (hms : ∀ m ∈ ms, m.iteration < u32Max)
    (mode : OverflowMode) :
    groupDecryptAllU32 G mode (.fromDistribution d) ms =
      some (groupDecryptAll G (.fromDistribution d) ms) := by
  rw [fromDistribution_eq_onWindow G.hash d]
  exact (countedWindow_new hd).groupDecryptAllU32_eq mode ms hms

/-! ## When the counter is exact -/

/-- A call of `group_decrypt` in which no addition exceeds `u32::MAX` and which, if it succeeds,
leaves the counter at the maximum of what it was and the iteration after the message's. -/
def ExactDecrypt (G : GroupSuite Key) (m : SenderKeyMessage) (state : SenderKeyState Key) : Prop :=
  (groupDecryptU32 G .checked m state).isSome ∧
    ∀ mode plaintext state', groupDecryptU32 G mode m state = some (.ok plaintext, state') →
      state'.iteration = max state.iteration (m.iteration + 1)

/-- A call of `group_encrypt` in which no addition exceeds `u32::MAX` and which, if it succeeds,
leaves the counter one further. -/
def ExactEncrypt (G : GroupSuite Key) (rng : Rng) (groupId plaintext : Bytes)
    (state : SenderKeyState Key) : Prop :=
  (groupEncryptU32 G .checked rng groupId plaintext state).isSome ∧
    ∀ mode m state', groupEncryptU32 G mode rng groupId plaintext state = some (.ok m, state') →
      state'.iteration = state.iteration + 1

section Exact

variable {G : GroupSuite Key} {d : SenderKeyDistributionMessage Key} {w : Window}
  {m : SenderKeyMessage}

/-- **Exact unless beyond.**  A call whose success takes the counter to `target` is exact on the
machine unless it succeeds and the target does not fit. -/
lemma fitCounter_exact_iff {α : Type} {out : Result α × SenderKeyState Key} {target : ℕ}
    (herror : ∀ e, out.1 = .error e → out.2.iteration ≤ u32Max)
    (hok : ∀ a, out.1 = .ok a → out.2.iteration = target) :
    ((fitCounter .checked out).isSome ∧
        ∀ mode a state', fitCounter mode out = some (.ok a, state') → state'.iteration = target) ↔
      ¬ (u32Max < target ∧ ∃ a, out.1 = .ok a) := by
  rw [isSome_fitCounter]
  constructor
  · rintro ⟨hfits, -⟩ ⟨hbeyond, a, hresult⟩
    rw [hok a hresult] at hfits
    exact absurd hfits (not_le.mpr hbeyond)
  · intro hnot
    have hfits : out.2.iteration ≤ u32Max := by
      rcases hresult : out.1 with e | a
      · exact herror e hresult
      · rw [hok a hresult]
        exact not_lt.mp (fun hbeyond => hnot ⟨hbeyond, a, hresult⟩)
    refine ⟨hfits, ?_⟩
    intro mode a state' hout
    rw [fitCounter_of_le hfits] at hout
    obtain rfl := Option.some.inj hout
    exact hok a rfl

/-- The counter of a receiver is exact unless the last iteration is accepted. -/
lemma CountedWindow.exactDecrypt_iff (hw : CountedWindow d.iteration w)
    (hm : m.iteration ≤ u32Max) :
    ExactDecrypt G m (.onWindow G.hash d w) ↔ ¬ (m.iteration = u32Max ∧ ∃ plaintext state',
      groupDecryptU32 G .wrapping m (.onWindow G.hash d w) = some (.ok plaintext, state')) := by
  have hcall : ∀ mode, groupDecryptU32 G mode m (.onWindow G.hash d w) = _ :=
    fun mode => groupDecryptU32_eq hw.next_le hm
  have hlast : u32Max < max w.next (m.iteration + 1) ↔ m.iteration = u32Max := by
    have := hw.next_le
    omega
  simp only [ExactDecrypt, hcall, exists_fitCounter_wrapping, ← hlast]
  apply fitCounter_exact_iff
  · intro e hresult
    rw [iteration_of_groupDecrypt_error hresult]
    exact hw.next_le
  · intro plaintext hresult
    exact iteration_of_groupDecrypt_ok hw.valid hw.within hresult

/-- That of a sender is exact unless it stands at the last iteration. -/
lemma exactEncrypt_iff {state : SenderKeyState Key} (hstate : state.iteration ≤ u32Max) (rng : Rng)
    (groupId plaintext : Bytes) :
    ExactEncrypt G rng groupId plaintext state ↔ ¬ (state.iteration = u32Max ∧ ∃ m state',
      groupEncryptU32 G .wrapping rng groupId plaintext state = some (.ok m, state')) := by
  have hcall : ∀ mode, groupEncryptU32 G mode rng groupId plaintext state = _ :=
    fun mode => groupEncryptU32_eq hstate rng groupId plaintext
  have hiteration : (groupEncrypt G rng groupId plaintext state).2.iteration = _ :=
    iteration_of_groupEncrypt rng groupId plaintext
  have hlast : u32Max < state.iteration + 1 ↔ state.iteration = u32Max := by omega
  simp only [ExactEncrypt, hcall, exists_fitCounter_wrapping, ← hlast]
  apply fitCounter_exact_iff
  · intro e hresult
    rw [hiteration, hresult]
    exact hstate
  · intro m hresult
    rw [hiteration, hresult]

end Exact

/-- The next message of the chain is taken. -/
lemma groupDecrypt_next {G : GroupSuite Key} (hG : G.Correct) {base : Key} {seed : Bytes}
    {auth : SenderKeyAuth}
    {r : SenderKeyState Key} (hr : ReceiverOf G seed auth r) {n : ℕ} {m : SenderKeyMessage}
    {plaintext : Bytes} (hm : GenuineMessage G base seed auth n m plaintext) :
    groupDecrypt G m (r.atWindow G.hash base (.after n [])) =
      (.ok plaintext, r.atWindow G.hash base (.after (n + 1) [])) := by
  have htakes : takes auth (.after n []) n = some (.after (n + 1) []) := by
    rw [Window.after_nil, Window.after_nil]
    cases auth with
    | signed => simp [takes, Window.accept_of_notMem, Window.ahead]
    | hmac => simp [takes, Window.ahead]
  have hvalid : (Window.after n []).Valid := Window.valid_after
  have hopened := groupDecrypt_genuine hG hr hvalid hm
  simp only [htakes] at hopened
  exact hopened

/-- **When the counter does not overflow.**  Take a receiver made from a distribution message with
any iteration, after any calls of `group_decrypt` that did not overflow.  The next call is exact
unless the message has iteration `u32::MAX` and is accepted.  Such a state does not encrypt; for any
state that does, a call of `group_encrypt` is exact unless it succeeds at iteration `u32::MAX`. -/
theorem counter_exact_iff (G : GroupSuite Key) {d : SenderKeyDistributionMessage Key}
    (hd : d.iteration ≤ u32Max) {ms : List SenderKeyMessage} (hms : ∀ m ∈ ms, m.iteration ≤ u32Max)
    {results : List (Result Bytes)} {state : SenderKeyState Key}
    (hrun : groupDecryptAllU32 G .checked (.fromDistribution d) ms = some (results, state)) :
    (∀ m : SenderKeyMessage, m.iteration ≤ u32Max →
      (ExactDecrypt G m state ↔ ¬ (m.iteration = u32Max ∧ ∃ plaintext state',
        groupDecryptU32 G .wrapping m state = some (.ok plaintext, state')))) ∧
    (∀ mode rng groupId plaintext,
      groupEncryptU32 G mode rng groupId plaintext state = some (.error .missingSenderKey, state)) ∧
    ∀ sender : SenderKeyState Key, sender.iteration ≤ u32Max → ∀ rng groupId plaintext,
      (ExactEncrypt G rng groupId plaintext sender ↔ ¬ (sender.iteration = u32Max ∧ ∃ m sender',
        groupEncryptU32 G .wrapping rng groupId plaintext sender = some (.ok m, sender'))) := by
  rw [fromDistribution_eq_onWindow G.hash d] at hrun
  obtain ⟨w, hw, hstate⟩ := (countedWindow_new hd).groupDecryptAllU32_checked ms hms hrun
  obtain rfl : state = .onWindow G.hash d w := hstate
  refine ⟨fun m hm => hw.exactDecrypt_iff hm, ?_, ?_⟩
  · intro mode rng groupId plaintext
    rfl
  · intro sender hsender rng groupId plaintext
    exact exactEncrypt_iff hsender rng groupId plaintext

/-- The last two messages of a chain, both accepted: the counter is exact for the first of them and
not for the second. -/
theorem counter_exact_iff_last_two :
    let d := distributionMessageForExisting (senderAt idealGroup 0 [] .signed (u32Max - 1)) []
    ∃ m m' state, groupDecryptAllU32 idealGroup .checked (.fromDistribution d) [m] =
        some ([.ok [10]], state) ∧
      ExactDecrypt idealGroup m (.fromDistribution d) ∧
      (∃ state', groupDecryptU32 idealGroup .wrapping m' state = some (.ok [11], state')) ∧
      ¬ ExactDecrypt idealGroup m' state := by
  intro d
  obtain ⟨m, -, hm⟩ := groupEncrypt_senderAt 0 [] .signed idealGroup_correct (u32Max - 1)
    ⟨constRng 1, [], [10]⟩
  obtain ⟨m', -, hm'⟩ := groupEncrypt_senderAt 0 [] .signed idealGroup_correct u32Max
    ⟨constRng 2, [], [11]⟩
  obtain ⟨hr, hwindow⟩ := fromDistribution_senderAt (G := idealGroup) 0 [] .signed (u32Max - 1) []
  change SenderKeyState.fromDistribution d = _ at hwindow
  have hd : d.iteration ≤ u32Max := Nat.sub_le _ _
  have hlt : m.iteration < u32Max := by
    rw [hm.iteration_eq]
    decide
  -- the first call leaves the receiver at the last iteration
  have hopened := groupDecrypt_next idealGroup_correct hr hm
  have hopened' := groupDecrypt_next idealGroup_correct hr hm'
  rw [← hwindow, Nat.sub_add_cancel (by decide : 1 ≤ u32Max)] at hopened
  have hrun : groupDecryptAllU32 idealGroup .checked (.fromDistribution d) [m] =
      some ([.ok [10]], (SenderKeyState.fromDistribution d).atWindow idealGroup.hash 0
        (.after u32Max [])) := by
    rw [groupDecryptAllU32_exact idealGroup hd (List.forall_mem_singleton.mpr hlt), groupDecryptAll,
      hopened]
    rfl
  have haccepted : ∃ state', groupDecryptU32 idealGroup .wrapping m'
      ((SenderKeyState.fromDistribution d).atWindow idealGroup.hash 0 (.after u32Max [])) =
        some (.ok [11], state') := by
    rw [groupDecryptU32_eq (by rw [Window.after_nil]; exact le_rfl) hm'.iteration_eq.le, hopened',
      fitCounter_wrapping]
    exact ⟨_, rfl⟩
  refine ⟨m, m', _, hrun, ?_, haccepted, ?_⟩
  · have hstart := (counter_exact_iff idealGroup hd (List.forall_mem_nil _) rfl).1 m hlt.le
    exact hstart.mpr (fun hlast => absurd hlast.1 hlt.ne)
  · intro hexact
    have hnext := (counter_exact_iff idealGroup hd (List.forall_mem_singleton.mpr hlt.le) hrun).1 m'
      hm'.iteration_eq.le
    exact hnext.mp hexact ⟨hm'.iteration_eq, _, haccepted⟩

/-! ## The last iteration -/

section Last

variable {G : GroupSuite Key}

/-- **A chain at its end.**  A sender at iteration `u32::MAX` makes a message and a receiver of its
chain accepts it: with checks both calls stop the program, without them both counters are back at
zero. -/
lemma overflow_at_last (hG : G.Correct) (base : Key) (seed : Bytes) (auth : SenderKeyAuth)
    (call : GroupCall) {ciphertext : Bytes}
    (hseal : Aead.encrypt G.hash G.xchacha call.rng (senderMessageKey G.hash base u32Max)
      call.plaintext call.groupId = .ok ciphertext) :
    let sender := senderAt G base seed auth u32Max
    let state := SenderKeyState.fromDistribution (distributionMessageForExisting sender [])
    ∃ m sender' state',
      groupEncryptU32 G .checked call.rng call.groupId call.plaintext sender = none ∧
      groupEncryptU32 G .wrapping call.rng call.groupId call.plaintext sender =
        some (.ok m, sender') ∧ sender'.iteration = 0 ∧
      groupDecryptU32 G .checked m state = none ∧
      groupDecryptU32 G .wrapping m state = some (.ok call.plaintext, state') ∧
      state'.iteration = 0 := by
  intro sender state
  have hsend := groupEncrypt_senderAt base seed auth hG u32Max call
  rw [hseal] at hsend
  obtain ⟨m, hmade, hgenuine⟩ := hsend
  obtain ⟨hr, hwindow⟩ : ReceiverOf G seed auth state ∧
      state = state.atWindow G.hash base (.after u32Max []) :=
    fromDistribution_senderAt base seed auth u32Max []
  -- the receiver takes the message as it would any other
  have hopened := groupDecrypt_next hG hr hgenuine
  rw [← hwindow] at hopened
  have hsent : groupEncrypt G call.rng call.groupId call.plaintext sender = _ := hmade
  have hcounter : (groupEncrypt G call.rng call.groupId call.plaintext sender).2.iteration =
      u32Max + 1 := by
    rw [hsent]
    rfl
  have hcounter' : (groupDecrypt G m state).2.iteration = u32Max + 1 := by
    rw [hopened, Window.after_nil]
    rfl
  obtain ⟨hsendStops, sender', hsendWraps, hzero⟩ := fitCounter_beyond hcounter
  obtain ⟨hstops, state', hwraps, hzero'⟩ := fitCounter_beyond hcounter'
  rw [hsent] at hsendWraps
  rw [hopened] at hwraps
  refine ⟨m, sender', state', ?_, ?_, hzero, ?_, ?_, hzero'⟩
  · rw [groupEncryptU32_eq le_rfl]
    exact hsendStops
  · rw [groupEncryptU32_eq le_rfl, hsent]
    exact hsendWraps
  · rw [groupDecryptU32_eq le_rfl hgenuine.iteration_eq.le]
    exact hstops
  · rw [groupDecryptU32_eq le_rfl hgenuine.iteration_eq.le, hopened]
    exact hwraps

end Last

/-- A sender at the last iteration and a receiver of its chain, which is what the distribution
message says at that point. -/
theorem counter_overflows :
    let sender := senderAt idealGroup 0 [] .signed u32Max
    let state := SenderKeyState.fromDistribution (distributionMessageForExisting sender [])
    ∃ m sender' state',
      groupEncryptU32 idealGroup .checked (constRng 1) [] [10] sender = none ∧
      groupEncryptU32 idealGroup .wrapping (constRng 1) [] [10] sender = some (.ok m, sender') ∧
      sender'.iteration = 0 ∧
      groupDecryptU32 idealGroup .checked m state = none ∧
      groupDecryptU32 idealGroup .wrapping m state = some (.ok [10], state') ∧
      state'.iteration = 0 :=
  overflow_at_last idealGroup_correct 0 [] .signed ⟨constRng 1, [], [10]⟩ rfl

end Hushwire
