import Hushwire.Group.SenderKey
import Hushwire.Ratchet.Ideal

/-!
# Group messages over an unreliable network

A sender makes any calls of `group_encrypt`; a receiver is made from a distribution message taken
at some point of it, and the messages reach the receiver in some order.  `groupEncryptAll` and
`deliver` are these two runs: the receiver never influences the sender, so every interleaving of
the two is one of them after the other.

`delivery_any_order` says that all messages are opened and that the order leaves no trace, for
signed chains; for HMAC chains the order has to be increasing.  `modes_agree_iff` says that this
is the only difference between the two: what an HMAC chain refuses and a signed one takes are the
messages whose keys it kept.
-/

namespace Hushwire

variable {Key : Type}

/-- One call of `group_encrypt`. -/
structure GroupCall where
  rng : Rng
  groupId : Bytes
  plaintext : Bytes

/-- What a call says: the group and the plaintext. -/
def GroupCall.content (call : GroupCall) : Bytes × Bytes := (call.groupId, call.plaintext)

section Runs

variable (G : GroupSuite Key)

/-- The messages of a list of calls, each with its plaintext, and the sender after them.  A call
that fails sends nothing. -/
def groupEncryptAll (state : SenderKeyState Key) :
    List GroupCall → List (SenderKeyMessage × Bytes) × SenderKeyState Key
  | [] => ([], state)
  | call :: calls =>
      match groupEncrypt G call.rng call.groupId call.plaintext state with
      | (.error _, state) => groupEncryptAll state calls
      | (.ok m, state) =>
          let out := groupEncryptAll state calls
          ((m, call.plaintext) :: out.1, out.2)

/-- The results of a list of calls of `group_decrypt`, and the receiver after them. -/
def groupDecryptAll (state : SenderKeyState Key) :
    List SenderKeyMessage → List (Result Bytes) × SenderKeyState Key
  | [] => ([], state)
  | m :: ms =>
      let out := groupDecrypt G m state
      let rest := groupDecryptAll out.2 ms
      (out.1 :: rest.1, rest.2)

/-- Deliver the messages at the given positions of what was sent. -/
def deliver (sent : List (SenderKeyMessage × Bytes)) (order : List ℕ) (state : SenderKeyState Key) :
    List (Result Bytes) × SenderKeyState Key :=
  groupDecryptAll G state ((order.filterMap (fun i => sent[i]?)).map Prod.fst)

end Runs

/-! ## The sender -/

section Sender

variable {G : GroupSuite Key} (base : Key) (seed : Bytes) (auth : SenderKeyAuth)

/-- The public half of the signing key, on a signed chain. -/
def signingPublicOf (G : GroupSuite Key) (seed : Bytes) : SenderKeyAuth → Option Bytes
  | .signed => some (G.ed25519.verifyingKey seed)
  | .hmac => none

/-- The seed of the signing key, on a signed chain. -/
def signingPrivateOf (seed : Bytes) : SenderKeyAuth → Option Bytes
  | .signed => some seed
  | .hmac => none

/-- The sender after `n` messages. -/
def senderAt (G : GroupSuite Key) (base : Key) (seed : Bytes) (auth : SenderKeyAuth) (n : ℕ) :
    SenderKeyState Key where
  chainKey := senderChainKey G.hash base n
  iteration := n
  isSender := true
  authMode := auth
  signingPublic := signingPublicOf G seed auth
  signingPrivate := signingPrivateOf seed auth
  skippedMessageKeys := []

lemma create_eq (groupId : Bytes) : createSenderKeyDistributionMessage G base seed groupId auth =
    (senderAt G base seed auth 0,
      distributionMessageForExisting (senderAt G base seed auth 0) groupId) := by
  cases auth <;> rfl

/-- A message is made if the AEAD seals the plaintext, and then it is genuine. -/
lemma groupEncrypt_senderAt (hG : G.Correct) (n : ℕ) (call : GroupCall) :
    match Aead.encrypt G.hash G.xchacha call.rng (senderMessageKey G.hash base n) call.plaintext
        call.groupId with
    | .error e => groupEncrypt G call.rng call.groupId call.plaintext
      (senderAt G base seed auth n) =
        (.error e, senderAt G base seed auth n)
    | .ok _ => ∃ m, groupEncrypt G call.rng call.groupId call.plaintext
          (senderAt G base seed auth n) = (.ok m, senderAt G base seed auth (n + 1)) ∧
        GenuineMessage G base seed auth n m call.plaintext := by
  have hmk : hmacDerive G.hash (senderAt G base seed auth n).chainKey 0x01 =
      senderMessageKey G.hash base n := rfl
  have hsender : ¬ (senderAt G base seed auth n).isSender = false := Bool.noConfusion
  rw [groupEncrypt, if_neg hsender]
  simp only [hmk]
  cases hseal : Aead.encrypt G.hash G.xchacha call.rng (senderMessageKey G.hash base n)
      call.plaintext call.groupId with
  | error e => rfl
  | ok ciphertext =>
      have hopens := Aead.decrypt_encrypt G.hash hG.xchacha hseal
      cases auth with
      | signed => exact ⟨_, rfl, rfl, hopens, rfl⟩
      | hmac => exact ⟨_, rfl, rfl, hopens, rfl⟩

/-- **What a sender has sent.**  The message at position `k` is the one of iteration `n + k`. -/
lemma groupEncryptAll_senderAt (hG : G.Correct) (calls : List GroupCall) : ∀ n,
    (groupEncryptAll G (senderAt G base seed auth n) calls).2 =
        senderAt G base seed auth
          (n + (groupEncryptAll G (senderAt G base seed auth n) calls).1.length) ∧
      ∀ k m plaintext, (groupEncryptAll G (senderAt G base seed auth n) calls).1[k]? =
          some (m, plaintext) → GenuineMessage G base seed auth (n + k) m plaintext := by
  induction calls with
  | nil =>
      intro n
      refine ⟨rfl, ?_⟩
      intro k m plaintext hk
      cases hk
  | cons call calls ih =>
      intro n
      have hcall := groupEncrypt_senderAt base seed auth hG n call
      split at hcall
      · simp only [groupEncryptAll, hcall]
        exact ih n
      · obtain ⟨m, hok, hgenuine⟩ := hcall
        obtain ⟨hstate, hsent⟩ := ih (n + 1)
        simp only [groupEncryptAll, hok]
        refine ⟨?_, ?_⟩
        · rw [hstate, List.length_cons, Nat.add_assoc, Nat.add_comm 1]
        · intro k m' plaintext hk
          cases k with
          | zero =>
              obtain ⟨rfl, rfl⟩ := Prod.mk.inj (Option.some.inj hk)
              exact hgenuine
          | succ k =>
              have hk' := hsent k m' plaintext hk
              rwa [Nat.add_assoc, Nat.add_comm 1] at hk'

/-- **Which calls send.**  Those whose plaintext the AEAD seals, whatever the mode and the keys. -/
lemma plaintexts_groupEncryptAll (hG : G.Correct) (hU : G.xchacha.Uniform)
    (calls : List GroupCall) : ∀ n,
    (groupEncryptAll G (senderAt G base seed auth n) calls).1.map Prod.snd =
      ((calls.map GroupCall.content).filter
        (fun c => (G.xchacha.encrypt G.hash.zero [] c.2 c.1).isSome)).map Prod.snd := by
  induction calls with
  | nil => intro n; rfl
  | cons call calls ih =>
      intro n
      have hcall := groupEncrypt_senderAt base seed auth hG n call
      have hsome := hU (Aead.deriveEncKey G.hash (senderMessageKey G.hash base n)) G.hash.zero
        (call.rng.fill nonceSize) [] call.plaintext call.groupId
      rw [List.map_cons, List.filter_cons]
      simp only [GroupCall.content, ← hsome]
      split at hcall
      · rename_i e hseal
        have hnone := Aead.encrypt_eq_error _ hseal
        simp only [groupEncryptAll, hcall, hnone]
        exact ih n
      · rename_i ct hseal
        obtain ⟨m, hok, -⟩ := hcall
        have hsealed := Aead.isSome_of_encrypt_eq_ok _ hseal
        simp only [groupEncryptAll, hok, hsealed, if_true, List.map_cons]
        rw [ih (n + 1)]

/-- A receiver made from a distribution message is where the sender was. -/
lemma fromDistribution_senderAt (n : ℕ) (groupId : Bytes) :
    ReceiverOf G seed auth (.fromDistribution
        (distributionMessageForExisting (senderAt G base seed auth n) groupId)) ∧
      SenderKeyState.fromDistribution
          (distributionMessageForExisting (senderAt G base seed auth n) groupId) =
        (SenderKeyState.fromDistribution (distributionMessageForExisting
          (senderAt G base seed auth n) groupId)).atWindow G.hash base (.after n []) := by
  rw [Window.after_nil]
  cases auth <;> exact ⟨⟨rfl, rfl⟩, rfl⟩

end Sender

/-! ## The receiver -/

section Receiver

variable {G : GroupSuite Key} {base : Key} {seed : Bytes} {auth : SenderKeyAuth}
  {r : SenderKeyState Key} {sent : List (SenderKeyMessage × Bytes)} {w : Window} {i start : ℕ}

lemma deliver_cons_none (h : sent[i]? = none) (order : List ℕ) (state : SenderKeyState Key) :
    deliver G sent (i :: order) state = deliver G sent order state := by
  rw [deliver, List.filterMap_cons_none h]
  rfl

lemma deliver_cons_some {m : SenderKeyMessage} {plaintext : Bytes}
    (h : sent[i]? = some (m, plaintext)) (order : List ℕ) (state : SenderKeyState Key) :
    deliver G sent (i :: order) state =
      ((groupDecrypt G m state).1 :: (deliver G sent order (groupDecrypt G m state).2).1,
        (deliver G sent order (groupDecrypt G m state).2).2) := by
  rw [deliver, List.filterMap_cons_some h]
  rfl

/-- A number that fits is taken, on an HMAC chain if it is above all that were taken. -/
lemma takes_after {taken : List ℕ} (hfits : Window.Fits start maxGroupSkip (taken ++ [i]))
    (hnew : i ∉ taken) (hstart : start ≤ i) (habove : auth = .hmac → ∀ j ∈ taken, j < i) :
    takes auth (.after start taken) i = some (.after start (taken ++ [i])) := by
  have haccept := Window.accept_after hfits hnew hstart
  cases auth with
  | signed => exact haccept
  | hmac =>
      rw [Window.accept_of_notMem (Window.notMem_kept_after (habove rfl) hstart)] at haccept
      exact haccept

/-- **Deliveries that fit.**  After `taken`, each message of `order` is opened, and the receiver
ends where the set of all of them puts it. -/
lemma deliver_after (hG : G.Correct) (hr : ReceiverOf G seed auth r)
    (hsent : ∀ k m plaintext, sent[k]? = some (m, plaintext) →
      GenuineMessage G base seed auth k m plaintext) (order : List ℕ) :
    ∀ taken : List ℕ, (∀ i ∈ order, start ≤ i ∧ i < sent.length) → (taken ++ order).Nodup →
      Window.Fits start maxGroupSkip (taken ++ order) →
      (auth = .hmac → (taken ++ order).Pairwise (· < ·)) →
      deliver G sent order (r.atWindow G.hash base (.after start taken)) =
        ((order.filterMap (fun i => sent[i]?)).map (fun x => .ok x.2),
          r.atWindow G.hash base (.after start (taken ++ order))) := by
  induction order with
  | nil =>
      intro taken _ _ _ _
      rw [List.append_nil]
      rfl
  | cons i order ih =>
      intro taken hrange hnodup hfits hincreasing
      obtain ⟨hstart, hlt⟩ := hrange i List.mem_cons_self
      obtain ⟨⟨m, plaintext⟩, hi⟩ : ∃ x, sent[i]? = some x := ⟨_, List.getElem?_eq_getElem hlt⟩
      have hsplit : taken ++ i :: order = (taken ++ [i]) ++ order := by simp
      rw [hsplit] at hnodup hfits hincreasing
      have hnew : i ∉ taken := by
        have := (List.nodup_append.mp hnodup).1
        rw [List.nodup_append] at this
        exact fun hmem => this.2.2 i hmem i (List.mem_singleton_self i) rfl
      have habove : auth = .hmac → ∀ j ∈ taken, j < i := by
        intro hmac j hj
        have := (List.pairwise_append.mp (hincreasing hmac)).1
        exact (List.pairwise_append.mp this).2.2 j hj i (List.mem_singleton_self i)
      have hcall := groupDecrypt_genuine (w := .after start taken) hG hr Window.valid_after
        (hsent i m plaintext hi)
      rw [takes_after hfits.left hnew hstart habove] at hcall
      rw [deliver_cons_some hi, hcall, List.filterMap_cons_some hi, hsplit]
      simp only [List.map_cons]
      rw [ih (taken ++ [i]) (fun j hj => hrange j (List.mem_cons_of_mem _ hj)) hnodup hfits
        hincreasing]

/-- The orders in which the messages from iteration `start` on may arrive: each at most once,
with no gap and no backlog above the limit, and on an HMAC chain upwards. -/
structure Deliverable (sent : List (SenderKeyMessage × Bytes)) (start : ℕ) (auth : SenderKeyAuth)
    (order : List ℕ) : Prop where
  range : ∀ i ∈ order, start ≤ i ∧ i < sent.length
  nodup : order.Nodup
  fits : Window.Fits start maxGroupSkip order
  increasing : auth = .hmac → order.Pairwise (· < ·)

end Receiver

/-- **Group messages arrive in any order.**  Take a new sender, any calls on it, and a receiver
made from its first distribution message or from one taken after the calls `before`.  If the
messages from there on arrive in an order that is deliverable, each is opened to its plaintext.
Two orders of the same messages leave the receiver in the same state. -/
theorem delivery_any_order {G : GroupSuite Key} (hG : G.Correct) (base : Key)
    (seed groupId groupId' : Bytes) (auth : SenderKeyAuth) (before calls : List GroupCall)
    {d : SenderKeyDistributionMessage Key}
    (hd : before = [] ∧ d = (createSenderKeyDistributionMessage G base seed groupId auth).2 ∨
      d = distributionMessageForExisting (groupEncryptAll G
        (createSenderKeyDistributionMessage G base seed groupId auth).1 before).2 groupId')
    {sent : List (SenderKeyMessage × Bytes)} (hsent : sent = (groupEncryptAll G
      (createSenderKeyDistributionMessage G base seed groupId auth).1 (before ++ calls)).1)
    {order : List ℕ} (horder : Deliverable sent d.iteration auth order) :
    (deliver G sent order (.fromDistribution d)).1 =
        (order.filterMap (fun i => sent[i]?)).map (fun x => .ok x.2) ∧
      ∀ order', Deliverable sent d.iteration auth order' → (∀ i, i ∈ order' ↔ i ∈ order) →
        (deliver G sent order' (.fromDistribution d)).2 =
          (deliver G sent order (.fromDistribution d)).2 := by
  rw [create_eq] at hd hsent
  obtain ⟨hstate, -⟩ := groupEncryptAll_senderAt base seed auth hG before 0
  obtain ⟨-, hgenuine⟩ := groupEncryptAll_senderAt base seed auth hG (before ++ calls) 0
  simp only [Nat.zero_add] at hgenuine hstate
  -- either way the distribution message is that of the sender at some iteration
  obtain ⟨n, id, rfl⟩ :
      ∃ n id, d = distributionMessageForExisting (senderAt G base seed auth n) id := by
    rcases hd with ⟨-, rfl⟩ | rfl
    · exact ⟨0, groupId, rfl⟩
    · exact ⟨_, groupId', by rw [hstate]⟩
  obtain ⟨hr, hwindow⟩ := fromDistribution_senderAt (G := G) base seed auth n id
  subst hsent
  have hrun : ∀ order', Deliverable _ n auth order' → _ := fun order' h =>
    deliver_after hG hr hgenuine order' [] h.range h.nodup h.fits h.increasing
  rw [← hwindow] at hrun
  have hthis := hrun order horder
  refine ⟨by rw [hthis], ?_⟩
  intro order' horder' hsame
  rw [hrun order' horder', hthis]
  simp only [List.nil_append]
  rw [Window.after_congr hsame]

/-! ## An ideal suite for groups -/

noncomputable def idealGroup : GroupSuite ℕ where
  hash := idealPrims.hash
  xchacha := Ideal.xchacha
  ed25519 := Ideal.ed25519

lemma idealGroup_correct : idealGroup.Correct where
  xchacha := Ideal.xchacha_correct
  ed25519 := Ideal.ed25519_correct

lemma idealGroup_uniform : idealGroup.xchacha.Uniform := fun _ _ _ _ _ _ => rfl

/-- Two messages to one group. -/
def twoCalls : List GroupCall := [⟨constRng 1, [], [10]⟩, ⟨constRng 2, [], [11]⟩]

/-- Both are sent, whatever the mode. -/
lemma plaintexts_twoCalls (auth : SenderKeyAuth) :
    (groupEncryptAll idealGroup (createSenderKeyDistributionMessage idealGroup 0 [] [] auth).1
      twoCalls).1.map Prod.snd = [[10], [11]] := by
  rw [create_eq, plaintexts_groupEncryptAll 0 [] auth idealGroup_correct idealGroup_uniform]
  rfl

/-- The second message arrives first. -/
theorem delivery_any_order_swapped :
    (deliver idealGroup
        (groupEncryptAll idealGroup
          (createSenderKeyDistributionMessage idealGroup 0 [] [] .signed).1 twoCalls).1 [1, 0]
        (.fromDistribution
          (createSenderKeyDistributionMessage idealGroup 0 [] [] .signed).2)).1 =
      [.ok [11], .ok [10]] := by
  have hplain := plaintexts_twoCalls .signed
  generalize hsent : (groupEncryptAll idealGroup _ twoCalls).1 = sent at hplain ⊢
  have hlen : sent.length = 2 := by rw [← List.length_map Prod.snd, hplain]; rfl
  have hfits : Window.Fits 0 maxGroupSkip ([] ++ [1] ++ [0]) := by
    rw [Window.fits_concat, Window.fits_concat]
    exact ⟨⟨Window.fits_nil, by decide, by decide⟩, by decide, by decide⟩
  have horder : Deliverable sent 0 .signed [1, 0] := by
    refine ⟨?_, by decide, hfits, fun h => SenderKeyAuth.noConfusion h⟩
    rw [hlen]
    decide
  have h := (delivery_any_order idealGroup_correct 0 [] [] [] .signed [] twoCalls
    (.inl ⟨rfl, rfl⟩) hsent.symm horder).1
  obtain ⟨x, y, rfl⟩ := List.length_eq_two.mp hlen
  obtain ⟨hx, hy⟩ := List.cons.inj hplain
  rw [h, ← hx, ← (List.cons.inj hy).1]
  rfl

/-! ## The two modes -/

section Modes

variable {G : GroupSuite Key} {base : Key} {seed : Bytes} {auth : SenderKeyAuth}
  {r : SenderKeyState Key} {sent : List (SenderKeyMessage × Bytes)}

/-- What a receiver at `w` answers to the messages at the given positions, and where it ends. -/
def takeAll (auth : SenderKeyAuth) (plaintexts : List Bytes) :
    Window → List ℕ → List (Option Bytes) × Window
  | w, [] => ([], w)
  | w, i :: order =>
      match plaintexts[i]? with
      | none => takeAll auth plaintexts w order
      | some plaintext =>
          match takes auth w i with
          | none =>
              let out := takeAll auth plaintexts w order
              (none :: out.1, out.2)
          | some w' =>
              let out := takeAll auth plaintexts w' order
              (some plaintext :: out.1, out.2)

lemma valid_takes {w w' : Window} (hw : w.Valid) {i : ℕ} (h : takes auth w i = some w') :
    w'.Valid := by
  cases auth with
  | signed => exact hw.accept h
  | hmac => exact hw.ahead h

/-- **Deliveries follow the window.**  Message by message, the receiver answers what its window
says and stands where the window says. -/
lemma deliver_eq_takeAll (hG : G.Correct) (hr : ReceiverOf G seed auth r)
    (hsent : ∀ k m plaintext, sent[k]? = some (m, plaintext) →
      GenuineMessage G base seed auth k m plaintext) (order : List ℕ) : ∀ w : Window, w.Valid →
    (deliver G sent order (r.atWindow G.hash base w)).1.map Except.toOption =
        (takeAll auth (sent.map Prod.snd) w order).1 ∧
      (deliver G sent order (r.atWindow G.hash base w)).2 =
        r.atWindow G.hash base (takeAll auth (sent.map Prod.snd) w order).2 := by
  induction order with
  | nil => intro w _; exact ⟨rfl, rfl⟩
  | cons i order ih =>
      intro w hw
      rcases hi : sent[i]? with _ | ⟨m, plaintext⟩
      · have hnone : (sent.map Prod.snd)[i]? = none := by rw [List.getElem?_map, hi]; rfl
        rw [deliver_cons_none hi, takeAll]
        simp only [hnone]
        exact ih w hw
      · have hsome : (sent.map Prod.snd)[i]? = some plaintext := by
          rw [List.getElem?_map, hi]
          rfl
        have hcall := groupDecrypt_genuine hG hr hw (hsent i m plaintext hi)
        rw [deliver_cons_some hi, takeAll]
        simp only [hsome]
        rcases htakes : takes auth w i with _ | w'
        · rw [htakes] at hcall
          obtain ⟨e, hcall⟩ := hcall
          obtain ⟨hresults, hstate⟩ := ih w hw
          rw [hcall]
          exact ⟨congrArg (none :: ·) hresults, hstate⟩
        · rw [htakes] at hcall
          obtain ⟨hresults, hstate⟩ := ih w' (valid_takes hw htakes)
          rw [hcall]
          exact ⟨congrArg (some plaintext :: ·) hresults, hstate⟩

/-- A property of every position of a list, by its first element. -/
lemma forall_position_cons {α : Type} {a : α} {l : List α} {P : List α → α → Prop} :
    (∀ pre x post, a :: l = pre ++ x :: post → P pre x) ↔
      P [] a ∧ ∀ pre x post, l = pre ++ x :: post → P (a :: pre) x := by
  constructor
  · intro h
    refine ⟨h [] a l rfl, ?_⟩
    rintro pre x post rfl
    exact h (a :: pre) x post rfl
  · rintro ⟨hfirst, hrest⟩ pre x post hl
    rcases pre with _ | ⟨b, pre⟩
    · obtain ⟨rfl, -⟩ := List.cons.inj hl
      exact hfirst
    · obtain ⟨rfl, htail⟩ := List.cons.inj hl
      exact hrest pre x post htail

/-- **Where the modes part.**  From one window they give the same answers exactly as long as
nothing arrives that the signed receiver has kept. -/
lemma takeAll_eq_iff (plaintexts : List Bytes) (order : List ℕ) : ∀ w : Window, w.Valid →
    ((takeAll .signed plaintexts w order).1 = (takeAll .hmac plaintexts w order).1 ↔
      ∀ pre i post, order = pre ++ i :: post → i < plaintexts.length →
        i ∉ (takeAll .signed plaintexts w pre).2.kept) := by
  induction order with
  | nil =>
      intro w _
      refine iff_of_true rfl ?_
      intro pre i post h
      exact absurd h.symm (List.append_ne_nil_of_right_ne_nil _ (List.cons_ne_nil _ _))
  | cons i order ih =>
      intro w hw
      rw [forall_position_cons]
      rcases hi : plaintexts[i]? with _ | plaintext
      · -- nothing was sent at this position
        have hout : ¬ i < plaintexts.length := not_lt.mpr (List.getElem?_eq_none_iff.mp hi)
        simp only [takeAll, hi]
        rw [ih w hw]
        exact (and_iff_right (fun h => absurd h hout)).symm
      · have hlt : i < plaintexts.length := (List.getElem?_eq_some_iff.mp hi).1
        by_cases hkept : i ∈ w.kept
        · -- the signed receiver takes it, the other one calls it a duplicate
          have hsigned : takes .signed w i = _ := Window.accept_of_mem hkept
          have hhmac : takes .hmac w i = none := by
            refine if_neg (fun h => ?_)
            exact absurd h.1 (not_le.mpr (hw.behind i hkept))
          refine iff_of_false ?_ (fun h => h.1 hlt hkept)
          simp only [takeAll, hi, hsigned, hhmac]
          exact fun h => Option.some_ne_none _ (List.cons.inj h).1
        · have hsame : takes .signed w i = takes .hmac w i := Window.accept_of_notMem hkept
          have hhead : i < plaintexts.length → i ∉ (takeAll .signed plaintexts w []).2.kept :=
            fun _ => hkept
          rw [and_iff_right hhead]
          simp only [takeAll, hi, hsame]
          rcases htakes : takes .hmac w i with _ | w'
          · simp only [List.cons.injEq, true_and]
            exact ih w hw
          · simp only [List.cons.injEq, true_and]
            exact ih w' (valid_takes hw htakes)

/-- The messages of a new sender in the calls `before` and `calls`, and a receiver made after
`before`. -/
def groupRun (G : GroupSuite Key) (base : Key) (seed groupId : Bytes) (auth : SenderKeyAuth)
    (before calls : List GroupCall) : List (SenderKeyMessage × Bytes) × SenderKeyState Key :=
  let sender := (createSenderKeyDistributionMessage G base seed groupId auth).1
  ((groupEncryptAll G sender (before ++ calls)).1,
    .fromDistribution
      (distributionMessageForExisting (groupEncryptAll G sender before).2 groupId))

/-- A run of a chain follows the window of a receiver that starts where the sender was. -/
lemma groupRun_window (hG : G.Correct) (base : Key) (seed groupId : Bytes) (auth : SenderKeyAuth)
    (before calls : List GroupCall) :
    let run := groupRun G base seed groupId auth before calls
    let start := (groupEncryptAll G (senderAt G base seed auth 0) before).1.length
    ReceiverOf G seed auth run.2 ∧
      (∀ k m plaintext, run.1[k]? = some (m, plaintext) →
        GenuineMessage G base seed auth k m plaintext) ∧
      ∀ order, (deliver G run.1 order run.2).1.map Except.toOption =
          (takeAll auth (run.1.map Prod.snd) (.after start []) order).1 ∧
        (deliver G run.1 order run.2).2 =
          run.2.atWindow G.hash base
            (takeAll auth (run.1.map Prod.snd) (.after start []) order).2 := by
  intro run start
  obtain ⟨hstate, -⟩ := groupEncryptAll_senderAt base seed auth hG before 0
  obtain ⟨-, hgenuine⟩ := groupEncryptAll_senderAt base seed auth hG (before ++ calls) 0
  obtain ⟨hr, hwindow⟩ := fromDistribution_senderAt (G := G) base seed auth start groupId
  simp only [Nat.zero_add] at hgenuine hstate
  have hrun : run = ((groupEncryptAll G (senderAt G base seed auth 0) (before ++ calls)).1,
      .fromDistribution (distributionMessageForExisting (senderAt G base seed auth start)
        groupId)) := by
    simp only [run, groupRun, create_eq, hstate, start]
  rw [hrun]
  refine ⟨hr, hgenuine, ?_⟩
  intro order
  have hdeliver := deliver_eq_takeAll hG hr hgenuine order (.after start []) Window.valid_after
  rwa [← hwindow] at hdeliver

lemma groupRun_deliver (hG : G.Correct) (base : Key) (seed groupId : Bytes) (auth : SenderKeyAuth)
    (before calls : List GroupCall) (order : List ℕ) :
    let run := groupRun G base seed groupId auth before calls
    let start := (groupEncryptAll G (senderAt G base seed auth 0) before).1.length
    (deliver G run.1 order run.2).1.map Except.toOption =
        (takeAll auth (run.1.map Prod.snd) (.after start []) order).1 ∧
      (deliver G run.1 order run.2).2.skippedMessageKeys.map Prod.fst =
        (takeAll auth (run.1.map Prod.snd) (.after start []) order).2.kept := by
  intro run start
  obtain ⟨-, -, hdeliver⟩ := groupRun_window hG base seed groupId auth before calls
  refine ⟨(hdeliver order).1, ?_⟩
  rw [(hdeliver order).2, atWindow_skipped]

/-- The two modes send the same plaintexts. -/
lemma groupRun_plaintexts (hG : G.Correct) (hU : G.xchacha.Uniform) (base base' : Key)
    (seed seed' groupId groupId' : Bytes) (auth auth' : SenderKeyAuth)
    {before before' calls calls' : List GroupCall}
    (hbefore : before.map GroupCall.content = before'.map GroupCall.content)
    (hcalls : calls.map GroupCall.content = calls'.map GroupCall.content) :
    (groupRun G base seed groupId auth before calls).1.map Prod.snd =
        (groupRun G base' seed' groupId' auth' before' calls').1.map Prod.snd ∧
      (groupEncryptAll G (senderAt G base seed auth 0) before).1.length =
        (groupEncryptAll G (senderAt G base' seed' auth' 0) before').1.length := by
  constructor
  · simp only [groupRun, create_eq]
    rw [plaintexts_groupEncryptAll base seed auth hG hU,
      plaintexts_groupEncryptAll base' seed' auth' hG hU, List.map_append, List.map_append,
      hbefore, hcalls]
  · rw [← List.length_map Prod.snd, plaintexts_groupEncryptAll base seed auth hG hU, hbefore,
      ← plaintexts_groupEncryptAll base' seed' auth' hG hU, List.length_map]

end Modes

/-- **When the modes agree.**  Run one schedule of calls on a signed chain and on an HMAC chain,
and deliver the messages to a receiver of each in the same order, with losses and duplicates.
The results are the same exactly if no message arrives whose key the signed receiver has in its
store: on an HMAC chain `verify_hmac` refuses such a message before the store is looked at. -/
theorem modes_agree_iff {G : GroupSuite Key} (hG : G.Correct) (hU : G.xchacha.Uniform)
    (base base' : Key) (seed groupId : Bytes) {before before' calls calls' : List GroupCall}
    (hbefore : before.map GroupCall.content = before'.map GroupCall.content)
    (hcalls : calls.map GroupCall.content = calls'.map GroupCall.content) (order : List ℕ) :
    let signed := groupRun G base seed groupId .signed before calls
    let hmac := groupRun G base' seed groupId .hmac before' calls'
    (deliver G signed.1 order signed.2).1.map Except.toOption =
        (deliver G hmac.1 order hmac.2).1.map Except.toOption ↔
      ∀ pre i post, order = pre ++ i :: post → i < signed.1.length →
        i ∉ (deliver G signed.1 pre signed.2).2.skippedMessageKeys.map Prod.fst := by
  intro signed hmac
  obtain ⟨hplain, hstart⟩ := groupRun_plaintexts hG hU base base' seed seed groupId groupId
    .signed .hmac hbefore hcalls
  have hsigned := groupRun_deliver hG base seed groupId .signed before calls
  have hhmac := groupRun_deliver hG base' seed groupId .hmac before' calls'
  rw [(hsigned order).1, (hhmac order).1, ← hplain, ← hstart,
    takeAll_eq_iff _ order _ Window.valid_after, List.length_map]
  refine forall_congr' (fun pre => ?_)
  rw [(hsigned pre).2]

/-- In order, the two modes agree. -/
theorem modes_agree_iff_in_order :
    let signed := groupRun idealGroup 0 [] [] .signed [] twoCalls
    let hmac := groupRun idealGroup 0 [] [] .hmac [] twoCalls
    (deliver idealGroup signed.1 [0, 1] signed.2).1.map Except.toOption =
      (deliver idealGroup hmac.1 [0, 1] hmac.2).1.map Except.toOption := by
  intro signed hmac
  have hkept : ∀ pre, (deliver idealGroup signed.1 pre signed.2).2.skippedMessageKeys.map Prod.fst =
      (takeAll .signed [[10], [11]] (.after 0 []) pre).2.kept := by
    intro pre
    rw [(groupRun_deliver idealGroup_correct 0 [] [] .signed [] twoCalls pre).2]
    exact congrArg (fun l => (takeAll .signed l (.after 0 []) pre).2.kept)
      (plaintexts_twoCalls .signed)
  refine (modes_agree_iff idealGroup_correct idealGroup_uniform 0 0 [] [] rfl rfl [0, 1]).mpr ?_
  -- neither message is kept when it arrives
  refine forall_position_cons.mpr ⟨fun _ => ?_, forall_position_cons.mpr ⟨fun _ => ?_, ?_⟩⟩
  · rw [hkept]
    decide
  · rw [hkept]
    decide
  · intro pre i post h
    exact absurd h.symm (List.append_ne_nil_of_right_ne_nil _ (List.cons_ne_nil _ _))

/-- **The HMAC receiver refuses a late message.**  Of two messages the second arrives first.  Both
receivers open it and keep the key of the first one; then the signed receiver opens the first
message and the HMAC receiver does not. -/
theorem hmac_refuses_late_message :
    let signed := groupRun idealGroup 0 [] [] .signed [] twoCalls
    let hmac := groupRun idealGroup 0 [] [] .hmac [] twoCalls
    (deliver idealGroup signed.1 [1, 0] signed.2).1.map Except.toOption = [some [11], some [10]] ∧
      (deliver idealGroup hmac.1 [1, 0] hmac.2).1.map Except.toOption = [some [11], none] := by
  intro signed hmac
  have hsigned := groupRun_deliver idealGroup_correct 0 [] [] .signed [] twoCalls [1, 0]
  have hhmac := groupRun_deliver idealGroup_correct 0 [] [] .hmac [] twoCalls [1, 0]
  have hplain : ∀ auth, (groupRun idealGroup 0 [] [] auth [] twoCalls).1.map Prod.snd =
      [[10], [11]] := plaintexts_twoCalls
  refine ⟨?_, ?_⟩
  · rw [hsigned.1, hplain]
    decide
  · rw [hhmac.1, hplain]
    decide

end Hushwire
