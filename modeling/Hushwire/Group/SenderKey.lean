import Hushwire.Library.KeyChain
import Hushwire.Library.Window
import Hushwire.Primitives.Aead
import Hushwire.Primitives.Keys

/-!
# Sender keys

`src/protocol/sender_key/`: group messages encrypted along one hash-ratcheted chain per sender,
which every member of the group holds a copy of.  A message is authenticated either by an Ed25519
signature or by an HMAC under a key derived from the chain; the first half of the module is the
code of both.

The second half is about a receiver whose chain is at position `n` of the sender's and whose
store holds the keys of a list of positions: that is what a `Window` says.  What `groupDecrypt` does
to such a receiver once a message is authenticated is said once, for a chain that starts at any
iteration (`groupDecrypt_kept`, `groupDecrypt_notKept`).  On a genuine message it does what
`Window.accept` does on a signed chain and `Window.ahead` on an HMAC chain (`groupDecrypt_genuine`).
-/

namespace Hushwire

variable {Key : Type}

/-! ## The code -/

/-- `SenderKeyAuth`. -/
inductive SenderKeyAuth
  | hmac
  | signed
  deriving DecidableEq, Repr

/-- `SenderKeyState`. -/
structure SenderKeyState (Key : Type) where
  chainKey : Key
  iteration : ℕ
  isSender : Bool
  authMode : SenderKeyAuth
  signingPublic : Option Bytes
  signingPrivate : Option Bytes
  skippedMessageKeys : List (ℕ × Key)

/-- `SenderKeyDistributionMessage`. -/
structure SenderKeyDistributionMessage (Key : Type) where
  groupId : Bytes
  chainKey : Key
  iteration : ℕ
  signingKey : Option Bytes

/-- `MessageAuth`. -/
inductive MessageAuth
  | hmac (mac : Bytes)
  | signature (signature : Bytes)
  deriving DecidableEq

/-- `SenderKeyMessage`. -/
structure SenderKeyMessage where
  groupId : Bytes
  iteration : ℕ
  ciphertext : Bytes
  auth : MessageAuth
  deriving DecidableEq

/-- The bound on a gap and on the store, a literal in the source. -/
def maxGroupSkip : ℕ := 2000

/-- What sender keys take from other crates. -/
structure GroupSuite (Key : Type) where
  hash : Hash Key
  xchacha : XChaCha Key
  ed25519 : Ed25519

/-- The libraries behave as documented. -/
structure GroupSuite.Correct (G : GroupSuite Key) : Prop where
  xchacha : G.xchacha.Correct
  ed25519 : G.ed25519.Correct

/-- `hmac_derive`. -/
def hmacDerive (H : Hash Key) (key : Key) (byte : UInt8) : Key := H.hmac key [byte]

/-- `hmac_authenticate`. -/
def hmacAuthenticate (H : Hash Key) (key : Key) (data : Bytes) : Key := H.hmac key data

/-- `authenticated_data`. -/
def authenticatedData (groupId : Bytes) (iteration : ℕ) (ciphertext : Bytes) : Bytes :=
  groupId ++ beBytes 4 iteration ++ ciphertext

namespace SenderKeyState

/-- `SenderKeyState::from_distribution`. -/
def fromDistribution (msg : SenderKeyDistributionMessage Key) : SenderKeyState Key where
  chainKey := msg.chainKey
  iteration := msg.iteration
  isSender := false
  authMode := if msg.signingKey.isSome then .signed else .hmac
  signingPublic := msg.signingKey
  signingPrivate := none
  skippedMessageKeys := []

/-- The loop of `derive_message_key`, for the steps that are left. -/
def passOver (H : Hash Key) : ℕ → Key → List Key → List Key × Key
  | 0, ck, skipped => (skipped, ck)
  | k + 1, ck, skipped =>
      passOver H k (hmacDerive H ck 0x02) (skipped ++ [hmacDerive H ck 0x01])

/-- `SenderKeyState::derive_message_key`: the keys passed over and the key at the iteration. -/
def deriveMessageKey (H : Hash Key) (atIteration : ℕ) (state : SenderKeyState Key) :
    Result (List Key × Key) :=
  if atIteration < state.iteration then .error .duplicateMessage
  else
    let gap := atIteration - state.iteration
    if maxGroupSkip < gap then .error (.maxSkipExceeded gap maxGroupSkip)
    else
      let out := passOver H gap state.chainKey []
      .ok (out.1, hmacDerive H out.2 0x01)

/-- `for _ in .. { ck = hmac_derive(&ck, 0x02) }`. -/
def advanceKey (H : Hash Key) : ℕ → Key → Key
  | 0, ck => ck
  | k + 1, ck => advanceKey H k (hmacDerive H ck 0x02)

/-- The `auth_key` of `verify_hmac`. -/
def authKey (H : Hash Key) (state : SenderKeyState Key) (iteration : ℕ) : Result Key :=
  if iteration = state.iteration then .ok (hmacDerive H state.chainKey 0x03)
  else if state.iteration < iteration then
    let gap := iteration - state.iteration
    if maxGroupSkip < gap then .error (.maxSkipExceeded gap maxGroupSkip)
    else .ok (hmacDerive H (advanceKey H gap state.chainKey) 0x03)
  else .error .duplicateMessage

/-- `verify_hmac`. -/
def verifyHmac (H : Hash Key) (state : SenderKeyState Key) (iteration : ℕ) (authData mac : Bytes) :
    Result Unit := do
  let authKey ← authKey H state iteration
  let expected := hmacAuthenticate H authKey authData
  if mac.length ≠ 32 then .error .invalidSignature
  else if H.asBytes expected = mac then .ok ()
  else .error .invalidSignature

end SenderKeyState

/-- `create_sender_key_distribution_message`, with the chain key and the signing seed it draws. -/
def createSenderKeyDistributionMessage (G : GroupSuite Key) (chainKey : Key) (seed groupId : Bytes)
    (auth : SenderKeyAuth) : SenderKeyState Key × SenderKeyDistributionMessage Key :=
  let (signingPrivate, signingPublic) := match auth with
    | .signed => (some seed, some (G.ed25519.verifyingKey seed))
    | .hmac => (none, none)
  ({ chainKey, iteration := 0, isSender := true, authMode := auth, signingPublic, signingPrivate,
     skippedMessageKeys := [] },
    { groupId, chainKey, iteration := 0, signingKey := signingPublic })

/-- `distribution_message_for_existing`. -/
def distributionMessageForExisting (state : SenderKeyState Key) (groupId : Bytes) :
    SenderKeyDistributionMessage Key where
  groupId := groupId
  chainKey := state.chainKey
  iteration := state.iteration
  signingKey := state.signingPublic

section Calls

variable (G : GroupSuite Key)

/-- The `auth` of `group_encrypt`. -/
def messageAuth (state : SenderKeyState Key) (authData : Bytes) : Result MessageAuth :=
  match state.authMode with
  | .signed =>
      match state.signingPrivate with
      | none => .error .missingSenderKey
      | some seed => .ok (.signature (G.ed25519.sign seed authData))
  | .hmac =>
      let authKey := hmacDerive G.hash state.chainKey 0x03
      .ok (.hmac (G.hash.asBytes (hmacAuthenticate G.hash authKey authData)))

/-- `group_encrypt`. -/
def groupEncrypt (rng : Rng) (groupId plaintext : Bytes) (state : SenderKeyState Key) :
    Result SenderKeyMessage × SenderKeyState Key :=
  if state.isSender = false then (.error .missingSenderKey, state)
  else
    let mk := hmacDerive G.hash state.chainKey 0x01
    match Aead.encrypt G.hash G.xchacha rng mk plaintext groupId with
    | .error e => (.error e, state)
    | .ok ciphertext =>
        let iteration := state.iteration
        match messageAuth G state (authenticatedData groupId iteration ciphertext) with
        | .error e => (.error e, state)
        | .ok auth =>
            (.ok { groupId, iteration, ciphertext, auth },
              { state with
                chainKey := hmacDerive G.hash state.chainKey 0x02
                iteration := state.iteration + 1 })

/-- The check of `group_decrypt` that comes before any decryption. -/
def authenticate (state : SenderKeyState Key) (message : SenderKeyMessage) : Result Unit :=
  let authData := authenticatedData message.groupId message.iteration message.ciphertext
  match state.authMode, message.auth with
  | .signed, .signature signature =>
      match state.signingPublic with
      | none => .error .invalidSignature
      | some publicKey => do
          let key ← IdentityPublicKey.fromBytes G.ed25519 publicKey
          IdentityPublicKey.verify G.ed25519 key authData signature
  | .hmac, .hmac mac => state.verifyHmac G.hash message.iteration authData mac
  | _, _ => .error .invalidSignature

/-- The loop that stores the keys passed over, from iteration `iter` on. -/
def storeSkipped : ℕ → List Key → List (ℕ × Key) → List (ℕ × Key)
  | _, [], store => store
  | iter, mk :: rest, store =>
      storeSkipped (iter + 1) rest
        (if store.length < maxGroupSkip then store ++ [(iter, mk)] else store)

/-- `group_decrypt`. -/
def groupDecrypt (message : SenderKeyMessage) (state : SenderKeyState Key) :
    Result Bytes × SenderKeyState Key :=
  match authenticate G state message with
  | .error e => (.error e, state)
  | .ok _ =>
      match state.skippedMessageKeys.find? (fun p => p.1 = message.iteration) with
      | some (_, mk) =>
          -- the key is gone even if it does not open the message
          (Aead.decrypt G.hash G.xchacha mk message.ciphertext message.groupId,
            { state with
              skippedMessageKeys :=
                state.skippedMessageKeys.eraseP (fun p => p.1 = message.iteration) })
      | none =>
          match state.deriveMessageKey G.hash message.iteration with
          | .error e => (.error e, state)
          | .ok (skipped, mk) =>
              match Aead.decrypt G.hash G.xchacha mk message.ciphertext message.groupId with
              | .error e => (.error e, state)
              | .ok plaintext =>
                  let steps := message.iteration + 1 - state.iteration
                  (.ok plaintext,
                    { state with
                      skippedMessageKeys :=
                        storeSkipped state.iteration skipped state.skippedMessageKeys
                      chainKey := SenderKeyState.advanceKey G.hash steps state.chainKey
                      iteration := state.iteration + steps })

/-! ## What a call can do -/

/-- **The outcomes of `group_encrypt`.**  It fails and leaves the sender as it was, or it makes a
message of the sender's iteration and moves the chain by one. -/
lemma groupEncrypt_cases (rng : Rng) (groupId plaintext : Bytes) (state : SenderKeyState Key) :
    (∃ e, groupEncrypt G rng groupId plaintext state = (.error e, state)) ∨
      ∃ ciphertext auth, groupEncrypt G rng groupId plaintext state =
        (.ok { groupId, iteration := state.iteration, ciphertext, auth },
          { state with
            chainKey := hmacDerive G.hash state.chainKey 0x02
            iteration := state.iteration + 1 }) := by
  simp only [groupEncrypt]
  split
  · exact .inl ⟨_, rfl⟩
  split
  · exact .inl ⟨_, rfl⟩
  split
  · exact .inl ⟨_, rfl⟩
  · exact .inr ⟨_, _, rfl⟩

/-- **The outcomes of `group_decrypt`.**  It fails and leaves the receiver as it was, or it takes a
key out of the store, whatever comes of it, or it opens the message and moves the chain past it. -/
lemma groupDecrypt_cases (message : SenderKeyMessage) (state : SenderKeyState Key) :
    (∃ e, groupDecrypt G message state = (.error e, state)) ∨
      (∃ p, authenticate G state message = .ok () ∧
        state.skippedMessageKeys.find? (fun p => p.1 = message.iteration) = some p ∧
        groupDecrypt G message state =
          (Aead.decrypt G.hash G.xchacha p.2 message.ciphertext message.groupId,
            { state with
              skippedMessageKeys :=
                state.skippedMessageKeys.eraseP (fun p => p.1 = message.iteration) })) ∨
      ∃ skipped plaintext, groupDecrypt G message state =
        (.ok plaintext,
          { state with
            skippedMessageKeys := storeSkipped state.iteration skipped state.skippedMessageKeys
            chainKey := SenderKeyState.advanceKey G.hash (message.iteration + 1 - state.iteration)
              state.chainKey
            iteration := state.iteration + (message.iteration + 1 - state.iteration) }) := by
  rcases hauth : authenticate G state message with e | _
  · exact .inl ⟨e, by simp only [groupDecrypt, hauth]⟩
  rcases hfind : state.skippedMessageKeys.find? (fun p => p.1 = message.iteration) with _ | p
  · simp only [groupDecrypt, hauth, hfind]
    split
    · exact .inl ⟨_, rfl⟩
    split
    · exact .inl ⟨_, rfl⟩
    · exact .inr (.inr ⟨_, _, rfl⟩)
  · exact .inr (.inl ⟨p, rfl, hfind, by simp only [groupDecrypt, hauth, hfind]⟩)

end Calls

/-! ## The chain by position -/

/-- One step of a sender's chain. -/
def senderStep (H : Hash Key) (_ : ℕ) (ck : Key) : Key × Key :=
  (hmacDerive H ck 0x02, hmacDerive H ck 0x01)

/-- The chain key of iteration `n` on the chain from `base`. -/
def senderChainKey (H : Hash Key) (base : Key) (n : ℕ) : Key :=
  KeyChain.chainKey (senderStep H) base n

/-- The message key of iteration `n`. -/
def senderMessageKey (H : Hash Key) (base : Key) (n : ℕ) : Key :=
  KeyChain.messageKey (senderStep H) base n

section Chain

variable {H : Hash Key} {base : Key}

lemma hmacDerive_next (n : ℕ) :
    hmacDerive H (senderChainKey H base n) 0x02 = senderChainKey H base (n + 1) := rfl

lemma hmacDerive_message (n : ℕ) :
    hmacDerive H (senderChainKey H base n) 0x01 = senderMessageKey H base n := rfl

lemma passOver_senderChainKey (k : ℕ) : ∀ n skipped,
    SenderKeyState.passOver H k (senderChainKey H base n) skipped =
      (skipped ++ (List.range' n k).map (senderMessageKey H base),
        senderChainKey H base (n + k)) := by
  induction k with
  | zero => intro n skipped; simp [SenderKeyState.passOver]
  | succ k ih =>
      intro n skipped
      rw [SenderKeyState.passOver, hmacDerive_next, hmacDerive_message, ih (n + 1),
        List.range'_succ, List.map_cons, List.append_assoc, List.singleton_append,
        Nat.add_right_comm, Nat.add_assoc]

lemma advanceKey_senderChainKey (k : ℕ) : ∀ n,
    SenderKeyState.advanceKey H k (senderChainKey H base n) = senderChainKey H base (n + k) := by
  induction k with
  | zero => intro n; rfl
  | succ k ih =>
      intro n
      rw [SenderKeyState.advanceKey, hmacDerive_next, ih (n + 1), Nat.add_right_comm, Nat.add_assoc]

end Chain

/-! ## A receiver as a window -/

section Receiver

variable {G : GroupSuite Key} {base : Key} {seed : Bytes} {auth : SenderKeyAuth}
  {r : SenderKeyState Key} {w : Window} {i : ℕ} {m : SenderKeyMessage} {plaintext : Bytes}

/-- The receiver `r` standing where the window says, on the chain from `base`. -/
def SenderKeyState.atWindow (H : Hash Key) (base : Key) (r : SenderKeyState Key) (w : Window) :
    SenderKeyState Key :=
  { r with
    chainKey := senderChainKey H base w.next
    iteration := w.next
    skippedMessageKeys := w.kept.map (fun i => (i, senderMessageKey H base i)) }

lemma atWindow_iteration : (r.atWindow G.hash base w).iteration = w.next := rfl

lemma atWindow_chainKey :
    (r.atWindow G.hash base w).chainKey = senderChainKey G.hash base w.next := rfl

lemma atWindow_skipped : (r.atWindow G.hash base w).skippedMessageKeys.map Prod.fst = w.kept := by
  have hmap : (r.atWindow G.hash base w).skippedMessageKeys =
      w.kept.map (fun i => (i, senderMessageKey G.hash base i)) := rfl
  rw [hmap, List.map_map]
  exact List.map_id' _

/-- What a receiver can take: on an HMAC chain nothing that is late. -/
def takes (auth : SenderKeyAuth) (w : Window) (i : ℕ) : Option Window :=
  match auth with
  | .signed => w.accept maxGroupSkip i
  | .hmac => w.ahead maxGroupSkip i

/-- The `i`-th message of the sender whose chain starts from `base`. -/
structure GenuineMessage (G : GroupSuite Key) (base : Key) (seed : Bytes) (auth : SenderKeyAuth)
    (i : ℕ) (m : SenderKeyMessage) (plaintext : Bytes) : Prop where
  iteration_eq : m.iteration = i
  opens : Aead.decrypt G.hash G.xchacha (senderMessageKey G.hash base i) m.ciphertext m.groupId =
    .ok plaintext
  auth_eq : m.auth =
    let authData := authenticatedData m.groupId i m.ciphertext
    match auth with
    | .signed => .signature (G.ed25519.sign seed authData)
    | .hmac => .hmac (G.hash.asBytes (hmacAuthenticate G.hash
        (hmacDerive G.hash (senderChainKey G.hash base i) 0x03) authData))

/-- A receiver of that sender's chain. -/
structure ReceiverOf (G : GroupSuite Key) (seed : Bytes) (auth : SenderKeyAuth)
    (r : SenderKeyState Key) : Prop where
  authMode_eq : r.authMode = auth
  signingPublic_eq : r.signingPublic = match auth with
    | .signed => some (G.ed25519.verifyingKey seed)
    | .hmac => none

lemma find?_map_key (g : ℕ → Key) (l : List ℕ) :
    (l.map (fun i => (i, g i))).find? (fun p => p.1 = i) =
      if i ∈ l then some (i, g i) else none := by
  induction l with
  | nil => rfl
  | cons j l ih =>
      by_cases hj : j = i
      · subst hj
        simp
      · have hne : ¬ i = j := fun h => hj h.symm
        rw [List.map_cons, List.find?_cons_of_neg (by simpa using hj), ih]
        simp only [List.mem_cons, hne, false_or]

lemma eraseP_map_key (g : ℕ → Key) (l : List ℕ) :
    (l.map (fun i => (i, g i))).eraseP (fun p => p.1 = i) =
      (l.erase i).map (fun i => (i, g i)) := by
  induction l with
  | nil => rfl
  | cons j l ih =>
      by_cases hj : j = i
      · subst hj
        simp
      · rw [List.map_cons, List.eraseP_cons_of_neg (by simpa using hj), ih,
          List.erase_cons_tail (by simpa using hj), List.map_cons]

/-- The store takes the keys in between while there is room. -/
lemma storeSkipped_map (g : ℕ → Key) (k : ℕ) : ∀ n (l : List ℕ),
    storeSkipped n ((List.range' n k).map g) (l.map (fun i => (i, g i))) =
      (l ++ (List.range' n k).take (maxGroupSkip - l.length)).map (fun i => (i, g i)) := by
  induction k with
  | zero => intro n l; simp [storeSkipped]
  | succ k ih =>
      intro n l
      rw [List.range'_succ, List.map_cons, storeSkipped, List.length_map]
      by_cases hroom : l.length < maxGroupSkip
      · have hstore : l.map (fun i => (i, g i)) ++ [(n, g n)] =
            (l ++ [n]).map (fun i => (i, g i)) := by simp
        have htake : maxGroupSkip - l.length = maxGroupSkip - (l ++ [n]).length + 1 := by
          rw [List.length_append, List.length_singleton]
          omega
        rw [if_pos hroom, hstore, ih (n + 1) (l ++ [n]), htake, List.take_succ_cons,
          List.append_assoc, List.singleton_append]
      · -- no room for this key, so none for those after it
        have htake : maxGroupSkip - l.length = 0 := by omega
        rw [if_neg hroom, ih (n + 1) l, htake, List.take_zero, List.take_zero]

/-- A signature of the sender's is accepted, whatever it is on. -/
lemma authenticate_of_signature (hG : G.Correct) (hr : ReceiverOf G seed .signed r)
    (hauth : m.auth = .signature
      (G.ed25519.sign seed (authenticatedData m.groupId m.iteration m.ciphertext))) :
    authenticate G r m = .ok () := by
  simp only [authenticate, hr.authMode_eq, hauth, hr.signingPublic_eq,
    IdentityPublicKey.fromBytes_verifyingKey hG.ed25519]
  exact IdentityPublicKey.verify_sign hG.ed25519 _ _

lemma ReceiverOf.atWindow (hr : ReceiverOf G seed auth r) :
    ReceiverOf G seed auth (r.atWindow G.hash base w) := by
  cases auth with
  | signed => exact ⟨hr.authMode_eq, hr.signingPublic_eq⟩
  | hmac => exact ⟨hr.authMode_eq, hr.signingPublic_eq⟩

lemma authenticate_signed (hG : G.Correct) (hr : ReceiverOf G seed .signed r)
    (hm : GenuineMessage G base seed .signed i m plaintext) :
    authenticate G (r.atWindow G.hash base w) m = .ok () := by
  apply authenticate_of_signature hG hr.atWindow
  rw [hm.auth_eq, hm.iteration_eq]

/-- `verify_hmac` walks to the sender's key, within the bounds. -/
lemma authKey_ahead (hwithin : w.next ≤ i ∧ i - w.next ≤ maxGroupSkip) :
    (r.atWindow G.hash base w).authKey G.hash i =
      .ok (hmacDerive G.hash (senderChainKey G.hash base i) 0x03) := by
  rw [SenderKeyState.authKey, atWindow_iteration, atWindow_chainKey]
  rcases hwithin.1.eq_or_lt with rfl | hlt
  · rw [if_pos rfl]
  · rw [if_neg hlt.ne', if_pos hlt, if_neg (not_lt.mpr hwithin.2), advanceKey_senderChainKey,
      Nat.add_sub_of_le hwithin.1]

lemma authKey_outside (houtside : ¬ (w.next ≤ i ∧ i - w.next ≤ maxGroupSkip)) :
    ∃ e, (r.atWindow G.hash base w).authKey G.hash i = .error e := by
  rw [SenderKeyState.authKey, atWindow_iteration, atWindow_chainKey]
  by_cases hlt : w.next < i
  · have hgap : maxGroupSkip < i - w.next := not_le.mp (fun hle => houtside ⟨hlt.le, hle⟩)
    exact ⟨_, by rw [if_neg hlt.ne', if_pos hlt, if_pos hgap]⟩
  · have hne : i ≠ w.next := by
      rintro rfl
      exact houtside ⟨le_rfl, by omega⟩
    exact ⟨_, by rw [if_neg hne, if_neg hlt]⟩

/-- An HMAC tag of the sender's is checked with the key that `verify_hmac` walks to. -/
lemma authenticate_hmac (hr : ReceiverOf G seed .hmac r)
    (hm : GenuineMessage G base seed .hmac i m plaintext) :
    authenticate G (r.atWindow G.hash base w) m =
      (r.atWindow G.hash base w).verifyHmac G.hash i (authenticatedData m.groupId i m.ciphertext)
        (G.hash.asBytes (hmacAuthenticate G.hash
          (hmacDerive G.hash (senderChainKey G.hash base i) 0x03)
          (authenticatedData m.groupId i m.ciphertext))) := by
  have hmode : (r.atWindow G.hash base w).authMode = .hmac := hr.authMode_eq
  have hauth := hm.auth_eq
  simp only [authenticate, hmode, hauth, hm.iteration_eq]

/-- **A genuine message is authenticated**, on an HMAC chain if the receiver can walk to it. -/
lemma authenticate_genuine (hG : G.Correct) (hr : ReceiverOf G seed auth r)
    (hm : GenuineMessage G base seed auth i m plaintext)
    (hwithin : auth = .hmac → w.next ≤ i ∧ i - w.next ≤ maxGroupSkip) :
    authenticate G (r.atWindow G.hash base w) m = .ok () := by
  cases auth with
  | signed => exact authenticate_signed hG hr hm
  | hmac =>
      rw [authenticate_hmac hr hm, SenderKeyState.verifyHmac, authKey_ahead (hwithin rfl)]
      show (if _ then _ else _) = _
      rw [if_neg (not_not.mpr (G.hash.asBytes_length _)), if_pos rfl]

/-! ### One call on a chain -/

/-- The receiver `r` standing where the window says, on the chain that starts from `base` at
iteration `start`. -/
def SenderKeyState.standing (H : Hash Key) (base : Key) (start : ℕ) (r : SenderKeyState Key)
    (w : Window) : SenderKeyState Key :=
  { r with
    chainKey := senderChainKey H base (w.next - start)
    iteration := w.next
    skippedMessageKeys := w.kept.map (fun i => (i, senderMessageKey H base (i - start))) }

lemma atWindow_eq_standing : r.atWindow G.hash base w = r.standing G.hash base 0 w := rfl

/-- The keys passed over, by iteration. -/
lemma map_range'_senderMessageKey (H : Hash Key) {start n : ℕ} (hn : start ≤ n) (k : ℕ) :
    (List.range' (n - start) k).map (senderMessageKey H base) =
      (List.range' n k).map (fun i => senderMessageKey H base (i - start)) := by
  rw [List.range'_eq_map_range, List.range'_eq_map_range, List.map_map, List.map_map]
  refine List.map_congr_left (fun j _ => ?_)
  show senderMessageKey H base (n - start + j) = senderMessageKey H base (n + j - start)
  rw [Nat.sub_add_comm hn]

section Standing

variable {start : ℕ}

/-- `derive_message_key` finds the keys between, and the sender's key. -/
lemma deriveMessageKey_standing (hw : start ≤ w.next) (i : ℕ) :
    (r.standing G.hash base start w).deriveMessageKey G.hash i =
      if i < w.next then .error .duplicateMessage
      else if maxGroupSkip < i - w.next then .error (.maxSkipExceeded (i - w.next) maxGroupSkip)
      else .ok ((List.range' w.next (i - w.next)).map
        (fun i => senderMessageKey G.hash base (i - start)),
        senderMessageKey G.hash base (w.next + (i - w.next) - start)) := by
  have hpass : SenderKeyState.passOver G.hash (i - w.next)
      (senderChainKey G.hash base (w.next - start)) [] = _ := passOver_senderChainKey _ _ _
  rw [List.nil_append, map_range'_senderMessageKey G.hash hw] at hpass
  have hkey : w.next - start + (i - w.next) = w.next + (i - w.next) - start :=
    (Nat.sub_add_comm hw).symm
  simp only [SenderKeyState.deriveMessageKey, SenderKeyState.standing, hpass, hmacDerive_message,
    hkey]

/-- An authenticated message whose key is in the store costs the key. -/
lemma groupDecrypt_of_stored {state : SenderKeyState Key} (hauth : authenticate G state m = .ok ())
    {p : ℕ × Key} (hfind : state.skippedMessageKeys.find? (fun p => p.1 = m.iteration) = some p) :
    groupDecrypt G m state =
      (Aead.decrypt G.hash G.xchacha p.2 m.ciphertext m.groupId, { state with
        skippedMessageKeys := state.skippedMessageKeys.eraseP (fun p => p.1 = m.iteration) }) := by
  obtain ⟨j, mk⟩ := p
  simp only [groupDecrypt, hauth, hfind]

/-- Once authenticated, a message that is kept is tried with the key that was kept. -/
lemma groupDecrypt_kept (hauth : authenticate G (r.standing G.hash base start w) m = .ok ())
    (hkept : m.iteration ∈ w.kept) :
    groupDecrypt G m (r.standing G.hash base start w) =
      (Aead.decrypt G.hash G.xchacha (senderMessageKey G.hash base (m.iteration - start))
        m.ciphertext
          m.groupId,
        r.standing G.hash base start { w with kept := w.kept.erase m.iteration }) := by
  have hfind : (r.standing G.hash base start w).skippedMessageKeys.find?
      (fun p => p.1 = m.iteration) = some _ := (find?_map_key _ _).trans (if_pos hkept)
  have herase : (r.standing G.hash base start w).skippedMessageKeys.eraseP
      (fun p => p.1 = m.iteration) = _ := eraseP_map_key _ _
  rw [groupDecrypt_of_stored hauth hfind, herase]
  rfl

/-- Once authenticated, a message that is not kept is looked for along the chain. -/
lemma groupDecrypt_notKept (hauth : authenticate G (r.standing G.hash base start w) m = .ok ())
    (hw : start ≤ w.next) (hnot : m.iteration ∉ w.kept) :
    match w.ahead maxGroupSkip m.iteration with
    | some w' => groupDecrypt G m (r.standing G.hash base start w) =
        match Aead.decrypt G.hash G.xchacha (senderMessageKey G.hash base (m.iteration - start))
          m.ciphertext m.groupId with
        | .error e => (.error e, r.standing G.hash base start w)
        | .ok plaintext => (.ok plaintext, r.standing G.hash base start w')
    | none => ∃ e, groupDecrypt G m (r.standing G.hash base start w) =
        (.error e, r.standing G.hash base start w) := by
  have hfind : (r.standing G.hash base start w).skippedMessageKeys.find?
      (fun p => p.1 = m.iteration) = none := (find?_map_key _ _).trans (if_neg hnot)
  have hderive : (r.standing G.hash base start w).deriveMessageKey G.hash m.iteration = _ :=
    deriveMessageKey_standing hw m.iteration
  rw [Window.ahead]
  by_cases hlt : m.iteration < w.next
  · rw [if_neg (fun h => absurd h.1 (not_le.mpr hlt))]
    rw [if_pos hlt] at hderive
    exact ⟨.duplicateMessage, by simp only [groupDecrypt, hauth, hfind, hderive]⟩
  by_cases hgap : maxGroupSkip < m.iteration - w.next
  · rw [if_neg (fun h => absurd h.2 (not_le.mpr hgap))]
    rw [if_neg hlt, if_pos hgap] at hderive
    exact ⟨.maxSkipExceeded (m.iteration - w.next) maxGroupSkip,
      by simp only [groupDecrypt, hauth, hfind, hderive]⟩
  have hle : w.next ≤ m.iteration := not_lt.mp hlt
  rw [if_pos ⟨hle, not_lt.mp hgap⟩]
  rw [if_neg hlt, if_neg hgap, Nat.add_sub_of_le hle] at hderive
  have hstore : storeSkipped w.next ((List.range' w.next (m.iteration - w.next)).map
      (fun i => senderMessageKey G.hash base (i - start)))
      (r.standing G.hash base start w).skippedMessageKeys = _ := storeSkipped_map _ _ _ _
  have hchain : SenderKeyState.advanceKey G.hash (m.iteration + 1 - w.next)
      (r.standing G.hash base start w).chainKey =
        senderChainKey G.hash base (m.iteration + 1 - start) := by
    have hsum : w.next - start + (m.iteration + 1 - w.next) = m.iteration + 1 - start := by omega
    rw [← hsum]
    exact advanceKey_senderChainKey _ _
  have hsteps : w.next + (m.iteration + 1 - w.next) = m.iteration + 1 := by omega
  have hiteration : (r.standing G.hash base start w).iteration = w.next := rfl
  dsimp only
  rcases hopen : Aead.decrypt G.hash G.xchacha (senderMessageKey G.hash base (m.iteration - start))
      m.ciphertext m.groupId with e | plaintext
  · simp only [groupDecrypt, hauth, hfind, hderive, hopen]
  · simp only [groupDecrypt, hauth, hfind, hderive, hopen, hiteration, hsteps, hstore, hchain]
    rfl

end Standing

/-- A genuine message that is kept is opened with the key that was kept. -/
lemma GenuineMessage.groupDecrypt_kept (hm : GenuineMessage G base seed auth i m plaintext)
    (hauth : authenticate G (r.atWindow G.hash base w) m = .ok ()) (hkept : i ∈ w.kept) :
    groupDecrypt G m (r.atWindow G.hash base w) =
      (.ok plaintext, r.atWindow G.hash base { w with kept := w.kept.erase i }) := by
  obtain rfl := hm.iteration_eq
  simp only [atWindow_eq_standing] at hauth ⊢
  rw [Hushwire.groupDecrypt_kept hauth hkept, Nat.sub_zero, hm.opens]

/-- A genuine message that is not kept is found along the chain. -/
lemma GenuineMessage.groupDecrypt_notKept (hm : GenuineMessage G base seed auth i m plaintext)
    (hauth : authenticate G (r.atWindow G.hash base w) m = .ok ()) (hnot : i ∉ w.kept) :
    match w.ahead maxGroupSkip i with
    | some w' =>
        groupDecrypt G m (r.atWindow G.hash base w) = (.ok plaintext, r.atWindow G.hash base w')
    | none =>
        ∃ e, groupDecrypt G m (r.atWindow G.hash base w) =
          (.error e, r.atWindow G.hash base w) := by
  obtain rfl := hm.iteration_eq
  simp only [atWindow_eq_standing] at hauth ⊢
  have hcall := Hushwire.groupDecrypt_notKept hauth (Nat.zero_le _) hnot
  rw [Nat.sub_zero, hm.opens] at hcall
  exact hcall

/-- **What a receiver does with a genuine message.**  It takes what its window says it can, and
is left where the window says; whatever else comes leaves it as it is. -/
theorem groupDecrypt_genuine (hG : G.Correct) (hr : ReceiverOf G seed auth r) (hw : w.Valid)
    (hm : GenuineMessage G base seed auth i m plaintext) :
    match takes auth w i with
    | some w' =>
        groupDecrypt G m (r.atWindow G.hash base w) = (.ok plaintext, r.atWindow G.hash base w')
    | none =>
        ∃ e, groupDecrypt G m (r.atWindow G.hash base w) =
          (.error e, r.atWindow G.hash base w) := by
  cases auth with
  | signed =>
      have hauth := authenticate_signed (w := w) hG hr hm
      by_cases hkept : i ∈ w.kept
      · rw [takes, Window.accept_of_mem hkept]
        exact hm.groupDecrypt_kept hauth hkept
      · rw [takes, Window.accept_of_notMem hkept]
        exact hm.groupDecrypt_notKept hauth hkept
  | hmac =>
      by_cases hwithin : w.next ≤ i ∧ i - w.next ≤ maxGroupSkip
      · have hnot : i ∉ w.kept := fun hkept => by
          have := hw.behind i hkept
          omega
        exact hm.groupDecrypt_notKept (authenticate_genuine hG hr hm (fun _ => hwithin)) hnot
      · obtain ⟨e, he⟩ : ∃ e, (r.atWindow G.hash base w).authKey G.hash i = .error e :=
          authKey_outside hwithin
        have hbad : authenticate G (r.atWindow G.hash base w) m = .error e := by
          rw [authenticate_hmac hr hm, SenderKeyState.verifyHmac, he]
          rfl
        rw [takes, Window.ahead, if_neg hwithin]
        exact ⟨e, by simp only [groupDecrypt, hbad]⟩

end Receiver

end Hushwire
