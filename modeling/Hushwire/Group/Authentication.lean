import Hushwire.Group.Delivery

/-!
# What the authentication of a chain rests on

Two things that `group_decrypt` takes for granted.

* A signature or tag is on `authenticated_data`, the group id, the iteration and the ciphertext one
  after the other.  These bytes tell the three apart only if the length of the group id is known
  (`authenticatedData_binds_iff`); a message with the boundaries moved is authenticated as well.
* The mode of a chain is a field of the state, and is guessed again from a distribution message.
  `redistribution_keeps_mode_iff` says from which states the guess is right, over everything that
  can happen to a state: being made, being received, being read from a record, and any calls on it.
-/

namespace Hushwire

variable {Key : Type}

/-! ## Authenticated bytes -/

/-- With group ids of one length, the authenticated bytes determine the message. -/
lemma eq_of_authenticatedData {groupId groupId' ciphertext ciphertext' : Bytes}
    {iteration iteration' : ℕ} (hlen : groupId.length = groupId'.length)
    (hiteration : iteration < 2 ^ 32) (hiteration' : iteration' < 2 ^ 32)
    (h : authenticatedData groupId iteration ciphertext =
      authenticatedData groupId' iteration' ciphertext') :
    groupId = groupId' ∧ iteration = iteration' ∧ ciphertext = ciphertext' := by
  obtain ⟨hfront, hciphertext⟩ := List.append_inj h (by simp [hlen])
  obtain ⟨hgroup, hbytes⟩ := List.append_inj hfront hlen
  exact ⟨hgroup, beBytes_inj hiteration hiteration' hbytes, hciphertext⟩

/-- **What the authenticated bytes bind.**  Messages with the same authenticated bytes are the same
exactly if their group ids are of one length. -/
theorem authenticatedData_binds_iff {groupId groupId' ciphertext ciphertext' : Bytes}
    {iteration iteration' : ℕ} (hiteration : iteration < 2 ^ 32) (hiteration' : iteration' < 2 ^ 32)
    (h : authenticatedData groupId iteration ciphertext =
      authenticatedData groupId' iteration' ciphertext') :
    (groupId, iteration, ciphertext) = (groupId', iteration', ciphertext') ↔
      groupId.length = groupId'.length := by
  constructor
  · intro heq
    exact congrArg (fun x => x.1.length) heq
  · intro hlen
    obtain ⟨rfl, rfl, rfl⟩ := eq_of_authenticatedData hlen hiteration hiteration' h
    rfl

/-- A byte that moves from the group id to the ciphertext. -/
theorem authenticatedData_binds_iff_shifted :
    authenticatedData [0] 0 [1] = authenticatedData [] 0 [0, 1] ∧
      ((([0] : Bytes), 0, ([1] : Bytes)) = (([] : Bytes), 0, ([0, 1] : Bytes)) ↔
        ([0] : Bytes).length = ([] : Bytes).length) :=
  ⟨rfl, authenticatedData_binds_iff (by decide) (by decide) rfl⟩

/-- Of two messages of one iteration, authentication sees the bytes only. -/
lemma authenticate_congr (G : GroupSuite Key) (state : SenderKeyState Key) {m m' : SenderKeyMessage}
    (hauth : m'.auth = m.auth) (hiteration : m'.iteration = m.iteration)
    (hdata : authenticatedData m'.groupId m'.iteration m'.ciphertext =
      authenticatedData m.groupId m.iteration m.ciphertext) :
    authenticate G state m' = authenticate G state m := by
  simp only [authenticate]
  rw [hdata, hauth, hiteration]

/-- A message carries the group it was encrypted for. -/
lemma groupEncrypt_groupId {G : GroupSuite Key} {rng : Rng} {groupId plaintext : Bytes}
    {state state' : SenderKeyState Key} {m : SenderKeyMessage}
    (h : groupEncrypt G rng groupId plaintext state = (.ok m, state')) : m.groupId = groupId := by
  rcases groupEncrypt_cases G rng groupId plaintext state with
    ⟨e, hcall⟩ | ⟨ciphertext, auth, hcall⟩
  · cases hcall.symm.trans h
  · obtain rfl := Except.ok.inj (Prod.mk.inj (hcall.symm.trans h)).1
    rfl

/-- **One tag, two messages.**  The first message of a sender to the group `[0]` and the message to
the group `[]` that has that byte at the start of its ciphertext have the same authenticated bytes.
On a signed and on an HMAC chain, a receiver authenticates both with the same tag. -/
theorem shifted_message_authenticated : ∀ auth, ∃ (m m' : SenderKeyMessage) (sender' : _),
    groupEncrypt idealGroup (constRng 1) [0] [10]
        (createSenderKeyDistributionMessage idealGroup 0 [] [0] auth).1 = (.ok m, sender') ∧
      authenticatedData m'.groupId m'.iteration m'.ciphertext =
        authenticatedData m.groupId m.iteration m.ciphertext ∧
      m'.auth = m.auth ∧ m'.groupId ≠ m.groupId ∧ m'.ciphertext ≠ m.ciphertext ∧
      authenticate idealGroup (.fromDistribution
        (createSenderKeyDistributionMessage idealGroup 0 [] [0] auth).2) m = .ok () ∧
      authenticate idealGroup (.fromDistribution
        (createSenderKeyDistributionMessage idealGroup 0 [] [0] auth).2) m' = .ok () := by
  intro auth
  obtain ⟨m, hm, hgenuine⟩ := groupEncrypt_senderAt 0 [] auth idealGroup_correct 0
    ⟨constRng 1, [0], [10]⟩
  obtain ⟨hr, hwindow⟩ := fromDistribution_senderAt (G := idealGroup) 0 [] auth 0 [0]
  have hgroup : m.groupId = [0] := groupEncrypt_groupId hm
  have hiteration : m.iteration = 0 := hgenuine.iteration_eq
  have hauth : authenticate idealGroup (.fromDistribution
      (distributionMessageForExisting (senderAt idealGroup 0 [] auth 0) [0])) m = .ok () := by
    rw [hwindow]
    exact authenticate_genuine idealGroup_correct hr hgenuine (fun _ => by decide)
  have hdata : authenticatedData [] 0 (0 :: m.ciphertext) =
      authenticatedData m.groupId m.iteration m.ciphertext := by
    have hzero : beBytes 4 0 = [0, 0, 0, 0] := by decide
    rw [hgroup, hiteration, authenticatedData, authenticatedData, hzero]
    rfl
  rw [create_eq]
  refine ⟨m, ⟨[], 0, 0 :: m.ciphertext, m.auth⟩, _, hm, hdata, rfl, ?_, ?_, hauth, ?_⟩
  · rw [hgroup]
    exact (List.cons_ne_nil 0 []).symm
  · intro heq
    have hlen := congrArg List.length heq
    simp at hlen
  · have hcongr : ∀ state, authenticate idealGroup state ⟨[], 0, 0 :: m.ciphertext, m.auth⟩ =
        authenticate idealGroup state m :=
      fun state => authenticate_congr idealGroup state rfl hiteration.symm hdata
    exact (hcongr _).trans hauth

/-- On a signed chain the two messages share their signature. -/
theorem shifted_message_shares_signature : ∃ (m m' : SenderKeyMessage) (sender' : _),
    groupEncrypt idealGroup (constRng 1) [0] [10]
        (createSenderKeyDistributionMessage idealGroup 0 [] [0] .signed).1 = (.ok m, sender') ∧
      authenticatedData m'.groupId m'.iteration m'.ciphertext =
        authenticatedData m.groupId m.iteration m.ciphertext ∧
      m'.auth = m.auth ∧ m'.groupId ≠ m.groupId ∧ m'.ciphertext ≠ m.ciphertext ∧
      authenticate idealGroup (.fromDistribution
        (createSenderKeyDistributionMessage idealGroup 0 [] [0] .signed).2) m = .ok () ∧
      authenticate idealGroup (.fromDistribution
        (createSenderKeyDistributionMessage idealGroup 0 [] [0] .signed).2) m' = .ok () :=
  shifted_message_authenticated .signed

/-! ## Modes -/

/-- What is read back from storage.  `auth_mode`, the signing keys and the store were added later,
so that they may be missing. -/
structure SenderKeyRecord (Key : Type) where
  chainKey : Key
  iteration : ℕ
  isSender : Bool
  authMode : Option SenderKeyAuth
  signingPublic : Option (Option Bytes)
  signingPrivate : Option (Option Bytes)
  skippedMessageKeys : Option (List (ℕ × Key))

/-- `default_auth_mode`. -/
def defaultAuthMode : SenderKeyAuth := .signed

namespace SenderKeyState

/-- Deserialization, with the defaults for what is missing. -/
def deserialize (record : SenderKeyRecord Key) : SenderKeyState Key where
  chainKey := record.chainKey
  iteration := record.iteration
  isSender := record.isSender
  authMode := record.authMode.getD defaultAuthMode
  signingPublic := record.signingPublic.getD none
  signingPrivate := record.signingPrivate.getD none
  skippedMessageKeys := record.skippedMessageKeys.getD []

/-- Serialization. -/
def serialize (state : SenderKeyState Key) : SenderKeyRecord Key where
  chainKey := state.chainKey
  iteration := state.iteration
  isSender := state.isSender
  authMode := some state.authMode
  signingPublic := some state.signingPublic
  signingPrivate := some state.signingPrivate
  skippedMessageKeys := some state.skippedMessageKeys

/-- Nothing is lost. -/
lemma deserialize_serialize (state : SenderKeyState Key) :
    deserialize state.serialize = state := rfl

end SenderKeyState

/-- `process_sender_key_distribution_message`, which does not look at the address of the sender. -/
def processSenderKeyDistributionMessage (msg : SenderKeyDistributionMessage Key) :
    SenderKeyState Key := .fromDistribution msg

/-- Where a state comes from. -/
inductive SenderKeyOrigin (Key : Type)
  | created (chainKey : Key) (seed groupId : Bytes) (auth : SenderKeyAuth)
  | distributed (msg : SenderKeyDistributionMessage Key)
  | restored (record : SenderKeyRecord Key)

/-- What happens to it then. -/
inductive SenderKeyUse
  | encrypt (call : GroupCall)
  | decrypt (message : SenderKeyMessage)
  | reload

section Modes

variable (G : GroupSuite Key)

/-- The state to begin with. -/
def SenderKeyOrigin.state : SenderKeyOrigin Key → SenderKeyState Key
  | created chainKey seed groupId auth =>
      (createSenderKeyDistributionMessage G chainKey seed groupId auth).1
  | distributed msg => processSenderKeyDistributionMessage msg
  | restored record => .deserialize record

/-- One use; `reload` is serialization and deserialization. -/
def SenderKeyUse.apply (state : SenderKeyState Key) : SenderKeyUse → SenderKeyState Key
  | encrypt call => (groupEncrypt G call.rng call.groupId call.plaintext state).2
  | decrypt message => (groupDecrypt G message state).2
  | reload => .deserialize state.serialize

/-- The state after some uses. -/
def SenderKeyOrigin.after (origin : SenderKeyOrigin Key) (uses : List SenderKeyUse) :
    SenderKeyState Key :=
  uses.foldl (SenderKeyUse.apply G) (origin.state G)

end Modes

/-- The mode says whether there is a key to verify with. -/
def SenderKeyState.ModeFits (state : SenderKeyState Key) : Prop :=
  state.authMode = .signed ↔ state.signingPublic.isSome = true

section Modes

variable {G : GroupSuite Key} {state : SenderKeyState Key}

/-- The mode is guessed right exactly if it fits the key. -/
lemma redistributed_authMode (groupId : Bytes) :
    (processSenderKeyDistributionMessage
        (distributionMessageForExisting state groupId)).authMode = state.authMode ↔
      state.ModeFits := by
  have hguess : (processSenderKeyDistributionMessage
      (distributionMessageForExisting state groupId)).authMode =
        if state.signingPublic.isSome then .signed else .hmac := rfl
  rw [hguess, SenderKeyState.ModeFits]
  rcases state.authMode with - | -
  · by_cases hkey : state.signingPublic.isSome = true <;> simp [hkey]
  · by_cases hkey : state.signingPublic.isSome = true <;> simp [hkey]

lemma groupEncrypt_mode (rng : Rng) (groupId plaintext : Bytes) :
    (groupEncrypt G rng groupId plaintext state).2.authMode = state.authMode ∧
      (groupEncrypt G rng groupId plaintext state).2.signingPublic = state.signingPublic := by
  rcases groupEncrypt_cases G rng groupId plaintext state with
    ⟨e, hcall⟩ | ⟨ciphertext, auth, hcall⟩
  · rw [hcall]
    exact ⟨rfl, rfl⟩
  · rw [hcall]
    exact ⟨rfl, rfl⟩

lemma groupDecrypt_mode (m : SenderKeyMessage) :
    (groupDecrypt G m state).2.authMode = state.authMode ∧
      (groupDecrypt G m state).2.signingPublic = state.signingPublic := by
  rcases groupDecrypt_cases G m state with
    ⟨e, hcall⟩ | ⟨p, -, -, hcall⟩ | ⟨skipped, plaintext, hcall⟩
  · rw [hcall]
    exact ⟨rfl, rfl⟩
  · rw [hcall]
    exact ⟨rfl, rfl⟩
  · rw [hcall]
    exact ⟨rfl, rfl⟩

/-- No use changes the mode or the public key. -/
lemma apply_mode (use : SenderKeyUse) : (use.apply G state).authMode = state.authMode ∧
    (use.apply G state).signingPublic = state.signingPublic := by
  cases use with
  | encrypt call => exact groupEncrypt_mode _ _ _
  | decrypt message => exact groupDecrypt_mode message
  | reload =>
      rw [SenderKeyUse.apply, SenderKeyState.deserialize_serialize]
      exact ⟨rfl, rfl⟩

/-- So whether they fit is settled at the start. -/
lemma modeFits_after (origin : SenderKeyOrigin Key) (uses : List SenderKeyUse) :
    (origin.after G uses).ModeFits ↔ (origin.state G).ModeFits := by
  induction uses using List.reverseRecOn with
  | nil => rfl
  | append_singleton uses use ih =>
      obtain ⟨hmode, hkey⟩ : (use.apply G (origin.after G uses)).authMode = _ ∧ _ :=
        apply_mode use
      rw [← ih, SenderKeyOrigin.after, List.foldl_append]
      show (use.apply G (origin.after G uses)).ModeFits ↔ _
      rw [SenderKeyState.ModeFits, hmode, hkey]
      rfl

end Modes

/-- **When redistribution keeps the mode.**  Take a state from anywhere and any uses of it.  A
receiver made from the distribution message for it has its mode, except if the state was read from a
record whose mode does not fit its key: a signed one without a key or an HMAC one with a key.  A
record from before there were modes is of the first kind. -/
theorem redistribution_keeps_mode_iff (G : GroupSuite Key) (origin : SenderKeyOrigin Key)
    (uses : List SenderKeyUse) (groupId : Bytes) :
    (processSenderKeyDistributionMessage
        (distributionMessageForExisting (origin.after G uses) groupId)).authMode =
          (origin.after G uses).authMode ↔
      ∀ record, origin = .restored record → (record.authMode.getD defaultAuthMode = .signed ↔
        (record.signingPublic.getD none).isSome = true) := by
  rw [redistributed_authMode, modeFits_after]
  cases origin with
  | created chainKey seed groupId auth =>
      refine iff_of_true ?_ (fun record h => by cases h)
      cases auth with
      | signed => exact iff_of_true rfl rfl
      | hmac => exact iff_of_false SenderKeyAuth.noConfusion Bool.noConfusion
  | distributed msg =>
      refine iff_of_true ?_ (fun record h => by cases h)
      show (if msg.signingKey.isSome then _ else _) = _ ↔ msg.signingKey.isSome = true
      by_cases hkey : msg.signingKey.isSome = true
      · simp [hkey]
      · simp [hkey]
  | restored record =>
      constructor
      · intro hfits record' h
        obtain rfl := SenderKeyOrigin.restored.inj h
        exact hfits
      · intro h
        exact h record rfl

/-- A record from before there were modes. -/
def legacyRecord : SenderKeyRecord ℕ where
  chainKey := 7
  iteration := 3
  isSender := true
  authMode := none
  signingPublic := none
  signingPrivate := none
  skippedMessageKeys := none

/-- **A signed chain yields an HMAC receiver.** -/
theorem legacy_chain_downgraded :
    let state := (SenderKeyOrigin.restored legacyRecord).after idealGroup []
    state.authMode = .signed ∧
      (processSenderKeyDistributionMessage
        (distributionMessageForExisting state [])).authMode = .hmac :=
  ⟨rfl, rfl⟩

end Hushwire
