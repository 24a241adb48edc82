import Hushwire.Primitives.Serialization
import Hushwire.Ratchet.SessionSteps

/-!
# Storing a session

`RatchetSession::serialize` and `deserialize`.  A session is copied field by field into a record of
its own, and the store of skipped keys, a `HashMap` keyed by number and ratchet key, is written as
a list of entries without the keys; reading it back, the key is put together from the entry.  So a
stored session comes back only if every entry of the store is filed under its own ratchet key.

* `SkippedKeys.Filed` — that property; `filed_call` says that every call keeps it, also one that
  fails halfway and one on a message of anyone's making.
* `LiveSession.exists_serialize` — storing a session and loading it resets the id of its shared
  secret and nothing else.
* `restart_transparent` — restarts at any points of a session's life change no result.
-/

namespace Hushwire

variable {Key : Type}

/-! ## The stored record -/

/-- `SkippedKeyEntry`. -/
structure SkippedKeyEntry (Key : Type) where
  messageNumber : ℕ
  messageKey : Key
  dh : Key

/-- `SerializedState`. -/
structure SerializedState (Key : Type) where
  sessionVersion : ℕ
  dhSelfBytes : Bytes
  dhSelfPublic : Key
  dhRemote : Option Key
  rootKey : Key
  sendingChain : Option (ChainState Key)
  receivingChain : Option (ChainState Key)
  previousSendingChainLength : ℕ
  skipped : List (SkippedKeyEntry Key)
  pendingPrekey : Option (PqxdhInitialMessage Key)
  spqr : SpqrState Key

/-- `SESSION_VERSION`. -/
def sessionVersion : ℕ := 6

/-- A session as it is held in memory: with `initial_root_id`, which is not stored. -/
structure LiveSession (Key : Type) where
  ratchet : RatchetSession Key
  initialRootId : ℕ

/-- `shared_secret_id`. -/
def sharedSecretId (H : Hash Key) (sharedSecret : Key) : ℕ :=
  ((H.asBytes sharedSecret).take 8).foldl (fun id b => id * 256 + b.toNat) 0

section Calls

variable [DecidableEq Key]

/-- `SkippedKeys::serialize`. -/
def SkippedKeys.toEntries (order : MapOrder (ℕ × Key) (SkippedKey Key)) (store : SkippedKeys Key) :
    List (SkippedKeyEntry Key) :=
  (order.entries store.keys).map (fun e => ⟨e.1.1, e.2.messageKey, e.2.dh⟩)

/-- `SkippedKeys::deserialize`. -/
def SkippedKeys.ofEntries (entries : List (SkippedKeyEntry Key)) : SkippedKeys Key :=
  ⟨Map.ofEntries (entries.map (fun e => ((e.messageNumber, e.dh), ⟨e.messageKey, e.dh⟩)))⟩

namespace LiveSession

variable (W : Codec (SerializedState Key))

/-- `RatchetSession::serialize`. -/
def serialize (order : MapOrder (ℕ × Key) (SkippedKey Key)) (s : LiveSession Key) : Result Bytes :=
  Serialization.serialize W
    { sessionVersion
      dhSelfBytes := s.ratchet.dhSelf
      dhSelfPublic := s.ratchet.dhSelfPublic
      dhRemote := s.ratchet.dhRemote
      rootKey := s.ratchet.rootKey
      sendingChain := s.ratchet.sendingChain
      receivingChain := s.ratchet.receivingChain
      previousSendingChainLength := s.ratchet.previousSendingChainLength
      skipped := s.ratchet.skipped.toEntries order
      pendingPrekey := s.ratchet.pendingPrekey
      spqr := s.ratchet.spqr }

/-- `RatchetSession::deserialize`. -/
def deserialize (data : Bytes) : Result (LiveSession Key) := do
  let state ← Serialization.deserialize W data
  if state.sessionVersion ≠ sessionVersion then
    .error (.serialization ("session version " ++ toString state.sessionVersion ++
      " is not the supported version " ++ toString sessionVersion))
  else
    .ok
      { ratchet :=
          { dhSelf := state.dhSelfBytes
            dhSelfPublic := state.dhSelfPublic
            dhRemote := state.dhRemote
            rootKey := state.rootKey
            sendingChain := state.sendingChain
            receivingChain := state.receivingChain
            previousSendingChainLength := state.previousSendingChainLength
            skipped := .ofEntries state.skipped
            pendingPrekey := state.pendingPrekey
            spqr := state.spqr }
        initialRootId := 0 }

end LiveSession

/-! ## The life of a session -/

/-- A call on a session. -/
inductive SessionCall
  | encrypt (rng : Rng) (plaintext : Bytes) (sender recipient : IdentityPublicKey)
  | encryptMessage (rng : Rng) (plaintext : Bytes) (sender recipient : IdentityPublicKey)
  | decrypt (rng : Rng) (message : RatchetMessage) (sender recipient : IdentityPublicKey)

/-- What it returns. -/
inductive SessionResult (Key : Type)
  | encrypted (r : Result RatchetMessage)
  | output (r : Result (EncryptedOutput Key))
  | decrypted (r : Result Bytes)

variable (C : Suite Key)

/-- One call. -/
def RatchetSession.call (s : RatchetSession Key) :
    SessionCall → SessionResult Key × RatchetSession Key
  | .encrypt rng plaintext sender recipient =>
      ((s.encrypt C rng plaintext sender recipient).map .encrypted id)
  | .encryptMessage rng plaintext sender recipient =>
      ((s.encryptMessage C rng plaintext sender recipient).map .output id)
  | .decrypt rng message sender recipient =>
      ((s.decrypt C rng message sender recipient).map .decrypted id)

/-- Calls, one after the other. -/
def RatchetSession.callAll (s : RatchetSession Key) :
    List SessionCall → List (SessionResult Key) × RatchetSession Key
  | [] => ([], s)
  | c :: cs =>
      let out := s.call C c
      let rest := callAll out.2 cs
      (out.1 :: rest.1, rest.2)

/-- What happens to a session: a call, or a restart, for which it is stored and loaded again. -/
inductive LifeEvent (Key : Type) [DecidableEq Key]
  | call (c : SessionCall)
  | restart (order : MapOrder (ℕ × Key) (SkippedKey Key))

/-- The calls among the events. -/
def LifeEvent.call? : LifeEvent Key → Option SessionCall
  | .call c => some c
  | .restart _ => none

/-- The results of the calls and the session at the end; an error if a restart fails. -/
def LiveSession.live (W : Codec (SerializedState Key)) :
    LiveSession Key → List (LifeEvent Key) → Result (List (SessionResult Key) × LiveSession Key)
  | s, [] => .ok ([], s)
  | s, .call c :: events => do
      let out := s.ratchet.call C c
      let rest ← live W { s with ratchet := out.2 } events
      .ok (out.1 :: rest.1, rest.2)
  | s, .restart order :: events => do
      let data ← s.serialize W order
      let s ← LiveSession.deserialize W data
      live W s events

/-- A session right after construction. -/
inductive LiveSession.Started : LiveSession Key → Prop
  | alice (rng : Rng) (sharedSecret bobDhPublic : Key) :
      Started ⟨.initializeAlice C rng sharedSecret bobDhPublic, sharedSecretId C.hash sharedSecret⟩
  | aliceWithPrekey (rng : Rng) (sharedSecret bobDhPublic : Key)
      (initialMessage : PqxdhInitialMessage Key) :
      Started ⟨.initializeAliceWithPrekey C rng sharedSecret bobDhPublic initialMessage,
        sharedSecretId C.hash sharedSecret⟩
  | bob (sharedSecret : Key) (bobDhKeypair : Bytes × Key) :
      Started ⟨.initializeBob C sharedSecret bobDhKeypair, sharedSecretId C.hash sharedSecret⟩

end Calls

/-! ## Every entry is filed under its own ratchet key -/

section Sends

variable {C : Suite Key} {rng : Rng} {s : RatchetSession Key}

namespace RatchetSession

/-- A send does not touch the store. -/
lemma encryptRaw_skipped (plaintext : Bytes) (sender recipient : IdentityPublicKey) :
    (s.encryptRaw C rng plaintext sender recipient).2.skipped = s.skipped := by
  rw [encryptRaw_snd]
  obtain ⟨r, spqr, -, ⟨⟨e, h⟩, -⟩ | ⟨m, pqN, pqMk, chain, -, -, h⟩⟩ := sendKeys_eq C rng s
  · rw [h]
  · rw [h]

lemma encryptMessage_skipped (plaintext : Bytes) (sender recipient : IdentityPublicKey) :
    (s.encryptMessage C rng plaintext sender recipient).2.skipped = s.skipped := by
  have hraw : (s.encryptRaw C rng plaintext sender recipient).2.skipped = s.skipped :=
    encryptRaw_skipped plaintext sender recipient
  unfold encryptMessage
  generalize s.encryptRaw C rng plaintext sender recipient = out at hraw ⊢
  obtain ⟨e | m, s'⟩ := out
  · exact hraw
  · simp only
    split
    · exact hraw
    · exact hraw

end RatchetSession

end Sends

section Filed

variable [DecidableEq Key] {C : Suite Key} {H : Hash Key} {rng : Rng} {header : MessageHeader Key}
  {s s' : RatchetSession Key}

/-- Every stored key is filed under the ratchet key that it carries. -/
def SkippedKeys.Filed (store : SkippedKeys Key) : Prop :=
  ∀ n d e, store.keys.lookup (n, d) = some e → e.dh = d

namespace SkippedKeys

lemma filed_new : (new : SkippedKeys Key).Filed := by
  intro n d e h
  cases h

lemma Filed.insert {store : SkippedKeys Key} (h : store.Filed) (n : ℕ) (dh key : Key) :
    (store.insert n dh key).Filed := by
  unfold SkippedKeys.insert
  split
  · exact h
  · intro n' d e he
    have he' := (Map.lookup_insert_eq_ite store.keys (n, dh) ⟨key, dh⟩ (n', d)).symm.trans he
    split at he'
    · rename_i hkey
      obtain rfl := Option.some.inj he'
      exact (Prod.mk.inj hkey).2.symm
    · exact h n' d e he'

lemma Filed.remove {store : SkippedKeys Key} (h : store.Filed) (dh : Key) (n : ℕ) :
    (store.remove dh n).Filed := by
  intro n' d e he
  have he' := (Map.lookup_erase_eq_ite store.keys (n, dh) (n', d)).symm.trans he
  split at he'
  · cases he'
  · exact h n' d e he'

/-- **The store survives storage.** -/
lemma Filed.ofEntries_toEntries {store : SkippedKeys Key} (h : store.Filed)
    (order : MapOrder (ℕ × Key) (SkippedKey Key)) : ofEntries (store.toEntries order) = store := by
  have hentries : (store.toEntries order).map
      (fun e => ((e.messageNumber, e.dh), (⟨e.messageKey, e.dh⟩ : SkippedKey Key))) =
        order.entries store.keys := by
    rw [toEntries, List.map_map]
    refine (List.map_congr_left ?_).trans (List.map_id _)
    rintro ⟨⟨n, d⟩, e⟩ he
    have hdh := h n d e ((order.mem_entries _ _ _).mp he)
    subst hdh
    rfl
  rw [ofEntries, hentries, Map.ofEntries_entries]

end SkippedKeys

namespace RatchetSession

lemma filed_skipKeys (dh : Key) (k : ℕ) (chain : ChainState Key) {store : SkippedKeys Key}
    (h : store.Filed) : (skipKeys H dh k chain store).2.Filed := by
  induction k with
  | zero => exact h
  | succ k ih =>
      rw [skipKeys_succ]
      exact ih.insert _ _ _

lemma Skips.filed {upTo : ℕ} {r : Result Unit} (hskip : Skips H upTo s r s')
    (h : s.skipped.Filed) : s'.skipped.Filed := by
  rcases hskip with _ | _ | _ | _
  · exact h
  · exact h
  · exact h
  · exact filed_skipKeys _ _ _ h

lemma Ratchets.filed {r : Result Unit} (hratchet : Ratchets C rng header s r s')
    (h : s.skipped.Filed) : s'.skipped.Filed := by
  rcases hratchet with _ | ⟨_, hskip⟩ | ⟨_, hskip⟩
  · exact h
  · exact hskip.filed h
  · exact hskip.filed h

lemma Resolves.filed {r : Result Key} (hresolves : Resolves C rng header s r s')
    (h : s.skipped.Filed) : s'.skipped.Filed := by
  rcases hresolves with _ | ⟨_, hratchet⟩ | ⟨_, hratchet, hskip⟩ | ⟨_, hratchet, hskip, _⟩ |
    ⟨_, hratchet, hskip, _⟩
  · exact h.remove _ _
  · exact hratchet.filed h
  · exact hskip.filed (hratchet.filed h)
  · exact hskip.filed (hratchet.filed h)
  · exact hskip.filed (hratchet.filed h)

/-- **Every call keeps the store in order**, whether it succeeds or not. -/
lemma filed_call (h : s.skipped.Filed) (c : SessionCall) : (s.call C c).2.skipped.Filed := by
  rcases c with ⟨rng, plaintext, sender, recipient⟩ | ⟨rng, plaintext, sender, recipient⟩ |
    ⟨rng, message, sender, recipient⟩
  · show (s.encrypt C rng plaintext sender recipient).2.skipped.Filed
    unfold encrypt
    split
    · exact h
    · rwa [encryptRaw_skipped]
  · show (s.encryptMessage C rng plaintext sender recipient).2.skipped.Filed
    rwa [encryptMessage_skipped]
  · show (s.decrypt C rng message sender recipient).2.skipped.Filed
    have hopens := opens_decrypt C rng message sender recipient s
    generalize s.decrypt C rng message sender recipient = out at hopens ⊢
    obtain ⟨r, s'⟩ := out
    rcases hopens with _ | ⟨_, hec⟩ | ⟨_, hec, _⟩ | ⟨_, hec, _⟩
    · exact h
    · exact (Resolves.of_eq hec).filed h
    · exact (Resolves.of_eq hec).filed h
    · exact (Resolves.of_eq hec).filed h

lemma filed_callAll (cs : List SessionCall) : ∀ s : RatchetSession Key, s.skipped.Filed →
    (s.callAll C cs).2.skipped.Filed := by
  induction cs with
  | nil => intro s h; exact h
  | cons c cs ih => intro s h; exact ih _ (filed_call h c)

end RatchetSession

lemma LiveSession.Started.filed {s : LiveSession Key} (h : LiveSession.Started C s) :
    s.ratchet.skipped.Filed := by
  rcases h with _ | _ | _
  · exact SkippedKeys.filed_new
  · exact SkippedKeys.filed_new
  · exact SkippedKeys.filed_new

end Filed

/-! ## Restarts -/

section Restarts

variable [DecidableEq Key] {C : Suite Key} {W : Codec (SerializedState Key)}

/-- **Storing and loading.**  The session comes back with everything but the id of its shared
secret. -/
lemma LiveSession.exists_serialize (hW : W.Correct) {s : LiveSession Key}
    (h : s.ratchet.skipped.Filed) (order : MapOrder (ℕ × Key) (SkippedKey Key)) :
    ∃ data, s.serialize W order = .ok data ∧
      LiveSession.deserialize W data = .ok { s with initialRootId := 0 } := by
  obtain ⟨data, hto, hfrom⟩ := Serialization.exists_serialize hW _
  refine ⟨data, hto, ?_⟩
  simp only [LiveSession.deserialize, hfrom, bind, Except.bind, ne_eq, not_true_eq_false, if_false,
    h.ofEntries_toEntries]

/-- Restarts in the life of a session with a store in order. -/
lemma LiveSession.live_eq (hW : W.Correct) (events : List (LifeEvent Key)) :
    ∀ s : LiveSession Key, s.ratchet.skipped.Filed →
      s.live C W events =
        .ok ((s.ratchet.callAll C (events.filterMap LifeEvent.call?)).1,
          { ratchet := (s.ratchet.callAll C (events.filterMap LifeEvent.call?)).2
            initialRootId :=
              if events.all (fun e => e.call?.isSome) then s.initialRootId else 0 }) := by
  induction events with
  | nil => intro s _; rfl
  | cons event events ih =>
      intro s h
      rcases event with c | order
      · have hrest := ih { s with ratchet := (s.ratchet.call C c).2 }
          (RatchetSession.filed_call h c)
        simp only [LiveSession.live, hrest, bind, Except.bind]
        rfl
      · obtain ⟨data, hto, hfrom⟩ := LiveSession.exists_serialize hW h order
        have hrest := ih { s with initialRootId := 0 } h
        simp only [LiveSession.live, hto, hfrom, bind, Except.bind, hrest, ite_self]
        rfl

end Restarts

/-- **Restart transparency.**  Take a session that was started in any way and has made any calls,
`encrypt`, `encrypt_message` and `decrypt` on messages of anyone's making.  Stored and loaded, it
comes back with all its fields, only the id of its shared secret is 0.  And if it makes further
calls and is stored and loaded any number of times between them, then the results and the session
at the end are those without the restarts. -/
theorem restart_transparent [DecidableEq Key] {C : Suite Key} {W : Codec (SerializedState Key)}
    (hW : W.Correct) {start : LiveSession Key} (hstart : LiveSession.Started C start)
    (before : List SessionCall) (events : List (LifeEvent Key)) :
    let s : LiveSession Key := { start with ratchet := (start.ratchet.callAll C before).2 }
    (∀ order, ∃ data, s.serialize W order = .ok data ∧
        LiveSession.deserialize W data = .ok { s with initialRootId := 0 }) ∧
      s.live C W events =
        .ok ((s.ratchet.callAll C (events.filterMap LifeEvent.call?)).1,
          { ratchet := (s.ratchet.callAll C (events.filterMap LifeEvent.call?)).2
            initialRootId :=
              if events.all (fun e => e.call?.isSome) then s.initialRootId else 0 }) := by
  intro s
  have hfiled : s.ratchet.skipped.Filed := RatchetSession.filed_callAll before _ hstart.filed
  exact ⟨fun order => LiveSession.exists_serialize hW hfiled order,
    LiveSession.live_eq hW events s hfiled⟩

/-! ## An instance -/

instance {α β : Type} [Countable α] [Countable β] : Countable (Map α β) := by
  have hentries : Function.Injective (fun m : Map α β => m.entries) := fun _ _ h => Finmap.ext h
  exact hentries.countable

deriving instance Countable for Chunk, MsgType, Message, Authenticator, Encoder, Decoder, State,
  BraidState, Direction, SckaChain, EpochChains, SpqrState, ChainState, SkippedKeyEntry,
  PqxdhInitialMessage, SerializedState

/-- Some order of the entries. -/
noncomputable def someOrder (α β : Type) [DecidableEq α] : MapOrder α β where
  entries m := m.entries.toList.map (fun e => (e.1, e.2))
  nodup m := by
    rw [List.map_map]
    have hkeys : (m.entries.map Sigma.fst).Nodup := Multiset.nodup_keys.mpr m.nodupKeys
    rw [← Multiset.coe_toList m.entries] at hkeys
    exact hkeys
  mem_entries m a b := by
    rw [Finmap.lookup_eq_some_iff, List.mem_map]
    constructor
    · rintro ⟨⟨a', b'⟩, hmem, heq⟩
      obtain ⟨rfl, rfl⟩ := Prod.mk.inj heq
      exact Multiset.mem_toList.mp hmem
    · intro hmem
      exact ⟨⟨a, b⟩, Multiset.mem_toList.mpr hmem, rfl⟩

/-- Two messages, with a restart between them. -/
theorem restart_transparent_between :
    ∃ s', (⟨idealAlice, sharedSecretId idealSuite.hash 0⟩ : LiveSession ℕ).live idealSuite
        (Ideal.recordCodec (SerializedState ℕ))
        [.call (.encrypt (constRng 2) [1] [] []), .restart (someOrder _ _),
          .call (.encrypt (constRng 3) [2] [] [])] =
      .ok ((idealAlice.callAll idealSuite
        [.encrypt (constRng 2) [1] [] [], .encrypt (constRng 3) [2] [] []]).1, s') := by
  have hstart : LiveSession.Started idealSuite ⟨idealAlice, sharedSecretId idealSuite.hash 0⟩ :=
    .alice (constRng 1) 0 (idealSuite.x25519.publicKey idealSecret)
  exact ⟨_, (restart_transparent (Ideal.recordCodec_correct _) hstart []
    [.call (.encrypt (constRng 2) [1] [] []), .restart (someOrder _ _),
      .call (.encrypt (constRng 3) [2] [] [])]).2⟩

end Hushwire
