import Hushwire.Primitives.Aead
import Hushwire.Primitives.Keys
import Hushwire.Primitives.Padding
import Hushwire.Ratchet.Spqr

/-!
# The Triple Ratchet session

`src/protocol/ratchet/`: `chain.rs`, `skipped.rs`, `header.rs` and the session of `mod.rs`.
A classical Double Ratchet (a Diffie-Hellman ratchet that restarts a pair of symmetric chains,
and a store of skipped keys) runs next to the post-quantum ratchet of `SpqrState`, and the key
of a message is derived from one key of each.

As in the source a failed call may leave the session changed, so `encrypt` and `decrypt` return
the session next to their result.  A call draws what it needs from one `Rng`.

Left out is what only serialization and diagnostics read: `initial_root_id`, which is neither
stored nor used by a message, and the fingerprints.
-/

namespace Hushwire

variable {Key : Type}

/-! ## Chains -/

/-- One symmetric chain. -/
structure ChainState (Key : Type) where
  chainKey : Key
  messageNumber : ℕ

namespace ChainState

/-- `ChainState::new`. -/
def new (chainKey : Key) : ChainState Key := ⟨chainKey, 0⟩

/-- `ChainState::advance`: the message key of this step and the chain after it. -/
def advance (H : Hash Key) (chain : ChainState Key) : Key × ChainState Key :=
  let out := H.kdfCk chain.chainKey
  (out.messageKey, ⟨out.chainKey, chain.messageNumber + 1⟩)

end ChainState

/-! ## The store of skipped keys -/

/-- A stored key, with the ratchet key of its chain. -/
structure SkippedKey (Key : Type) where
  messageKey : Key
  dh : Key

/-- The keys of messages that were skipped over, by message number and ratchet key. -/
structure SkippedKeys (Key : Type) where
  keys : Map (ℕ × Key) (SkippedKey Key)

namespace SkippedKeys

/-- `SkippedKeys::new`. -/
def new : SkippedKeys Key := ⟨∅⟩

/-- `SkippedKeys::len`. -/
def len (store : SkippedKeys Key) : ℕ := Map.len store.keys

variable [DecidableEq Key]

/-- `SkippedKeys::insert`: nothing is stored once the store is full. -/
def insert (messageNumber : ℕ) (dh messageKey : Key) (store : SkippedKeys Key) : SkippedKeys Key :=
  if maxSkip ≤ store.len then store
  else ⟨Finmap.insert (messageNumber, dh) ⟨messageKey, dh⟩ store.keys⟩

/-- `SkippedKeys::try_remove_by_dh`. -/
def tryRemoveByDh (dh : Key) (messageNumber : ℕ) (store : SkippedKeys Key) :
    Option Key × SkippedKeys Key :=
  ((store.keys.lookup (messageNumber, dh)).map SkippedKey.messageKey,
    ⟨store.keys.erase (messageNumber, dh)⟩)

end SkippedKeys

/-! ## Messages -/

/-- The header of a message. -/
structure MessageHeader (Key : Type) where
  dhPublicKey : Key
  previousChainLength : ℕ
  messageNumber : ℕ
  braidMsg : Message
  pqMessageNumber : ℕ

/-- A message on the wire. -/
structure RatchetMessage where
  header : Bytes
  ciphertext : Bytes

/-- What the `postcard` crate does with a header. -/
structure Postcard (Key : Type) where
  toAllocvec : MessageHeader Key → Bytes
  fromBytes : Bytes → Except String (MessageHeader Key)

/-- A header survives the wire. -/
def Postcard.Correct (W : Postcard Key) : Prop :=
  ∀ header, W.fromBytes (W.toAllocvec header) = .ok header

namespace MessageHeader

variable (W : Postcard Key)

/-- `MessageHeader::serialize`. -/
def serialize (header : MessageHeader Key) : Bytes := W.toAllocvec header

/-- `MessageHeader::deserialize`. -/
def deserialize (data : Bytes) : Result (MessageHeader Key) :=
  match W.fromBytes data with
  | .error e => .error (.serialization e)
  | .ok header => .ok header

lemma deserialize_serialize {W : Postcard Key} (hW : W.Correct) (header : MessageHeader Key) :
    deserialize W (header.serialize W) = .ok header := by
  rw [deserialize, serialize, hW header]

end MessageHeader

/-- Everything a session takes from other crates. -/
structure Suite (Key : Type) extends Prims Key where
  x25519 : X25519 Key
  xchacha : XChaCha Key
  postcard : Postcard Key

/-- `build_ad`. -/
def buildAd (C : Suite Key) (senderIdentity recipientIdentity : IdentityPublicKey)
    (header : Bytes) : Bytes :=
  C.hash.asBytes (C.x25519.ofIdentity senderIdentity) ++
    C.hash.asBytes (C.x25519.ofIdentity recipientIdentity) ++ header

/-! ## The session -/

/-- `PqxdhInitialMessage`: what the initiator's first message has to carry. -/
structure PqxdhInitialMessage (Key : Type) where
  registrationId : ℕ
  ephemeralPublicKey : Key
  signedPreKeyId : ℕ
  oneTimePreKeyId : Option ℕ
  kyberPreKeyId : ℕ
  kyberCiphertext : Bytes
  identityKey : IdentityPublicKey

/-- A session. -/
structure RatchetSession (Key : Type) where
  dhSelf : Bytes
  dhSelfPublic : Key
  dhRemote : Option Key
  rootKey : Key
  sendingChain : Option (ChainState Key)
  receivingChain : Option (ChainState Key)
  previousSendingChainLength : ℕ
  skipped : SkippedKeys Key
  pendingPrekey : Option (PqxdhInitialMessage Key)
  spqr : SpqrState Key

/-- `PreKeyRatchetMessage`. -/
structure PreKeyRatchetMessage (Key : Type) where
  registrationId : ℕ
  preKeyId : Option ℕ
  signedPreKeyId : ℕ
  kyberPreKeyId : ℕ
  ephemeralDhKey : Key
  kyberCiphertext : Bytes
  identityKey : IdentityPublicKey
  message : RatchetMessage

/-- `EncryptedOutput`. -/
inductive EncryptedOutput (Key : Type)
  | message (m : RatchetMessage)
  | preKeyMessage (m : PreKeyRatchetMessage Key)

namespace RatchetSession

variable (C : Suite Key)

/-- `RatchetSession::initialize_alice`. -/
def initializeAlice (rng : Rng) (sharedSecret bobDhPublic : Key) : RatchetSession Key :=
  let dhSelf := rng.fill 32
  let rkOut := C.hash.kdfRk sharedSecret (C.x25519.diffieHellman dhSelf bobDhPublic)
  { dhSelf
    dhSelfPublic := C.x25519.publicKey dhSelf
    dhRemote := some bobDhPublic
    rootKey := rkOut.rootKey
    sendingChain := some (.new rkOut.chainKey)
    receivingChain := none
    previousSendingChainLength := 0
    skipped := .new
    pendingPrekey := none
    spqr := SpqrState.newSender C.toPrims sharedSecret }

/-- `RatchetSession::initialize_alice_with_prekey`. -/
def initializeAliceWithPrekey (rng : Rng) (sharedSecret bobDhPublic : Key)
    (initialMessage : PqxdhInitialMessage Key) : RatchetSession Key :=
  { initializeAlice C rng sharedSecret bobDhPublic with pendingPrekey := some initialMessage }

/-- `RatchetSession::initialize_bob`. -/
def initializeBob (sharedSecret : Key) (bobDhKeypair : Bytes × Key) : RatchetSession Key where
  dhSelf := bobDhKeypair.1
  dhSelfPublic := bobDhKeypair.2
  dhRemote := none
  rootKey := sharedSecret
  sendingChain := none
  receivingChain := none
  previousSendingChainLength := 0
  skipped := .new
  pendingPrekey := none
  spqr := SpqrState.newReceiver C.toPrims sharedSecret

/-- The first half of `encrypt_raw`: the header of the next message, its EC and its PQ key. -/
def sendKeys (rng : Rng) (s : RatchetSession Key) :
    Result (MessageHeader Key × Key × Key) × RatchetSession Key :=
  match s.spqr.ratchetSendKey C.toPrims rng with
  | (.error e, spqr) => (.error e, { s with spqr })
  | (.ok (braidMsg, pqMessageNumber, pqMk), spqr) =>
      match s.sendingChain with
      | none => (.error .invalidSessionState, { s with spqr })
      | some chain =>
          let adv := chain.advance C.hash
          let header : MessageHeader Key :=
            { dhPublicKey := s.dhSelfPublic
              previousChainLength := s.previousSendingChainLength
              messageNumber := adv.2.messageNumber - 1
              braidMsg
              pqMessageNumber }
          (.ok (header, adv.1, pqMk), { s with spqr, sendingChain := some adv.2 })

/-- `RatchetSession::encrypt_raw`. -/
def encryptRaw (rng : Rng) (plaintext : Bytes)
    (senderIdentity recipientIdentity : IdentityPublicKey)
    (s : RatchetSession Key) : Result RatchetMessage × RatchetSession Key :=
  match s.sendKeys C rng with
  | (.error e, s) => (.error e, s)
  | (.ok (header, ecMk, pqMk), s) =>
      let headerBytes := header.serialize C.postcard
      let ad := buildAd C senderIdentity recipientIdentity headerBytes
      match Aead.encrypt C.hash C.xchacha rng (C.hash.kdfHybrid ecMk pqMk) (pad plaintext) ad with
      | .error e => (.error e, s)
      | .ok ciphertext => (.ok ⟨headerBytes, ciphertext⟩, s)

/-- `RatchetSession::encrypt`. -/
def encrypt (rng : Rng) (plaintext : Bytes) (senderIdentity recipientIdentity : IdentityPublicKey)
    (s : RatchetSession Key) : Result RatchetMessage × RatchetSession Key :=
  if s.pendingPrekey.isSome then (.error .invalidSessionState, s)
  else s.encryptRaw C rng plaintext senderIdentity recipientIdentity

/-- `RatchetSession::encrypt_message`. -/
def encryptMessage (rng : Rng) (plaintext : Bytes)
    (senderIdentity recipientIdentity : IdentityPublicKey) (s : RatchetSession Key) :
    Result (EncryptedOutput Key) × RatchetSession Key :=
  match s.encryptRaw C rng plaintext senderIdentity recipientIdentity with
  | (.error e, s) => (.error e, s)
  | (.ok message, s) =>
      match s.pendingPrekey with
      | none => (.ok (.message message), s)
      | some initial =>
          (.ok (.preKeyMessage
            { registrationId := initial.registrationId
              preKeyId := initial.oneTimePreKeyId
              signedPreKeyId := initial.signedPreKeyId
              kyberPreKeyId := initial.kyberPreKeyId
              ephemeralDhKey := initial.ephemeralPublicKey
              kyberCiphertext := initial.kyberCiphertext
              identityKey := senderIdentity
              message }), { s with pendingPrekey := none })

/-- `RatchetSession::perform_dh_ratchet_step`. -/
def performDhRatchetStep (rng : Rng) (header : MessageHeader Key) (s : RatchetSession Key) :
    RatchetSession Key :=
  let dhRemote := header.dhPublicKey
  -- receiving half, with the key pair the peer knows
  let rkOut := C.hash.kdfRk s.rootKey (C.x25519.diffieHellman s.dhSelf dhRemote)
  -- sending half, with a fresh one
  let dhSelf := rng.fill 32
  let rkOut2 := C.hash.kdfRk rkOut.rootKey (C.x25519.diffieHellman dhSelf dhRemote)
  { s with
    previousSendingChainLength := (s.sendingChain.map ChainState.messageNumber).getD 0
    dhRemote := some dhRemote
    receivingChain := some (.new rkOut.chainKey)
    dhSelf
    dhSelfPublic := C.x25519.publicKey dhSelf
    rootKey := rkOut2.rootKey
    sendingChain := some (.new rkOut2.chainKey) }

variable [DecidableEq Key]

/-- `while chain.message_number < until { .. }`, for the steps that are left. -/
def skipKeys (H : Hash Key) (chainDh : Key) : ℕ → ChainState Key → SkippedKeys Key →
    ChainState Key × SkippedKeys Key
  | 0, chain, store => (chain, store)
  | k + 1, chain, store =>
      let adv := chain.advance H
      skipKeys H chainDh k adv.2 (store.insert (adv.2.messageNumber - 1) chainDh adv.1)

/-- `RatchetSession::skip_receiving_messages`. -/
def skipReceivingMessages (H : Hash Key) (upTo : ℕ) (s : RatchetSession Key) :
    Result Unit × RatchetSession Key :=
  let chainDh := s.dhRemote.getD H.zero
  match s.receivingChain with
  | none => (.ok (), s)
  | some chain =>
      if upTo < chain.messageNumber then (.ok (), s)
      else
        let gap := upTo - chain.messageNumber
        if maxSkip < gap then (.error (.maxSkipExceeded gap maxSkip), s)
        else
          let out := skipKeys H chainDh gap chain s.skipped
          (.ok (), { s with receivingChain := some out.1, skipped := out.2 })

/-- `self.receiving_chain.as_mut().ok_or(..)?.advance()`. -/
def advanceReceiving (H : Hash Key) (s : RatchetSession Key) : Result Key × RatchetSession Key :=
  match s.receivingChain with
  | none => (.error .invalidSessionState, s)
  | some chain =>
      let adv := chain.advance H
      (.ok adv.1, { s with receivingChain := some adv.2 })

/-- `if needs_ratchet { .. }`. -/
def ratchetIfNeeded (rng : Rng) (header : MessageHeader Key) (s : RatchetSession Key) :
    Result Unit × RatchetSession Key :=
  let needsRatchet := s.dhRemote.all (fun r => r ≠ header.dhPublicKey)
  if needsRatchet then
    match s.skipReceivingMessages C.hash header.previousChainLength with
    | (.error e, s) => (.error e, s)
    | (.ok _, s) => (.ok (), s.performDhRatchetStep C rng header)
  else (.ok (), s)

/-- The first half of `decrypt`: the EC key of the message with this header. -/
def ecMessageKey (rng : Rng) (header : MessageHeader Key) (s : RatchetSession Key) :
    Result Key × RatchetSession Key :=
  match s.skipped.tryRemoveByDh header.dhPublicKey header.messageNumber with
  | (some ecMk, skipped) => (.ok ecMk, { s with skipped })
  | (none, skipped) =>
      match { s with skipped }.ratchetIfNeeded C rng header with
      | (.error e, s) => (.error e, s)
      | (.ok _, s) =>
          match s.skipReceivingMessages C.hash header.messageNumber with
          | (.error e, s) => (.error e, s)
          | (.ok _, s) => s.advanceReceiving C.hash

/-- `RatchetSession::decrypt`. -/
def decrypt (rng : Rng) (message : RatchetMessage)
    (senderIdentity recipientIdentity : IdentityPublicKey) (s : RatchetSession Key) :
    Result Bytes × RatchetSession Key :=
  match MessageHeader.deserialize C.postcard message.header with
  | .error e => (.error e, s)
  | .ok header =>
      let ad := buildAd C senderIdentity recipientIdentity message.header
      match s.ecMessageKey C rng header with
      | (.error e, s) => (.error e, s)
      | (.ok ecMk, s) =>
          match s.spqr.ratchetReceiveKey C.toPrims header.braidMsg header.pqMessageNumber with
          | (.error e, spqr) => (.error e, { s with spqr })
          | (.ok pqMk, spqr) =>
              (do
                let padded ← Aead.decrypt C.hash C.xchacha (C.hash.kdfHybrid ecMk pqMk)
                  message.ciphertext ad
                unpad padded, { s with spqr })

end RatchetSession

end Hushwire
