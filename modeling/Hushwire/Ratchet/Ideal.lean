import Hushwire.Braid.Ideal
import Hushwire.Primitives.Serialization
import Hushwire.Ratchet.Session

/-!
# An ideal suite

Libraries that meet every assumption the results about sessions make, on top of the ideal
primitives of the braid.  A public key is a number made of the bytes of its secret, so distinct
secrets have distinct public keys; the AEAD seals its key, nonce and associated data into the
ciphertext and opens nothing else.  Structured data is carried as the length of a string of
zeros, since nothing here is meant to be run.
-/

namespace Hushwire

namespace Ideal

def fromNats (l : List ℕ) : Bytes := l.map UInt8.ofNat

lemma fromNats_toNats (b : Bytes) : fromNats (toNats b) = b := by
  rw [fromNats, toNats, List.map_map]
  exact List.map_id'' (fun x => UInt8.ofNat_toNat) b

/-- A value as the length of a string. -/
def unary {α : Type} [Encodable α] (a : α) : Bytes := List.replicate (Encodable.encode a) 0

def ofUnary (α : Type) [Encodable α] (b : Bytes) : Option α := Encodable.decode b.length

lemma ofUnary_unary {α : Type} [Encodable α] (a : α) : ofUnary α (unary a) = some a := by
  rw [ofUnary, unary, List.length_replicate, Encodable.encodek]

/-- A codec for any type with countably many values. -/
noncomputable def recordCodec (α : Type) [Countable α] : Codec α :=
  let _ := Encodable.ofCountable α
  { toAllocvec := fun a => .ok (unary a)
    fromBytes := fun b => match ofUnary α b with
      | none => .error "not a record"
      | some a => .ok a }

lemma recordCodec_correct (α : Type) [Countable α] : (recordCodec α).Correct := by
  intro a
  let _ := Encodable.ofCountable α
  refine ⟨unary a, rfl, ?_⟩
  simp only [recordCodec, ofUnary_unary]

/-! ## Curve25519 -/

def x25519 : X25519 ℕ where
  publicKey b := Encodable.encode (toNats b)
  diffieHellman a p := Encodable.encode (toNats a) + p
  ofIdentity b := Encodable.encode (toNats b)

lemma x25519_commutes : x25519.Commutes := fun _ _ => Nat.add_comm _ _

lemma publicKey_injective : Function.Injective x25519.publicKey :=
  Encodable.encode_injective.comp toNats_injective

/-! ## Ed25519 -/

/-- A signature is the start of the key and the data. -/
def ed25519 : Ed25519 where
  verifyingKey seed := seed
  sign seed data := fit 64 (seed ++ data)
  isPoint _ := true
  verify key data signature := decide (signature = fit 64 (key ++ data))
  sign_length _ _ := length_fit _ _

lemma ed25519_correct : ed25519.Correct where
  isPoint_verifyingKey _ := rfl
  verify_sign _ _ := decide_eq_true rfl

/-! ## AEAD -/

def xchacha : XChaCha ℕ where
  encrypt key nonce msg ad :=
    some (List.replicate tagSize 0 ++ unary (key, toNats nonce, toNats ad, toNats msg))
  decrypt key nonce ct ad :=
    match ofUnary (ℕ × List ℕ × List ℕ × List ℕ) (ct.drop tagSize) with
    | none => none
    | some (key', nonce', ad', msg) =>
        if key' = key ∧ nonce' = toNats nonce ∧ ad' = toNats ad then some (fromNats msg) else none

lemma drop_tag (b : Bytes) : (List.replicate tagSize 0 ++ b).drop tagSize = b :=
  List.drop_left' List.length_replicate

lemma xchacha_correct : xchacha.Correct where
  decrypt_encrypt key nonce msg ad ct h := by
    obtain rfl := Option.some.inj h
    simp only [xchacha, drop_tag, ofUnary_unary, and_self, if_true, fromNats_toNats]
  tagSize_le key nonce msg ad ct h := by
    obtain rfl := Option.some.inj h
    rw [List.length_append, List.length_replicate]
    exact Nat.le_add_right _ _

/-- A ciphertext opens under the key it was made with, and no other. -/
lemma eq_key_of_decrypt {key key' : ℕ} {nonce nonce' msg msg' ad ad' ct : Bytes}
    (henc : xchacha.encrypt key nonce msg ad = some ct)
    (hdec : xchacha.decrypt key' nonce' ct ad' = some msg') : key = key' := by
  obtain rfl := Option.some.inj henc
  simp only [xchacha, drop_tag, ofUnary_unary] at hdec
  split at hdec
  · rename_i h
    exact h.1
  · cases hdec

/-- The ideal AEAD opens a ciphertext as it was sealed and not otherwise. -/
lemma eq_of_aead_decrypt {H : Hash ℕ} {rng : Rng} {key key' : ℕ}
    {plaintext plaintext' ad ad' ciphertext : Bytes}
    (henc : Aead.encrypt H xchacha rng key plaintext ad = .ok ciphertext)
    (hdec : Aead.decrypt H xchacha key' ciphertext ad' = .ok plaintext') :
    Aead.deriveEncKey H key = Aead.deriveEncKey H key' ∧ plaintext = plaintext' ∧ ad = ad' := by
  have hsealed : xchacha.encrypt (Aead.deriveEncKey H key) (rng.fill nonceSize) plaintext ad =
      some (List.replicate tagSize 0 ++ unary (Aead.deriveEncKey H key,
        toNats (rng.fill nonceSize), toNats ad, toNats plaintext)) := rfl
  rw [Aead.encrypt, hsealed] at henc
  obtain rfl := Except.ok.inj henc
  rw [Aead.decrypt] at hdec
  split at hdec
  · cases hdec
  · rw [List.take_left' (rng.fill_length _), List.drop_left' (rng.fill_length _)] at hdec
    simp only [xchacha, drop_tag, ofUnary_unary] at hdec
    split at hdec
    · cases hdec
    · rename_i opened hopened
      split at hopened
      · rename_i hsame
        obtain rfl := Option.some.inj hopened
        refine ⟨hsame.1, ?_, toNats_injective hsame.2.2⟩
        rw [fromNats_toNats] at hdec
        exact Except.ok.inj hdec
      · cases hopened

/-! ## Headers -/

def mtypeCode : MsgType → ℕ
  | .idle => 0
  | .hdr => 1
  | .ek => 2
  | .ekCt1Ack => 3
  | .ct1 => 4
  | .ct2 => 5

def mtypeOfCode : ℕ → MsgType
  | 0 => .idle
  | 1 => .hdr
  | 2 => .ek
  | 3 => .ekCt1Ack
  | 4 => .ct1
  | _ => .ct2

lemma mtypeOfCode_mtypeCode (t : MsgType) : mtypeOfCode (mtypeCode t) = t := by cases t <;> rfl

/-- A header as a tuple of numbers. -/
abbrev HeaderCode := (ℕ × ℕ × ℕ) × (ℕ × ℕ × Option (ℕ × List ℕ)) × ℕ

def headerCode (header : MessageHeader ℕ) : HeaderCode :=
  ((header.dhPublicKey, header.previousChainLength, header.messageNumber),
    (header.braidMsg.epoch, mtypeCode header.braidMsg.mtype,
      header.braidMsg.chunk.map (fun c => (c.index, toNats c.data))),
    header.pqMessageNumber)

def headerOfCode (code : HeaderCode) : MessageHeader ℕ where
  dhPublicKey := code.1.1
  previousChainLength := code.1.2.1
  messageNumber := code.1.2.2
  braidMsg := ⟨code.2.1.1, mtypeOfCode code.2.1.2.1,
    code.2.1.2.2.map (fun c => ⟨c.1, fromNats c.2⟩)⟩
  pqMessageNumber := code.2.2

lemma headerOfCode_headerCode (header : MessageHeader ℕ) :
    headerOfCode (headerCode header) = header := by
  obtain ⟨dh, pn, n, ⟨epoch, mtype, chunk⟩, pqN⟩ := header
  cases chunk with
  | none => simp [headerOfCode, headerCode, mtypeOfCode_mtypeCode]
  | some c => simp [headerOfCode, headerCode, mtypeOfCode_mtypeCode, fromNats_toNats]

def postcard : Postcard ℕ where
  toAllocvec header := unary (headerCode header)
  fromBytes b := match ofUnary HeaderCode b with
    | none => .error "not a header"
    | some code => .ok (headerOfCode code)

lemma postcard_correct : postcard.Correct := by
  intro header
  simp only [postcard, ofUnary_unary, headerOfCode_headerCode]

end Ideal

/-- All of them together. -/
noncomputable def idealSuite : Suite ℕ where
  toPrims := idealPrims
  x25519 := Ideal.x25519
  xchacha := Ideal.xchacha
  postcard := Ideal.postcard

/-- A random number generator that draws one byte over and over. -/
def constRng (b : UInt8) : Rng where
  fill n := List.replicate n b
  fill_length _ := List.length_replicate

/-- Bob's prekey secret. -/
def idealSecret : Bytes := (constRng 0).fill 32

/-- Alice's session right after the handshake. -/
noncomputable def idealAlice : RatchetSession ℕ :=
  .initializeAlice idealSuite (constRng 1) 0 (idealSuite.x25519.publicKey idealSecret)

/-- Bob's session right after the handshake. -/
noncomputable def idealBob : RatchetSession ℕ :=
  .initializeBob idealSuite 0 (idealSecret, idealSuite.x25519.publicKey idealSecret)

/-- A message with a header and no ciphertext. -/
def headerOnly (header : MessageHeader ℕ) : RatchetMessage := ⟨header.serialize Ideal.postcard, []⟩

lemma deserialize_headerOnly (header : MessageHeader ℕ) :
    MessageHeader.deserialize idealSuite.postcard (headerOnly header).header = .ok header :=
  MessageHeader.deserialize_serialize Ideal.postcard_correct header

end Hushwire
