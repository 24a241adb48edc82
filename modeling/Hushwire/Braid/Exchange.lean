import Hushwire.Braid.StateMachine

/-!
# One epoch's exchange

An `Exchange` is everything two honest parties ever compute in one epoch: the epoch number,
the authenticator both hold when it begins, the owner's key-generation seed and the
encapsulator's randomness.  Header, ciphertext parts, tags and the epoch secret are functions
of it, named as the state machine names them.

The lemmas say that with a correct KEM every step of the exchange succeeds and gives exactly
these values (`kem_…`), and that the four streamed objects are `Streamable`.
-/

namespace Hushwire

variable {Key : Type}

/-- The libraries behave as documented. -/
structure Prims.Correct (P : Prims Key) : Prop where
  kem : P.kem.Correct
  rs : P.rs.Correct

lemma Prims.Correct.restores {P : Prims Key} (hP : P.Correct) : P.rs.Restores :=
  hP.rs.toRestores

/-- What the codec and the KEM do with inputs of the right shape that are not genuine. -/
structure Prims.Robust (P : Prims Key) : Prop where
  /-- `reed_solomon_simd::decode` rejects shards for their number, index or size only. -/
  decode_total : ∀ k r (original recovered : ℕ → Option Bytes), 0 < k → k ≤ 32768 → 0 < r →
    r ≤ 32768 → (∀ i s, original i = some s → i < k ∧ s.length = chunkBytes) →
    (∀ j s, recovered j = some s → j < r ∧ s.length = chunkBytes) →
    k ≤ ((Finset.range k).filter (fun i => (original i).isSome)).card +
      ((Finset.range r).filter (fun j => (recovered j).isSome)).card →
    ∃ restored, P.rs.decode k r original recovered = .ok restored ∧
      ∀ i, i < k → original i = none → ∃ s, restored i = some s ∧ s.length = chunkBytes
  /-- Implicit rejection: a wrong ciphertext gives a wrong secret, not an error. -/
  decapsulate_total : ∀ kp ct1 ct2 : Bytes, kp.length = P.kem.keyPairLen → ct1.length = ct1Len →
    ct2.length = ct2Len → ∃ ss, P.kem.decapsulateIncrementalKey kp ct1 ct2 = .ok ss

/-- The inputs of one epoch of an honest run. -/
structure Exchange (Key : Type) where
  epoch : ℕ
  auth : Authenticator Key
  seed : Bytes
  rand : Bytes
  seed_length : seed.length = seedLen
  rand_length : rand.length = encapsRandomnessLen

namespace Exchange

/-- The epoch before either party has drawn randomness: the draws are placeholders. -/
def fresh (epoch : ℕ) (auth : Authenticator Key) : Exchange Key where
  epoch := epoch
  auth := auth
  seed := List.replicate seedLen 0
  rand := List.replicate encapsRandomnessLen 0
  seed_length := List.length_replicate
  rand_length := List.length_replicate

/-- The owner draws its seed. -/
def withSeed (x : Exchange Key) (rng : Rng) : Exchange Key :=
  { x with seed := rng.fill seedLen, seed_length := rng.fill_length _ }

/-- The encapsulator draws its randomness. -/
def withRand (x : Exchange Key) (rng : Rng) : Exchange Key :=
  { x with rand := rng.fill encapsRandomnessLen, rand_length := rng.fill_length _ }

variable (P : Prims Key) (x : Exchange Key)

/-- The owner's keypair. -/
def dk : Bytes := Kem.generateKeypair P.kem x.seed

/-- `pk1`. -/
def header : Bytes := P.kem.pk1 (x.dk P)

/-- `pk2`. -/
def ekVector : Bytes := P.kem.pk2 (x.dk P)

/-- The first streamed object, `header || mac`. -/
def headerWithMac : Bytes := x.header P ++ x.auth.macHdr P.hash x.epoch (x.header P)

/-- `ct1`, the carried state and the raw secret. -/
def encapsulation : Bytes × Bytes × Key :=
  match P.kem.encapsulate1 (x.header P) x.rand with
  | .ok out => out
  | .error _ => ([], [], P.hash.zero)

/-- The early ciphertext. -/
def ct1 : Bytes := (x.encapsulation P).1

/-- The carried encapsulation state. -/
def encapsSecret : Bytes := (x.encapsulation P).2.1

/-- The KEM's shared secret. -/
def rawSs : Key := (x.encapsulation P).2.2

/-- The epoch's session key. -/
def ss : Key := Auth.kdfOk P.hash (x.rawSs P) x.epoch

/-- The epoch secret both parties emit. -/
def secret : EpochSecret Key := ⟨x.epoch, x.ss P⟩

/-- The authenticator ratcheted with the epoch's secret. -/
def nextAuth : Authenticator Key := x.auth.update P.hash x.epoch (x.ss P)

/-- The late ciphertext. -/
def ct2 : Bytes := P.kem.encapsulate2 (x.encapsSecret P) (x.ekVector P)

/-- The last streamed object, `ct2 || mac`. -/
def ct2WithMac : Bytes :=
  x.ct2 P ++ (x.nextAuth P).macCt P.hash x.epoch (x.ct1 P ++ x.ct2 P)

/-! ## Each step succeeds with these values -/

variable {P x}

lemma kem_publicKeyParts : Kem.publicKeyParts P.kem (x.dk P) = .ok (x.header P, x.ekVector P) := by
  have hlen : (x.dk P).length = P.kem.keyPairLen := P.kem.keyPairFromSeed_length x.seed
  simp [Kem.publicKeyParts, hlen, header, ekVector]

lemma libcrux_encapsulate1 (hP : P.Correct) :
    P.kem.encapsulate1 (x.header P) x.rand = .ok (x.ct1 P, x.encapsSecret P, x.rawSs P) := by
  obtain ⟨out, hout⟩ := hP.kem.encapsulate1_ok x.seed x.rand x.seed_length x.rand_length
  have henc : P.kem.encapsulate1 (x.header P) x.rand = .ok out := hout
  simp [ct1, encapsSecret, rawSs, encapsulation, henc]

lemma kem_encapsulate1 (hP : P.Correct) :
    Kem.encapsulate1 P.kem (x.header P) x.rand =
      .ok (x.ct1 P, x.encapsSecret P, x.rawSs P) := by
  rw [Kem.encapsulate1, libcrux_encapsulate1 hP]
  rfl

lemma kem_validatePublicKey (hP : P.Correct) :
    Kem.validatePublicKey P.kem (x.header P) (x.ekVector P) = .ok () := by
  have h := hP.kem.validate_ok x.seed x.seed_length
  have h' : P.kem.validatePkBytes (x.header P) (x.ekVector P) = .ok () := h
  rw [Kem.validatePublicKey, h']
  rfl

lemma length_ct1 (hP : P.Correct) : (x.ct1 P).length = ct1Len :=
  (P.kem.encapsulate1_length _ _ _ _ _ (libcrux_encapsulate1 (x := x) hP)).1

lemma length_encapsSecret (hP : P.Correct) :
    (x.encapsSecret P).length = P.kem.encapsStateLen :=
  (P.kem.encapsulate1_length _ _ _ _ _ (libcrux_encapsulate1 (x := x) hP)).2

lemma length_header : (x.header P).length = pk1Len := P.kem.pk1_length _

lemma length_ekVector : (x.ekVector P).length = pk2Len := P.kem.pk2_length _

lemma length_ct2 : (x.ct2 P).length = ct2Len := P.kem.encapsulate2_length _ _

lemma length_headerWithMac : (x.headerWithMac P).length = pk1Len + macSize := by
  simp [headerWithMac, length_header, macSize]

lemma length_ct2WithMac : (x.ct2WithMac P).length = ct2Len + macSize := by
  simp [ct2WithMac, length_ct2, macSize]

lemma kem_encapsulate2 (hP : P.Correct) :
    Kem.encapsulate2 P.kem (x.encapsSecret P) (x.ekVector P) = .ok (x.ct2 P) := by
  simp [Kem.encapsulate2, length_encapsSecret hP, length_ekVector, ct2]

lemma kem_decapsulate (hP : P.Correct) :
    Kem.decapsulate P.kem (x.dk P) (x.ct1 P) (x.ct2 P) = .ok (x.rawSs P) := by
  have h := hP.kem.decapsulate_ok x.seed x.rand _ _ _ x.seed_length x.rand_length
    (libcrux_encapsulate1 hP)
  have h' : P.kem.decapsulateIncrementalKey (x.dk P) (x.ct1 P) (x.ct2 P) = .ok (x.rawSs P) := h
  simp only [Kem.decapsulate, length_ct1 hP, length_ct2, ne_eq, not_true_eq_false, if_false, h']
  rfl

lemma buildCt2Encoder_eq (hP : P.Correct) :
    State.buildCt2Encoder P (x.nextAuth P) x.epoch (x.encapsSecret P) (x.ekVector P) (x.ct1 P) =
      Encoder.new P.rs (x.ct2WithMac P) := by
  simp [State.buildCt2Encoder, kem_encapsulate2 hP, ct2WithMac, bind, Except.bind]

lemma take_headerWithMac : (x.headerWithMac P).take pk1Len = x.header P := by
  rw [headerWithMac, List.take_left' length_header]

lemma drop_headerWithMac :
    (x.headerWithMac P).drop pk1Len = x.auth.macHdr P.hash x.epoch (x.header P) := by
  rw [headerWithMac, List.drop_left' length_header]

lemma take_ct2WithMac : (x.ct2WithMac P).take ct2Len = x.ct2 P := by
  rw [ct2WithMac, List.take_left' length_ct2]

lemma drop_ct2WithMac : (x.ct2WithMac P).drop ct2Len =
    (x.nextAuth P).macCt P.hash x.epoch (x.ct1 P ++ x.ct2 P) := by
  rw [ct2WithMac, List.drop_left' length_ct2]

/-- The header that the owner sends is accepted by the encapsulator. -/
lemma vfyHdr_headerWithMac :
    x.auth.vfyHdr P.hash x.epoch ((x.headerWithMac P).take pk1Len)
      ((x.headerWithMac P).drop pk1Len) = .ok () := by
  rw [take_headerWithMac, drop_headerWithMac, Authenticator.vfyHdr_macHdr]

/-- The ciphertext that the encapsulator sends is accepted by the owner, with the secret it
finds. -/
lemma vfyCt_ct2WithMac (hP : P.Correct) {raw : Key}
    (hraw : Kem.decapsulate P.kem (x.dk P) (x.ct1 P) ((x.ct2WithMac P).take ct2Len) = .ok raw) :
    (x.auth.update P.hash x.epoch (Auth.kdfOk P.hash raw x.epoch)).vfyCt P.hash x.epoch
      (x.ct1 P ++ (x.ct2WithMac P).take ct2Len) ((x.ct2WithMac P).drop ct2Len) = .ok () := by
  rw [take_ct2WithMac, kem_decapsulate hP] at hraw
  obtain rfl := Except.ok.inj hraw
  rw [take_ct2WithMac, drop_ct2WithMac]
  exact Authenticator.vfyCt_macCt (x.nextAuth P) x.epoch (x.ct1 P ++ x.ct2 P)

/-! ## The four streamed objects fit the codec -/

lemma streamable_headerWithMac : Streamable (x.headerWithMac P) := by
  rw [Streamable, length_headerWithMac]
  decide

lemma streamable_ekVector : Streamable (x.ekVector P) := by
  rw [Streamable, length_ekVector]
  decide

lemma streamable_ct1 (hP : P.Correct) : Streamable (x.ct1 P) := by
  rw [Streamable, length_ct1 hP]
  decide

lemma streamable_ct2WithMac : Streamable (x.ct2WithMac P) := by
  rw [Streamable, length_ct2WithMac]
  decide

end Exchange

end Hushwire
