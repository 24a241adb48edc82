import Hushwire.Primitives.Kdf

/-!
# The authenticator ratchet

`src/protocol/braid/auth.rs`: `KDF_OK`, which turns a raw KEM secret into the epoch's
session key, and the `Authenticator`, a `(root_key, mac_key)` pair that is ratcheted forward
with every epoch and MACs the header and the ciphertext.
-/

namespace Hushwire

variable {Key : Type}

namespace Auth

/-- `PROTOCOL_INFO`. -/
def protocolInfo : Bytes := ascii "HushwireBraid_MLKEM768_SHA-256"

/-- `epoch_bytes`. -/
def epochBytes (epoch : ℕ) : Bytes := beBytes 8 epoch

/-- `kdf_ok`. -/
def kdfOk (H : Hash Key) (sharedSecret : Key) (epoch : ℕ) : Key :=
  H.hkdf (.inl sharedSecret) (some H.zero)
    (protocolInfo ++ ascii ":SCKA Key" ++ epochBytes epoch) 32 0

/-- `kdf_auth`: the next root key and the MAC key. -/
def kdfAuth (H : Hash Key) (rootKey updateKey : Key) (epoch : ℕ) : Key × Key :=
  (H.hkdf (.inl updateKey) (some rootKey)
      (protocolInfo ++ ascii ":Authenticator Update" ++ epochBytes epoch) 64 0,
    H.hkdf (.inl updateKey) (some rootKey)
      (protocolInfo ++ ascii ":Authenticator Update" ++ epochBytes epoch) 64 1)

/-- `KDF_AUTH` is injective: in one epoch, inputs with the same MAC key are the same. -/
def KdfAuthInjective (H : Hash Key) : Prop :=
  ∀ epoch, Function.Injective2 fun rootKey updateKey => (kdfAuth H rootKey updateKey epoch).2

/-- `verify`: constant-time comparison with a tag of the right length. -/
def verify (computed expected : Bytes) : Result Unit :=
  if expected.length ≠ 32 then .error (.braidKem "MAC has wrong length")
  else if computed = expected then .ok ()
  else .error .invalidSignature

end Auth

/-- The braid authenticator. -/
structure Authenticator (Key : Type) where
  rootKey : Key
  macKey : Key
  deriving DecidableEq

namespace Authenticator

open Auth

variable (H : Hash Key)

/-- `Authenticator::update`. -/
def update (auth : Authenticator Key) (epoch : ℕ) (key : Key) : Authenticator Key where
  rootKey := (kdfAuth H auth.rootKey key epoch).1
  macKey := (kdfAuth H auth.rootKey key epoch).2

/-- `Authenticator::init`. -/
def init (epoch : ℕ) (key : Key) : Authenticator Key :=
  update H ⟨H.zero, H.zero⟩ epoch key

/-- `Authenticator::mac`. -/
def mac (auth : Authenticator Key) (label : Bytes) (epoch : ℕ) (data : Bytes) : Bytes :=
  H.asBytes (H.hmac auth.macKey (protocolInfo ++ label ++ epochBytes epoch ++ data))

/-- The label of a header MAC. -/
def hdrLabel : Bytes := ascii ":ekheader"

/-- The label of a ciphertext MAC. -/
def ctLabel : Bytes := ascii ":ciphertext"

/-- `Authenticator::mac_hdr`. -/
def macHdr (auth : Authenticator Key) (epoch : ℕ) (hdr : Bytes) : Bytes :=
  auth.mac H hdrLabel epoch hdr

/-- `Authenticator::mac_ct`. -/
def macCt (auth : Authenticator Key) (epoch : ℕ) (ct : Bytes) : Bytes :=
  auth.mac H ctLabel epoch ct

/-- `Authenticator::vfy_hdr`. -/
def vfyHdr (auth : Authenticator Key) (epoch : ℕ) (hdr expected : Bytes) : Result Unit :=
  verify (auth.macHdr H epoch hdr) expected

/-- `Authenticator::vfy_ct`. -/
def vfyCt (auth : Authenticator Key) (epoch : ℕ) (ct expected : Bytes) : Result Unit :=
  verify (auth.macCt H epoch ct) expected

variable {H}

@[simp] lemma length_macHdr (auth : Authenticator Key) (epoch : ℕ) (hdr : Bytes) :
    (auth.macHdr H epoch hdr).length = 32 := H.asBytes_length _

@[simp] lemma length_macCt (auth : Authenticator Key) (epoch : ℕ) (ct : Bytes) :
    (auth.macCt H epoch ct).length = 32 := H.asBytes_length _

/-- The peer's own header tag verifies. -/
@[simp] lemma vfyHdr_macHdr (auth : Authenticator Key) (epoch : ℕ) (hdr : Bytes) :
    auth.vfyHdr H epoch hdr (auth.macHdr H epoch hdr) = .ok () := by
  simp [vfyHdr, verify]

/-- The peer's own ciphertext tag verifies. -/
@[simp] lemma vfyCt_macCt (auth : Authenticator Key) (epoch : ℕ) (ct : Bytes) :
    auth.vfyCt H epoch ct (auth.macCt H epoch ct) = .ok () := by
  simp [vfyCt, verify]

end Authenticator

end Hushwire
