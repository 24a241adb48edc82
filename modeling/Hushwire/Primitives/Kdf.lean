import Hushwire.Basic

/-!
# Key derivation

`src/primitives/kdf.rs`, over an abstract HKDF/HMAC.  Root, chain, message and MAC keys all
have one abstract type `Key`: a 32-byte block whose contents no modelled function inspects.
`Hash` is what the `hkdf`, `hmac` and `sha2` crates supply.  The info strings and the way
each function cuts the output into 32-byte blocks are the source's own.
-/

namespace Hushwire

/-- HKDF-SHA256 and HMAC-SHA256 on 32-byte keys. -/
structure Hash (Key : Type) where
  /-- The 32 bytes of a key. -/
  asBytes : Key → Bytes
  /-- `[0u8; 32]`. -/
  zero : Key
  /-- `hkdf ikm salt info len i` is the `i`-th 32-byte block of the `len` bytes that
  `hkdf_sha256(ikm, salt, info, len)` returns.  The input keying material is a key, or
  bytes put together from something else. -/
  hkdf : (ikm : Key ⊕ Bytes) → (salt : Option Key) → (info : Bytes) → (len : ℕ) → ℕ → Key
  /-- HMAC-SHA256. -/
  hmac : Key → Bytes → Key
  asBytes_length : ∀ k, (asBytes k).length = 32

variable {Key : Type}

/-- Output of `KDF_RK`: the next root key and a chain key. -/
structure RootKeyOutput (Key : Type) where
  rootKey : Key
  chainKey : Key

/-- Output of `KDF_CK` and `KDF_SCKA_CK`: the next chain key and a message key. -/
structure ChainKeyOutput (Key : Type) where
  chainKey : Key
  messageKey : Key

/-- Output of `KDF_SCKA_INIT` and `KDF_SCKA_RK`: a root key and the two chain keys, in the
order of the initiator's point of view. -/
structure SckaChains (Key : Type) where
  rootKey : Key
  chainKey0 : Key
  chainKey1 : Key

namespace Hash

variable (H : Hash Key)

/-- `KDF_RK(rk, dh_out)`. -/
def kdfRk (rootKey dhOutput : Key) : RootKeyOutput Key where
  rootKey := H.hkdf (.inl dhOutput) (some rootKey) (ascii "HushwireRatchet") 64 0
  chainKey := H.hkdf (.inl dhOutput) (some rootKey) (ascii "HushwireRatchet") 64 1

/-- `KDF_CK(ck)`. -/
def kdfCk (chainKey : Key) : ChainKeyOutput Key where
  chainKey := H.hmac chainKey [0x02]
  messageKey := H.hmac chainKey [0x01]

/-- `SPQR_PROTOCOL_INFO`. -/
def spqrProtocolInfo : Bytes := ascii "HushwireSPQR"

/-- `TR_PROTOCOL_INFO`. -/
def trProtocolInfo : Bytes := ascii "HushwireTripleRatchet"

/-- `KDF_SCKA_INIT(sk)`. -/
def kdfSckaInit (sk : Key) : SckaChains Key where
  rootKey := H.hkdf (.inl sk) (some H.zero) (spqrProtocolInfo ++ ascii "Chain Start") 96 0
  chainKey0 := H.hkdf (.inl sk) (some H.zero) (spqrProtocolInfo ++ ascii "Chain Start") 96 1
  chainKey1 := H.hkdf (.inl sk) (some H.zero) (spqrProtocolInfo ++ ascii "Chain Start") 96 2

/-- `KDF_SCKA_RK(rk, scka_output)`. -/
def kdfSckaRk (rk sckaOutput : Key) : SckaChains Key where
  rootKey := H.hkdf (.inl sckaOutput) (some rk) (spqrProtocolInfo ++ ascii "Chain Add Epoch") 96 0
  chainKey0 := H.hkdf (.inl sckaOutput) (some rk) (spqrProtocolInfo ++ ascii "Chain Add Epoch") 96 1
  chainKey1 := H.hkdf (.inl sckaOutput) (some rk) (spqrProtocolInfo ++ ascii "Chain Add Epoch") 96 2

/-- `KDF_SCKA_CK(ck, ctr)`: the counter is the keying material, the chain key the salt. -/
def kdfSckaCk (ck : Key) (ctr : ℕ) : ChainKeyOutput Key where
  chainKey := H.hkdf (.inr (beBytes 4 ctr)) (some ck) (spqrProtocolInfo ++ ascii ":Chain Step") 64 0
  messageKey :=
    H.hkdf (.inr (beBytes 4 ctr)) (some ck) (spqrProtocolInfo ++ ascii ":Chain Step") 64 1

/-- `KDF_HYBRID(ec_mk, pq_mk)`. -/
def kdfHybrid (ecMk pqMk : Key) : Key :=
  H.hkdf (.inl ecMk) (some pqMk) trProtocolInfo 32 0

end Hash

end Hushwire
