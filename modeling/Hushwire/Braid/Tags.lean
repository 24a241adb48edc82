import Hushwire.Braid.Exchange

/-!
# Tags computed and tags accepted

To state that MACs are unforgeable one has to say which tags the two parties computed and
which ones they accepted.  Neither is visible in a `State`, so both are read off the handlers
here: `State.tagsOnSend` and `State.tagsOnReceive` list the tags a call computes for the peer,
`State.acceptedTag` is the tag whose verification a receive passes.
-/

namespace Hushwire

variable {Key : Type}

/-- One use of the MAC: `HMAC(key, PROTOCOL_INFO || label || epoch || data)`. -/
structure MacQuery (Key : Type) where
  key : Key
  label : Bytes
  epoch : ℕ
  data : Bytes
  deriving DecidableEq

namespace MacQuery

def header (auth : Authenticator Key) (epoch : ℕ) (hdr : Bytes) : MacQuery Key :=
  ⟨auth.macKey, Authenticator.hdrLabel, epoch, hdr⟩

def ciphertext (auth : Authenticator Key) (epoch : ℕ) (ct : Bytes) : MacQuery Key :=
  ⟨auth.macKey, Authenticator.ctLabel, epoch, ct⟩

lemma hdrLabel_ne_ctLabel : Authenticator.hdrLabel ≠ Authenticator.ctLabel := by decide

lemma header_ne_ciphertext (a b : Authenticator Key) (e f : ℕ) (h c : Bytes) :
    header a e h ≠ ciphertext b f c := by
  intro heq
  exact hdrLabel_ne_ctLabel (congrArg MacQuery.label heq)

end MacQuery

namespace State

variable (P : Prims Key)

/-- The header tag computed when keys are sampled. -/
def tagsOnSend (rng : Rng) : State Key → List (MacQuery Key)
  | keysUnsampled epoch auth =>
      match Kem.publicKeyParts P.kem (Kem.generateKeypair P.kem (rng.fill seedLen)) with
      | .ok (header, _) => [.header auth epoch header]
      | .error _ => []
  | _ => []

/-- The tag `buildCt2Encoder` computes. -/
def ct2Tags (auth : Authenticator Key) (epoch : ℕ) (encapsSecret ekVector ct1 : Bytes) :
    List (MacQuery Key) :=
  match Kem.encapsulate2 P.kem encapsSecret ekVector with
  | .ok ct2 => [.ciphertext auth epoch (ct1 ++ ct2)]
  | .error _ => []

/-- The `ek_vector` a message completes, if it also passes validation against the header. -/
def completedEk (msg : Message) (header : Bytes) (ekDec : Decoder) : Option Bytes :=
  match addChunk ekDec msg >>= Decoder.message P.rs with
  | .ok (some ekVector) =>
      match Kem.validatePublicKey P.kem header ekVector with
      | .ok _ => some ekVector
      | .error _ => none
  | _ => none

/-- The ciphertext tag computed when `ct2` is built. -/
def tagsOnReceive (msg : Message) : State Key → List (MacQuery Key)
  | ct1Sampled epoch auth header encapsSecret ct1 _ ekDec =>
      if msg.epoch = epoch ∧ msg.mtype = .ekCt1Ack then
        match completedEk P msg header ekDec with
        | some ekVector => ct2Tags P auth epoch encapsSecret ekVector ct1
        | none => []
      else []
  | ekReceivedCt1Sampled epoch auth encapsSecret ct1 ekVector _ =>
      if msg.epoch = epoch ∧ msg.mtype = .ekCt1Ack then
        ct2Tags P auth epoch encapsSecret ekVector ct1
      else []
  | ct1Acknowledged epoch auth encapsSecret header ct1 ekDec =>
      if msg.epoch = epoch ∧ msg.mtype = .ekCt1Ack then
        match completedEk P msg header ekDec with
        | some ekVector => ct2Tags P auth epoch encapsSecret ekVector ct1
        | none => []
      else []
  | _ => []

/-- The tag a receive verifies successfully: that of a header, or that of a ciphertext under
the candidate authenticator. -/
def acceptedTag (msg : Message) : State Key → Option (MacQuery Key)
  | noHeaderReceived epoch auth hdrDec =>
      if msg.epoch = epoch ∧ msg.mtype = .hdr then
        match addChunk hdrDec msg >>= Decoder.message P.rs with
        | .ok (some headerWithMac) =>
            match auth.vfyHdr P.hash epoch (headerWithMac.take pk1Len)
                (headerWithMac.drop pk1Len) with
            | .ok _ => some (.header auth epoch (headerWithMac.take pk1Len))
            | .error _ => none
        | _ => none
      else none
  | ekSentCt1Received epoch auth dk ct1 ct2Dec =>
      if msg.epoch = epoch ∧ msg.mtype = .ct2 then
        match addChunk ct2Dec msg >>= Decoder.message P.rs with
        | .ok (some ct2WithMac) =>
            match Kem.decapsulate P.kem dk ct1 (ct2WithMac.take ct2Len) with
            | .ok rawSs =>
                let nextAuth := auth.update P.hash epoch (Auth.kdfOk P.hash rawSs epoch)
                match nextAuth.vfyCt P.hash epoch (ct1 ++ ct2WithMac.take ct2Len)
                    (ct2WithMac.drop ct2Len) with
                | .ok _ => some (.ciphertext nextAuth epoch (ct1 ++ ct2WithMac.take ct2Len))
                | .error _ => none
            | .error _ => none
        | _ => none
      else none
  | _ => none

variable {P} {msg : Message} {epoch : ℕ} {auth : Authenticator Key}

lemma acceptedTag_hdr {hdrDec hdrDec' : Decoder} {obj : Bytes} (hepoch : msg.epoch = epoch)
    (htype : msg.mtype = .hdr) (hadd : addChunk hdrDec msg = .ok hdrDec')
    (hmsg : hdrDec'.message P.rs = .ok (some obj))
    (hvfy : auth.vfyHdr P.hash epoch (obj.take pk1Len) (obj.drop pk1Len) = .ok ()) :
    (noHeaderReceived epoch auth hdrDec).acceptedTag P msg =
      some (.header auth epoch (obj.take pk1Len)) := by
  simp [acceptedTag, hepoch, htype, hadd, hmsg, hvfy, bind, Except.bind]

lemma acceptedTag_ct2 {dk ct1 : Bytes} {ct2Dec ct2Dec' : Decoder} {obj : Bytes} {rawSs : Key}
    (hepoch : msg.epoch = epoch) (htype : msg.mtype = .ct2)
    (hadd : addChunk ct2Dec msg = .ok ct2Dec') (hmsg : ct2Dec'.message P.rs = .ok (some obj))
    (hkem : Kem.decapsulate P.kem dk ct1 (obj.take ct2Len) = .ok rawSs)
    (hvfy : (auth.update P.hash epoch (Auth.kdfOk P.hash rawSs epoch)).vfyCt P.hash epoch
      (ct1 ++ obj.take ct2Len) (obj.drop ct2Len) = .ok ()) :
    (ekSentCt1Received epoch auth dk ct1 ct2Dec).acceptedTag P msg =
      some (.ciphertext (auth.update P.hash epoch (Auth.kdfOk P.hash rawSs epoch)) epoch
        (ct1 ++ obj.take ct2Len)) := by
  simp [acceptedTag, hepoch, htype, hadd, hmsg, hkem, hvfy, bind, Except.bind]

end State

namespace Exchange

variable (P : Prims Key) (x : Exchange Key)

/-- The header tag of the exchange. -/
def headerTag : MacQuery Key := .header x.auth x.epoch (x.header P)

/-- The ciphertext tag of the exchange. -/
def ct2Tag : MacQuery Key := .ciphertext (x.nextAuth P) x.epoch (x.ct1 P ++ x.ct2 P)

end Exchange

end Hushwire
