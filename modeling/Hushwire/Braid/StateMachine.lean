import Hushwire.Braid.Auth
import Hushwire.Braid.Erasure
import Hushwire.Braid.Kem

/-!
# The braid state machine

`src/protocol/braid/state_machine.rs`: the eleven-state machine that streams one KEM
exchange per epoch.  The keypair owner of an epoch walks `KeysUnsampled → KeysSampled →
HeaderSent → Ct1Received → EkSentCt1Received`, the encapsulator `NoHeaderReceived →
HeaderReceived → Ct1Sampled → (EkReceivedCt1Sampled | Ct1Acknowledged) → Ct2Sampled`, and
the roles swap when the epoch ends.

`State.send` and `State.receive` are the source's two functions, one handler per state;
`BraidState.send` and `BraidState.receive` run them through `transition`, which restores the
state it took when the handler fails.
-/

namespace Hushwire

variable {Key : Type}

/-- What the braid takes from outside: hash functions, the KEM and the erasure codec. -/
structure Prims (Key : Type) where
  hash : Hash Key
  kem : Libcrux Key
  rs : ReedSolomon

/-- The bytes one call draws from its random number generator. -/
structure Rng where
  fill : ℕ → Bytes
  fill_length : ∀ n, (fill n).length = n

/-- `MAC_SIZE`. -/
def macSize : ℕ := 32

/-- `INITIAL_EPOCH`. -/
def initialEpoch : ℕ := 1

/-- `proto_err`. -/
def protoErr (msg : String) : CryptoError := .braidKem msg

/-- The type of a braid wire message. -/
inductive MsgType
  | idle
  | hdr
  | ek
  | ekCt1Ack
  | ct1
  | ct2
  deriving DecidableEq, Repr

/-- One braid wire message (`braid::Message`). -/
structure Message where
  epoch : ℕ
  mtype : MsgType
  chunk : Option Chunk
  deriving DecidableEq, Repr

namespace Message

/-- `Message::idle`. -/
def idle (epoch : ℕ) : Message := ⟨epoch, .idle, none⟩

/-- `Message::carrying`. -/
def carrying (epoch : ℕ) (mtype : MsgType) (chunk : Chunk) : Message :=
  ⟨epoch, mtype, some chunk⟩

end Message

/-- A completed per-epoch secret. -/
structure EpochSecret (Key : Type) where
  epoch : ℕ
  secret : Key
  deriving DecidableEq

/-- The protocol states. -/
inductive State (Key : Type)
  | keysUnsampled (epoch : ℕ) (auth : Authenticator Key)
  | keysSampled (epoch : ℕ) (auth : Authenticator Key) (dk ekVector : Bytes)
      (headerEnc : Encoder)
  | headerSent (epoch : ℕ) (auth : Authenticator Key) (dk : Bytes) (ct1Dec : Decoder)
      (ekEnc : Encoder)
  | ct1Received (epoch : ℕ) (auth : Authenticator Key) (dk ct1 : Bytes) (ekEnc : Encoder)
  | ekSentCt1Received (epoch : ℕ) (auth : Authenticator Key) (dk ct1 : Bytes)
      (ct2Dec : Decoder)
  | noHeaderReceived (epoch : ℕ) (auth : Authenticator Key) (hdrDec : Decoder)
  | headerReceived (epoch : ℕ) (auth : Authenticator Key) (header : Bytes) (ekDec : Decoder)
  | ct1Sampled (epoch : ℕ) (auth : Authenticator Key) (header encapsSecret ct1 : Bytes)
      (ct1Enc : Encoder) (ekDec : Decoder)
  | ekReceivedCt1Sampled (epoch : ℕ) (auth : Authenticator Key)
      (encapsSecret ct1 ekVector : Bytes) (ct1Enc : Encoder)
  | ct1Acknowledged (epoch : ℕ) (auth : Authenticator Key) (encapsSecret header ct1 : Bytes)
      (ekDec : Decoder)
  | ct2Sampled (epoch : ℕ) (auth : Authenticator Key) (ct2Enc : Encoder)
  | poisoned
  deriving DecidableEq

namespace State

/-- `State::epoch`. -/
def epoch : State Key → ℕ
  | keysUnsampled epoch _ => epoch
  | keysSampled epoch _ _ _ _ => epoch
  | headerSent epoch _ _ _ _ => epoch
  | ct1Received epoch _ _ _ _ => epoch
  | ekSentCt1Received epoch _ _ _ _ => epoch
  | noHeaderReceived epoch _ _ => epoch
  | headerReceived epoch _ _ _ => epoch
  | ct1Sampled epoch _ _ _ _ _ _ => epoch
  | ekReceivedCt1Sampled epoch _ _ _ _ _ => epoch
  | ct1Acknowledged epoch _ _ _ _ _ => epoch
  | ct2Sampled epoch _ _ => epoch
  | poisoned => 0

variable (P : Prims Key)

/-- `build_ct2_encoder`: encapsulate `ct2` and build the `ct2 || mac` encoder, the shared tail
of three receiver transitions. -/
def buildCt2Encoder (auth : Authenticator Key) (epoch : ℕ)
    (encapsSecret ekVector ct1 : Bytes) : Result Encoder := do
  let ct2 ← Kem.encapsulate2 P.kem encapsSecret ekVector
  Encoder.new P.rs (ct2 ++ auth.macCt P.hash epoch (ct1 ++ ct2))

/-- `State::send`. -/
def send (rng : Rng) : State Key → Result (State Key × Message × Option (EpochSecret Key))
  | keysUnsampled epoch auth => do
      let dk := Kem.generateKeypair P.kem (rng.fill seedLen)
      let (header, ekVector) ← Kem.publicKeyParts P.kem dk
      let headerEnc ← Encoder.new P.rs (header ++ auth.macHdr P.hash epoch header)
      let (chunk, headerEnc) := headerEnc.nextChunk
      return (keysSampled epoch auth dk ekVector headerEnc, .carrying epoch .hdr chunk, none)
  | keysSampled epoch auth dk ekVector headerEnc =>
      let (chunk, headerEnc) := headerEnc.nextChunk
      .ok (keysSampled epoch auth dk ekVector headerEnc, .carrying epoch .hdr chunk, none)
  | headerSent epoch auth dk ct1Dec ekEnc =>
      let (chunk, ekEnc) := ekEnc.nextChunk
      .ok (headerSent epoch auth dk ct1Dec ekEnc, .carrying epoch .ek chunk, none)
  | ct1Received epoch auth dk ct1 ekEnc =>
      let (chunk, ekEnc) := ekEnc.nextChunk
      .ok (ct1Received epoch auth dk ct1 ekEnc, .carrying epoch .ekCt1Ack chunk, none)
  | ekSentCt1Received epoch auth dk ct1 ct2Dec =>
      .ok (ekSentCt1Received epoch auth dk ct1 ct2Dec, .idle epoch, none)
  | noHeaderReceived epoch auth hdrDec =>
      .ok (noHeaderReceived epoch auth hdrDec, .idle epoch, none)
  | headerReceived epoch auth header ekDec => do
      let (ct1, encapsSecret, rawSs) ← Kem.encapsulate1 P.kem header
        (rng.fill encapsRandomnessLen)
      let ss := Auth.kdfOk P.hash rawSs epoch
      let ct1Enc ← Encoder.new P.rs ct1
      let (chunk, ct1Enc) := ct1Enc.nextChunk
      return (ct1Sampled epoch (auth.update P.hash epoch ss) header encapsSecret ct1 ct1Enc ekDec,
        .carrying epoch .ct1 chunk, some ⟨epoch, ss⟩)
  | ct1Sampled epoch auth header encapsSecret ct1 ct1Enc ekDec =>
      let (chunk, ct1Enc) := ct1Enc.nextChunk
      .ok (ct1Sampled epoch auth header encapsSecret ct1 ct1Enc ekDec,
        .carrying epoch .ct1 chunk, none)
  | ekReceivedCt1Sampled epoch auth encapsSecret ct1 ekVector ct1Enc =>
      let (chunk, ct1Enc) := ct1Enc.nextChunk
      .ok (ekReceivedCt1Sampled epoch auth encapsSecret ct1 ekVector ct1Enc,
        .carrying epoch .ct1 chunk, none)
  | ct1Acknowledged epoch auth encapsSecret header ct1 ekDec =>
      .ok (ct1Acknowledged epoch auth encapsSecret header ct1 ekDec, .idle epoch, none)
  | ct2Sampled epoch auth ct2Enc =>
      let (chunk, ct2Enc) := ct2Enc.nextChunk
      .ok (ct2Sampled epoch auth ct2Enc, .carrying epoch .ct2 chunk, none)
  | poisoned => .error (protoErr "braid state poisoned")

/-- The new state and optional secret a receive handler returns. -/
abbrev Transition (Key : Type) := State Key × Option (EpochSecret Key)

/-- `add_chunk`. -/
def addChunk (dec : Decoder) (msg : Message) : Result Decoder :=
  match msg.chunk with
  | none => .error (protoErr "message missing codeword")
  | some chunk => dec.addChunk chunk

/-- `recv_keys_sampled`. -/
def recvKeysSampled (msg : Message) (epoch : ℕ) (auth : Authenticator Key)
    (dk ekVector : Bytes) (headerEnc : Encoder) : Result (Transition Key) :=
  if msg.epoch = epoch ∧ msg.mtype = .ct1 then do
    let ct1Dec ← addChunk (Decoder.new ct1Len) msg
    let ekEnc ← Encoder.new P.rs ekVector
    return (headerSent epoch auth dk ct1Dec ekEnc, none)
  else .ok (keysSampled epoch auth dk ekVector headerEnc, none)

/-- `recv_header_sent`. -/
def recvHeaderSent (msg : Message) (epoch : ℕ) (auth : Authenticator Key) (dk : Bytes)
    (ct1Dec : Decoder) (ekEnc : Encoder) : Result (Transition Key) :=
  if msg.epoch = epoch ∧ msg.mtype = .ct1 then do
    let ct1Dec ← addChunk ct1Dec msg
    match ← ct1Dec.message P.rs with
    | some ct1 => return (ct1Received epoch auth dk ct1 ekEnc, none)
    | none => return (headerSent epoch auth dk ct1Dec ekEnc, none)
  else .ok (headerSent epoch auth dk ct1Dec ekEnc, none)

/-- `recv_ct1_received`. -/
def recvCt1Received (msg : Message) (epoch : ℕ) (auth : Authenticator Key)
    (dk ct1 : Bytes) (ekEnc : Encoder) : Result (Transition Key) :=
  if msg.epoch = epoch ∧ msg.mtype = .ct2 then do
    let ct2Dec ← addChunk (Decoder.new (ct2Len + macSize)) msg
    return (ekSentCt1Received epoch auth dk ct1 ct2Dec, none)
  else .ok (ct1Received epoch auth dk ct1 ekEnc, none)

/-- `recv_ek_sent_ct1_received`: the ciphertext MAC is checked against a candidate update of
the authenticator, and only a tag that verifies commits it; otherwise the decoder starts
over. -/
def recvEkSentCt1Received (msg : Message) (epoch : ℕ) (auth : Authenticator Key)
    (dk ct1 : Bytes) (ct2Dec : Decoder) : Result (Transition Key) :=
  if msg.epoch = epoch ∧ msg.mtype = .ct2 then do
    let ct2Dec ← addChunk ct2Dec msg
    match ← ct2Dec.message P.rs with
    | some ct2WithMac =>
        let ct2 := ct2WithMac.take ct2Len
        let mac := ct2WithMac.drop ct2Len
        let rawSs ← Kem.decapsulate P.kem dk ct1 ct2
        let ss := Auth.kdfOk P.hash rawSs epoch
        let nextAuth := auth.update P.hash epoch ss
        match nextAuth.vfyCt P.hash epoch (ct1 ++ ct2) mac with
        | .ok _ =>
            return (noHeaderReceived (epoch + 1) nextAuth (Decoder.new (pk1Len + macSize)),
              some ⟨epoch, ss⟩)
        | .error _ => return (ekSentCt1Received epoch auth dk ct1 ct2Dec.reset, none)
    | none => return (ekSentCt1Received epoch auth dk ct1 ct2Dec, none)
  else .ok (ekSentCt1Received epoch auth dk ct1 ct2Dec, none)

/-- `recv_no_header_received`. -/
def recvNoHeaderReceived (msg : Message) (epoch : ℕ) (auth : Authenticator Key)
    (hdrDec : Decoder) : Result (Transition Key) :=
  if msg.epoch = epoch ∧ msg.mtype = .hdr then do
    let hdrDec ← addChunk hdrDec msg
    match ← hdrDec.message P.rs with
    | some headerWithMac =>
        let header := headerWithMac.take pk1Len
        let mac := headerWithMac.drop pk1Len
        match auth.vfyHdr P.hash epoch header mac with
        | .ok _ => return (headerReceived epoch auth header (Decoder.new pk2Len), none)
        | .error _ => return (noHeaderReceived epoch auth hdrDec.reset, none)
    | none => return (noHeaderReceived epoch auth hdrDec, none)
  else .ok (noHeaderReceived epoch auth hdrDec, none)

/-- `recv_ct1_sampled`. -/
def recvCt1Sampled (msg : Message) (epoch : ℕ) (auth : Authenticator Key)
    (header encapsSecret ct1 : Bytes) (ct1Enc : Encoder) (ekDec : Decoder) :
    Result (Transition Key) :=
  if msg.epoch = epoch ∧ (msg.mtype = .ek ∨ msg.mtype = .ekCt1Ack) then do
    let ekDec ← addChunk ekDec msg
    match ← ekDec.message P.rs with
    | some ekVector =>
        Kem.validatePublicKey P.kem header ekVector
        if msg.mtype = .ekCt1Ack then
          let ct2Enc ← buildCt2Encoder P auth epoch encapsSecret ekVector ct1
          return (ct2Sampled epoch auth ct2Enc, none)
        else
          return (ekReceivedCt1Sampled epoch auth encapsSecret ct1 ekVector ct1Enc, none)
    | none =>
        if msg.mtype = .ekCt1Ack then
          return (ct1Acknowledged epoch auth encapsSecret header ct1 ekDec, none)
        else
          return (ct1Sampled epoch auth header encapsSecret ct1 ct1Enc ekDec, none)
  else .ok (ct1Sampled epoch auth header encapsSecret ct1 ct1Enc ekDec, none)

/-- `recv_ek_received_ct1_sampled`. -/
def recvEkReceivedCt1Sampled (msg : Message) (epoch : ℕ) (auth : Authenticator Key)
    (encapsSecret ct1 ekVector : Bytes) (ct1Enc : Encoder) : Result (Transition Key) :=
  if msg.epoch = epoch ∧ msg.mtype = .ekCt1Ack then do
    let ct2Enc ← buildCt2Encoder P auth epoch encapsSecret ekVector ct1
    return (ct2Sampled epoch auth ct2Enc, none)
  else .ok (ekReceivedCt1Sampled epoch auth encapsSecret ct1 ekVector ct1Enc, none)

/-- `recv_ct1_acknowledged`. -/
def recvCt1Acknowledged (msg : Message) (epoch : ℕ) (auth : Authenticator Key)
    (encapsSecret header ct1 : Bytes) (ekDec : Decoder) : Result (Transition Key) :=
  if msg.epoch = epoch ∧ msg.mtype = .ekCt1Ack then do
    let ekDec ← addChunk ekDec msg
    match ← ekDec.message P.rs with
    | some ekVector =>
        Kem.validatePublicKey P.kem header ekVector
        let ct2Enc ← buildCt2Encoder P auth epoch encapsSecret ekVector ct1
        return (ct2Sampled epoch auth ct2Enc, none)
    | none => return (ct1Acknowledged epoch auth encapsSecret header ct1 ekDec, none)
  else .ok (ct1Acknowledged epoch auth encapsSecret header ct1 ekDec, none)

/-- `recv_ct2_sampled`: any message tagged with the next epoch ends this one. -/
def recvCt2Sampled (msg : Message) (epoch : ℕ) (auth : Authenticator Key)
    (ct2Enc : Encoder) : Result (Transition Key) :=
  if msg.epoch = epoch + 1 then .ok (keysUnsampled (epoch + 1) auth, none)
  else .ok (ct2Sampled epoch auth ct2Enc, none)

/-- `State::receive`. -/
def receive (msg : Message) : State Key → Result (Transition Key)
  | keysSampled epoch auth dk ekVector headerEnc =>
      recvKeysSampled P msg epoch auth dk ekVector headerEnc
  | headerSent epoch auth dk ct1Dec ekEnc => recvHeaderSent P msg epoch auth dk ct1Dec ekEnc
  | ct1Received epoch auth dk ct1 ekEnc => recvCt1Received msg epoch auth dk ct1 ekEnc
  | ekSentCt1Received epoch auth dk ct1 ct2Dec =>
      recvEkSentCt1Received P msg epoch auth dk ct1 ct2Dec
  | noHeaderReceived epoch auth hdrDec => recvNoHeaderReceived P msg epoch auth hdrDec
  | ct1Sampled epoch auth header encapsSecret ct1 ct1Enc ekDec =>
      recvCt1Sampled P msg epoch auth header encapsSecret ct1 ct1Enc ekDec
  | ekReceivedCt1Sampled epoch auth encapsSecret ct1 ekVector ct1Enc =>
      recvEkReceivedCt1Sampled P msg epoch auth encapsSecret ct1 ekVector ct1Enc
  | ct1Acknowledged epoch auth encapsSecret header ct1 ekDec =>
      recvCt1Acknowledged P msg epoch auth encapsSecret header ct1 ekDec
  | ct2Sampled epoch auth ct2Enc => recvCt2Sampled msg epoch auth ct2Enc
  | other => .ok (other, none)

end State

/-- Output of `BraidState::send`. -/
structure SckaSend (Key : Type) where
  msg : Message
  sendingEpoch : ℕ
  outputKey : Option (EpochSecret Key)

/-- Output of `BraidState::receive`. -/
structure SckaReceive (Key : Type) where
  receivingEpoch : ℕ
  outputKey : Option (EpochSecret Key)

/-- One party's view of the braid. -/
structure BraidState (Key : Type) where
  state : State Key

namespace BraidState

variable (P : Prims Key)

/-- `BraidState::init_sender`. -/
def initSender (authSeed : Key) : BraidState Key :=
  ⟨.keysUnsampled initialEpoch (Authenticator.init P.hash initialEpoch authSeed)⟩

/-- `BraidState::init_receiver`. -/
def initReceiver (authSeed : Key) : BraidState Key :=
  ⟨.noHeaderReceived initialEpoch (Authenticator.init P.hash initialEpoch authSeed)
    (Decoder.new (pk1Len + macSize))⟩

/-- `BraidState::transition`: commit on success, restore the snapshot on error. -/
def transition {T : Type} (b : BraidState Key) (f : State Key → Result (State Key × T)) :
    Result T × BraidState Key :=
  let snapshot := b.state
  match f b.state with
  | .ok (next, out) => (.ok out, ⟨next⟩)
  | .error e => (.error e, ⟨snapshot⟩)

/-- `BraidState::send`. -/
def send (rng : Rng) (b : BraidState Key) : Result (SckaSend Key) × BraidState Key :=
  match b.transition (fun st => st.send P rng) with
  | (.error e, b') => (.error e, b')
  | (.ok (msg, outputKey), b') =>
      (.ok { msg, sendingEpoch := b'.state.epoch - 1, outputKey }, b')

/-- `BraidState::receive`: the receiving epoch is read from the message. -/
def receive (msg : Message) (b : BraidState Key) : Result (SckaReceive Key) × BraidState Key :=
  let receivingEpoch := msg.epoch - 1
  match b.transition (fun st => st.receive P msg) with
  | (.error e, b') => (.error e, b')
  | (.ok outputKey, b') => (.ok { receivingEpoch, outputKey }, b')

end BraidState

end Hushwire
