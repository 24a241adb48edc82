import Hushwire.Braid.StateMachine

/-!
# Every transition of the braid

`State.Sends` and `State.Receives` list what a successful `State.send` or `State.receive` can
do, one constructor per way through a handler, with everything that handler checked.
`Sends.of_send` and `Receives.of_receive` are the inversion lemmas: invariants that must
survive arbitrary (forged, replayed, misdirected) messages are proved by cases on these
relations and never open the handlers.
-/

namespace Hushwire

variable {Key : Type}

/-- A `?` that let the computation go on. -/
lemma Result.of_bind_eq_ok {α β : Type} {r : Result α} {k : α → Result β} {b : β}
    (h : r >>= k = .ok b) : ∃ a, r = .ok a ∧ k a = .ok b := by
  rcases r with e | a
  · cases h
  · exact ⟨a, rfl, h⟩

namespace State

/-- The messages a state acts on; it drops all others. -/
def Listens (msg : Message) : State Key → Prop
  | keysUnsampled _ _ => False
  | keysSampled epoch _ _ _ _ => msg.epoch = epoch ∧ msg.mtype = .ct1
  | headerSent epoch _ _ _ _ => msg.epoch = epoch ∧ msg.mtype = .ct1
  | ct1Received epoch _ _ _ _ => msg.epoch = epoch ∧ msg.mtype = .ct2
  | ekSentCt1Received epoch _ _ _ _ => msg.epoch = epoch ∧ msg.mtype = .ct2
  | noHeaderReceived epoch _ _ => msg.epoch = epoch ∧ msg.mtype = .hdr
  | headerReceived _ _ _ _ => False
  | ct1Sampled epoch _ _ _ _ _ _ => msg.epoch = epoch ∧ (msg.mtype = .ek ∨ msg.mtype = .ekCt1Ack)
  | ekReceivedCt1Sampled epoch _ _ _ _ _ => msg.epoch = epoch ∧ msg.mtype = .ekCt1Ack
  | ct1Acknowledged epoch _ _ _ _ _ => msg.epoch = epoch ∧ msg.mtype = .ekCt1Ack
  | ct2Sampled epoch _ _ => msg.epoch = epoch + 1
  | poisoned => False

instance (msg : Message) (st : State Key) : Decidable (st.Listens msg) := by
  cases st <;> unfold Listens <;> infer_instance

variable (P : Prims Key)

lemma receive_of_not_listens {msg : Message} {st : State Key} (h : ¬ st.Listens msg) :
    st.receive P msg = .ok (st, none) := by
  cases st <;> first | rfl | exact if_neg h

/-- The ways a send can succeed. -/
inductive Sends (rng : Rng) : State Key → State Key → Message → Option (EpochSecret Key) → Prop
  | sampleKeys {epoch auth header ekVector headerEnc}
      (hpk : Kem.publicKeyParts P.kem (Kem.generateKeypair P.kem (rng.fill seedLen)) =
        .ok (header, ekVector))
      (henc : Encoder.new P.rs (header ++ auth.macHdr P.hash epoch header) = .ok headerEnc) :
      Sends rng (keysUnsampled epoch auth)
        (keysSampled epoch auth (Kem.generateKeypair P.kem (rng.fill seedLen)) ekVector
          headerEnc.nextChunk.2)
        (.carrying epoch .hdr headerEnc.nextChunk.1) none
  | streamHeader {epoch auth dk ekVector headerEnc} :
      Sends rng (keysSampled epoch auth dk ekVector headerEnc)
        (keysSampled epoch auth dk ekVector headerEnc.nextChunk.2)
        (.carrying epoch .hdr headerEnc.nextChunk.1) none
  | streamEk {epoch auth dk ct1Dec ekEnc} :
      Sends rng (headerSent epoch auth dk ct1Dec ekEnc)
        (headerSent epoch auth dk ct1Dec ekEnc.nextChunk.2)
        (.carrying epoch .ek ekEnc.nextChunk.1) none
  | streamEkAck {epoch auth dk ct1 ekEnc} :
      Sends rng (ct1Received epoch auth dk ct1 ekEnc)
        (ct1Received epoch auth dk ct1 ekEnc.nextChunk.2)
        (.carrying epoch .ekCt1Ack ekEnc.nextChunk.1) none
  | awaitCt2 {epoch auth dk ct1 ct2Dec} :
      Sends rng (ekSentCt1Received epoch auth dk ct1 ct2Dec)
        (ekSentCt1Received epoch auth dk ct1 ct2Dec) (.idle epoch) none
  | awaitHeader {epoch auth hdrDec} :
      Sends rng (noHeaderReceived epoch auth hdrDec) (noHeaderReceived epoch auth hdrDec)
        (.idle epoch) none
  | encapsulate {epoch auth header ekDec ct1 encapsSecret rawSs ct1Enc}
      (hkem : Kem.encapsulate1 P.kem header (rng.fill encapsRandomnessLen) =
        .ok (ct1, encapsSecret, rawSs))
      (henc : Encoder.new P.rs ct1 = .ok ct1Enc) :
      Sends rng (headerReceived epoch auth header ekDec)
        (ct1Sampled epoch (auth.update P.hash epoch (Auth.kdfOk P.hash rawSs epoch)) header
          encapsSecret ct1 ct1Enc.nextChunk.2 ekDec)
        (.carrying epoch .ct1 ct1Enc.nextChunk.1)
        (some ⟨epoch, Auth.kdfOk P.hash rawSs epoch⟩)
  | streamCt1 {epoch auth header encapsSecret ct1 ct1Enc ekDec} :
      Sends rng (ct1Sampled epoch auth header encapsSecret ct1 ct1Enc ekDec)
        (ct1Sampled epoch auth header encapsSecret ct1 ct1Enc.nextChunk.2 ekDec)
        (.carrying epoch .ct1 ct1Enc.nextChunk.1) none
  | streamCt1Ek {epoch auth encapsSecret ct1 ekVector ct1Enc} :
      Sends rng (ekReceivedCt1Sampled epoch auth encapsSecret ct1 ekVector ct1Enc)
        (ekReceivedCt1Sampled epoch auth encapsSecret ct1 ekVector ct1Enc.nextChunk.2)
        (.carrying epoch .ct1 ct1Enc.nextChunk.1) none
  | awaitEk {epoch auth encapsSecret header ct1 ekDec} :
      Sends rng (ct1Acknowledged epoch auth encapsSecret header ct1 ekDec)
        (ct1Acknowledged epoch auth encapsSecret header ct1 ekDec) (.idle epoch) none
  | streamCt2 {epoch auth ct2Enc} :
      Sends rng (ct2Sampled epoch auth ct2Enc) (ct2Sampled epoch auth ct2Enc.nextChunk.2)
        (.carrying epoch .ct2 ct2Enc.nextChunk.1) none

/-- The ways a receive can succeed.  `ignore` stands for a message the state has no use for. -/
inductive Receives (msg : Message) : State Key → State Key → Option (EpochSecret Key) → Prop
  | ignore {st} (hl : ¬ st.Listens msg) : Receives msg st st none
  | ct1First {epoch auth dk ekVector headerEnc ct1Dec ekEnc}
      (hepoch : msg.epoch = epoch) (htype : msg.mtype = .ct1)
      (hadd : addChunk (Decoder.new ct1Len) msg = .ok ct1Dec)
      (henc : Encoder.new P.rs ekVector = .ok ekEnc) :
      Receives msg (keysSampled epoch auth dk ekVector headerEnc)
        (headerSent epoch auth dk ct1Dec ekEnc) none
  | ct1More {epoch auth dk ct1Dec ct1Dec' ekEnc}
      (hepoch : msg.epoch = epoch) (htype : msg.mtype = .ct1)
      (hadd : addChunk ct1Dec msg = .ok ct1Dec') (hmsg : ct1Dec'.message P.rs = .ok none) :
      Receives msg (headerSent epoch auth dk ct1Dec ekEnc)
        (headerSent epoch auth dk ct1Dec' ekEnc) none
  | ct1Done {epoch auth dk ct1 ct1Dec ct1Dec' ekEnc}
      (hepoch : msg.epoch = epoch) (htype : msg.mtype = .ct1)
      (hadd : addChunk ct1Dec msg = .ok ct1Dec')
      (hmsg : ct1Dec'.message P.rs = .ok (some ct1)) :
      Receives msg (headerSent epoch auth dk ct1Dec ekEnc)
        (ct1Received epoch auth dk ct1 ekEnc) none
  | ct2First {epoch auth dk ct1 ekEnc ct2Dec}
      (hepoch : msg.epoch = epoch) (htype : msg.mtype = .ct2)
      (hadd : addChunk (Decoder.new (ct2Len + macSize)) msg = .ok ct2Dec) :
      Receives msg (ct1Received epoch auth dk ct1 ekEnc)
        (ekSentCt1Received epoch auth dk ct1 ct2Dec) none
  | ct2More {epoch auth dk ct1 ct2Dec ct2Dec'}
      (hepoch : msg.epoch = epoch) (htype : msg.mtype = .ct2)
      (hadd : addChunk ct2Dec msg = .ok ct2Dec') (hmsg : ct2Dec'.message P.rs = .ok none) :
      Receives msg (ekSentCt1Received epoch auth dk ct1 ct2Dec)
        (ekSentCt1Received epoch auth dk ct1 ct2Dec') none
  | ct2Accept {epoch auth dk ct1 ct2Dec ct2Dec' ct2WithMac rawSs}
      (hepoch : msg.epoch = epoch) (htype : msg.mtype = .ct2)
      (hadd : addChunk ct2Dec msg = .ok ct2Dec')
      (hmsg : ct2Dec'.message P.rs = .ok (some ct2WithMac))
      (hkem : Kem.decapsulate P.kem dk ct1 (ct2WithMac.take ct2Len) = .ok rawSs)
      (hvfy : (auth.update P.hash epoch (Auth.kdfOk P.hash rawSs epoch)).vfyCt P.hash epoch
        (ct1 ++ ct2WithMac.take ct2Len) (ct2WithMac.drop ct2Len) = .ok ()) :
      Receives msg (ekSentCt1Received epoch auth dk ct1 ct2Dec)
        (noHeaderReceived (epoch + 1)
          (auth.update P.hash epoch (Auth.kdfOk P.hash rawSs epoch))
          (Decoder.new (pk1Len + macSize)))
        (some ⟨epoch, Auth.kdfOk P.hash rawSs epoch⟩)
  | ct2Reject {epoch auth dk ct1 ct2Dec ct2Dec' ct2WithMac rawSs e}
      (hepoch : msg.epoch = epoch) (htype : msg.mtype = .ct2)
      (hadd : addChunk ct2Dec msg = .ok ct2Dec')
      (hmsg : ct2Dec'.message P.rs = .ok (some ct2WithMac))
      (hkem : Kem.decapsulate P.kem dk ct1 (ct2WithMac.take ct2Len) = .ok rawSs)
      (hvfy : (auth.update P.hash epoch (Auth.kdfOk P.hash rawSs epoch)).vfyCt P.hash epoch
        (ct1 ++ ct2WithMac.take ct2Len) (ct2WithMac.drop ct2Len) = .error e) :
      Receives msg (ekSentCt1Received epoch auth dk ct1 ct2Dec)
        (ekSentCt1Received epoch auth dk ct1 ct2Dec'.reset) none
  | hdrMore {epoch auth hdrDec hdrDec'}
      (hepoch : msg.epoch = epoch) (htype : msg.mtype = .hdr)
      (hadd : addChunk hdrDec msg = .ok hdrDec') (hmsg : hdrDec'.message P.rs = .ok none) :
      Receives msg (noHeaderReceived epoch auth hdrDec) (noHeaderReceived epoch auth hdrDec')
        none
  | hdrAccept {epoch auth hdrDec hdrDec' headerWithMac}
      (hepoch : msg.epoch = epoch) (htype : msg.mtype = .hdr)
      (hadd : addChunk hdrDec msg = .ok hdrDec')
      (hmsg : hdrDec'.message P.rs = .ok (some headerWithMac))
      (hvfy : auth.vfyHdr P.hash epoch (headerWithMac.take pk1Len)
        (headerWithMac.drop pk1Len) = .ok ()) :
      Receives msg (noHeaderReceived epoch auth hdrDec)
        (headerReceived epoch auth (headerWithMac.take pk1Len) (Decoder.new pk2Len)) none
  | hdrReject {epoch auth hdrDec hdrDec' headerWithMac e}
      (hepoch : msg.epoch = epoch) (htype : msg.mtype = .hdr)
      (hadd : addChunk hdrDec msg = .ok hdrDec')
      (hmsg : hdrDec'.message P.rs = .ok (some headerWithMac))
      (hvfy : auth.vfyHdr P.hash epoch (headerWithMac.take pk1Len)
        (headerWithMac.drop pk1Len) = .error e) :
      Receives msg (noHeaderReceived epoch auth hdrDec)
        (noHeaderReceived epoch auth hdrDec'.reset) none
  | ekMore {epoch auth header encapsSecret ct1 ct1Enc ekDec ekDec'}
      (hepoch : msg.epoch = epoch) (htype : msg.mtype = .ek)
      (hadd : addChunk ekDec msg = .ok ekDec') (hmsg : ekDec'.message P.rs = .ok none) :
      Receives msg (ct1Sampled epoch auth header encapsSecret ct1 ct1Enc ekDec)
        (ct1Sampled epoch auth header encapsSecret ct1 ct1Enc ekDec') none
  | ekDone {epoch auth header encapsSecret ct1 ct1Enc ekDec ekDec' ekVector}
      (hepoch : msg.epoch = epoch) (htype : msg.mtype = .ek)
      (hadd : addChunk ekDec msg = .ok ekDec')
      (hmsg : ekDec'.message P.rs = .ok (some ekVector))
      (hval : Kem.validatePublicKey P.kem header ekVector = .ok ()) :
      Receives msg (ct1Sampled epoch auth header encapsSecret ct1 ct1Enc ekDec)
        (ekReceivedCt1Sampled epoch auth encapsSecret ct1 ekVector ct1Enc) none
  | ackFirst {epoch auth header encapsSecret ct1 ct1Enc ekDec ekDec'}
      (hepoch : msg.epoch = epoch) (htype : msg.mtype = .ekCt1Ack)
      (hadd : addChunk ekDec msg = .ok ekDec') (hmsg : ekDec'.message P.rs = .ok none) :
      Receives msg (ct1Sampled epoch auth header encapsSecret ct1 ct1Enc ekDec)
        (ct1Acknowledged epoch auth encapsSecret header ct1 ekDec') none
  | ackFirstDone {epoch auth header encapsSecret ct1 ct1Enc ekDec ekDec' ekVector ct2Enc}
      (hepoch : msg.epoch = epoch) (htype : msg.mtype = .ekCt1Ack)
      (hadd : addChunk ekDec msg = .ok ekDec')
      (hmsg : ekDec'.message P.rs = .ok (some ekVector))
      (hval : Kem.validatePublicKey P.kem header ekVector = .ok ())
      (hct2 : buildCt2Encoder P auth epoch encapsSecret ekVector ct1 = .ok ct2Enc) :
      Receives msg (ct1Sampled epoch auth header encapsSecret ct1 ct1Enc ekDec)
        (ct2Sampled epoch auth ct2Enc) none
  | ackAfterEk {epoch auth encapsSecret ct1 ekVector ct1Enc ct2Enc}
      (hepoch : msg.epoch = epoch) (htype : msg.mtype = .ekCt1Ack)
      (hct2 : buildCt2Encoder P auth epoch encapsSecret ekVector ct1 = .ok ct2Enc) :
      Receives msg (ekReceivedCt1Sampled epoch auth encapsSecret ct1 ekVector ct1Enc)
        (ct2Sampled epoch auth ct2Enc) none
  | ackMore {epoch auth encapsSecret header ct1 ekDec ekDec'}
      (hepoch : msg.epoch = epoch) (htype : msg.mtype = .ekCt1Ack)
      (hadd : addChunk ekDec msg = .ok ekDec') (hmsg : ekDec'.message P.rs = .ok none) :
      Receives msg (ct1Acknowledged epoch auth encapsSecret header ct1 ekDec)
        (ct1Acknowledged epoch auth encapsSecret header ct1 ekDec') none
  | ackDone {epoch auth encapsSecret header ct1 ekDec ekDec' ekVector ct2Enc}
      (hepoch : msg.epoch = epoch) (htype : msg.mtype = .ekCt1Ack)
      (hadd : addChunk ekDec msg = .ok ekDec')
      (hmsg : ekDec'.message P.rs = .ok (some ekVector))
      (hval : Kem.validatePublicKey P.kem header ekVector = .ok ())
      (hct2 : buildCt2Encoder P auth epoch encapsSecret ekVector ct1 = .ok ct2Enc) :
      Receives msg (ct1Acknowledged epoch auth encapsSecret header ct1 ekDec)
        (ct2Sampled epoch auth ct2Enc) none
  | nextEpoch {epoch auth ct2Enc} (hepoch : msg.epoch = epoch + 1) :
      Receives msg (ct2Sampled epoch auth ct2Enc) (keysUnsampled (epoch + 1) auth) none

variable {P}

/-- **What a send can do.** -/
theorem Sends.of_send {rng : Rng} {st st' : State Key} {msg : Message}
    {o : Option (EpochSecret Key)} (h : st.send P rng = .ok (st', msg, o)) :
    Sends P rng st st' msg o := by
  cases st with
  | keysUnsampled epoch auth =>
      obtain ⟨⟨header, ekVector⟩, hpk, h⟩ := Result.of_bind_eq_ok h
      obtain ⟨headerEnc, henc, h⟩ := Result.of_bind_eq_ok h
      cases h
      exact .sampleKeys hpk henc
  | headerReceived epoch auth header ekDec =>
      obtain ⟨⟨ct1, encapsSecret, rawSs⟩, hkem, h⟩ := Result.of_bind_eq_ok h
      obtain ⟨ct1Enc, henc, h⟩ := Result.of_bind_eq_ok h
      cases h
      exact .encapsulate hkem henc
  | keysSampled => cases h; exact .streamHeader
  | headerSent => cases h; exact .streamEk
  | ct1Received => cases h; exact .streamEkAck
  | ekSentCt1Received => cases h; exact .awaitCt2
  | noHeaderReceived => cases h; exact .awaitHeader
  | ct1Sampled => cases h; exact .streamCt1
  | ekReceivedCt1Sampled => cases h; exact .streamCt1Ek
  | ct1Acknowledged => cases h; exact .awaitEk
  | ct2Sampled => cases h; exact .streamCt2
  | poisoned => cases h

/-- **What a receive can do.** -/
theorem Receives.of_receive {msg : Message} {st st' : State Key} {o : Option (EpochSecret Key)}
    (h : st.receive P msg = .ok (st', o)) : Receives P msg st st' o := by
  cases st with
  | keysUnsampled => cases h; exact .ignore id
  | headerReceived => cases h; exact .ignore id
  | poisoned => cases h; exact .ignore id
  | keysSampled epoch auth dk ekVector headerEnc =>
      simp only [receive, recvKeysSampled] at h
      split at h
      · rename_i hm
        obtain ⟨ct1Dec, hadd, h⟩ := Result.of_bind_eq_ok h
        obtain ⟨ekEnc, henc, h⟩ := Result.of_bind_eq_ok h
        cases h
        exact .ct1First hm.1 hm.2 hadd henc
      · rename_i hl
        cases h; exact .ignore hl
  | headerSent epoch auth dk ct1Dec ekEnc =>
      simp only [receive, recvHeaderSent] at h
      split at h
      · rename_i hm
        obtain ⟨ct1Dec', hadd, h⟩ := Result.of_bind_eq_ok h
        obtain ⟨_ | ct1, hmsg, h⟩ := Result.of_bind_eq_ok h
        · cases h; exact .ct1More hm.1 hm.2 hadd hmsg
        · cases h; exact .ct1Done hm.1 hm.2 hadd hmsg
      · rename_i hl
        cases h; exact .ignore hl
  | ct1Received epoch auth dk ct1 ekEnc =>
      simp only [receive, recvCt1Received] at h
      split at h
      · rename_i hm
        obtain ⟨ct2Dec, hadd, h⟩ := Result.of_bind_eq_ok h
        cases h
        exact .ct2First hm.1 hm.2 hadd
      · rename_i hl
        cases h; exact .ignore hl
  | ekSentCt1Received epoch auth dk ct1 ct2Dec =>
      simp only [receive, recvEkSentCt1Received] at h
      split at h
      · rename_i hm
        obtain ⟨ct2Dec', hadd, h⟩ := Result.of_bind_eq_ok h
        obtain ⟨_ | ct2WithMac, hmsg, h⟩ := Result.of_bind_eq_ok h
        · cases h; exact .ct2More hm.1 hm.2 hadd hmsg
        · obtain ⟨rawSs, hkem, h⟩ := Result.of_bind_eq_ok h
          split at h
          · rename_i hvfy
            cases h; exact .ct2Accept hm.1 hm.2 hadd hmsg hkem hvfy
          · rename_i hvfy
            cases h; exact .ct2Reject hm.1 hm.2 hadd hmsg hkem hvfy
      · rename_i hl
        cases h; exact .ignore hl
  | noHeaderReceived epoch auth hdrDec =>
      simp only [receive, recvNoHeaderReceived] at h
      split at h
      · rename_i hm
        obtain ⟨hdrDec', hadd, h⟩ := Result.of_bind_eq_ok h
        obtain ⟨_ | headerWithMac, hmsg, h⟩ := Result.of_bind_eq_ok h
        · cases h; exact .hdrMore hm.1 hm.2 hadd hmsg
        · simp only at h
          split at h
          · rename_i hvfy
            cases h; exact .hdrAccept hm.1 hm.2 hadd hmsg hvfy
          · rename_i hvfy
            cases h; exact .hdrReject hm.1 hm.2 hadd hmsg hvfy
      · rename_i hl
        cases h; exact .ignore hl
  | ct1Sampled epoch auth header encapsSecret ct1 ct1Enc ekDec =>
      simp only [receive, recvCt1Sampled] at h
      split at h
      · rename_i hm
        obtain ⟨ekDec', hadd, h⟩ := Result.of_bind_eq_ok h
        obtain ⟨_ | ekVector, hmsg, h⟩ := Result.of_bind_eq_ok h
        · simp only at h
          split at h
          · rename_i hack
            cases h; exact .ackFirst hm.1 hack hadd hmsg
          · rename_i hack
            cases h; exact .ekMore hm.1 (hm.2.resolve_right hack) hadd hmsg
        · obtain ⟨⟨⟩, hval, h⟩ := Result.of_bind_eq_ok h
          split at h
          · rename_i hack
            obtain ⟨ct2Enc, hct2, h⟩ := Result.of_bind_eq_ok h
            cases h; exact .ackFirstDone hm.1 hack hadd hmsg hval hct2
          · rename_i hack
            cases h; exact .ekDone hm.1 (hm.2.resolve_right hack) hadd hmsg hval
      · rename_i hl
        cases h; exact .ignore hl
  | ekReceivedCt1Sampled epoch auth encapsSecret ct1 ekVector ct1Enc =>
      simp only [receive, recvEkReceivedCt1Sampled] at h
      split at h
      · rename_i hm
        obtain ⟨ct2Enc, hct2, h⟩ := Result.of_bind_eq_ok h
        cases h; exact .ackAfterEk hm.1 hm.2 hct2
      · rename_i hl
        cases h; exact .ignore hl
  | ct1Acknowledged epoch auth encapsSecret header ct1 ekDec =>
      simp only [receive, recvCt1Acknowledged] at h
      split at h
      · rename_i hm
        obtain ⟨ekDec', hadd, h⟩ := Result.of_bind_eq_ok h
        obtain ⟨_ | ekVector, hmsg, h⟩ := Result.of_bind_eq_ok h
        · cases h; exact .ackMore hm.1 hm.2 hadd hmsg
        · obtain ⟨⟨⟩, hval, h⟩ := Result.of_bind_eq_ok h
          obtain ⟨ct2Enc, hct2, h⟩ := Result.of_bind_eq_ok h
          cases h; exact .ackDone hm.1 hm.2 hadd hmsg hval hct2
      · rename_i hl
        cases h; exact .ignore hl
  | ct2Sampled epoch auth ct2Enc =>
      simp only [receive, recvCt2Sampled] at h
      split at h
      · rename_i hm
        cases h; exact .nextEpoch hm
      · rename_i hl
        cases h; exact .ignore hl

end State

end Hushwire
