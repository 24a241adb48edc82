import Hushwire.Ratchet.ForwardSecrecy
import Hushwire.Ratchet.SessionTraffic

/-!
# Authenticity

The attacker has the network: it drops, replays and reorders messages and makes up its own, headers
included.  A session that is handed a header moves its ratchets before it looks at the ciphertext,
so the attacker also chooses what the Diffie-Hellman ratchet of a party is stepped with.  What it
cannot do is make a ciphertext under a key that it cannot compute.

`Unforged` is that assumption about the AEAD, as a condition on a ciphertext that reaches a party:
if it opens under a key that the attacker cannot compute, then one of the parties has sealed it,
under that key and associated data.  Nothing is assumed about keys that the attacker can compute.

* `injective_agreement`: everything a party opens was sealed by the peer, with the same header and
  the same plaintext, and every message that was sealed is opened once at most.

The shared secret of the handshake is all that this rests on: no Diffie-Hellman output and no epoch
secret has to be unknown.  A message that comes back to its sender does not open, since no EC key is
taken twice by one session.  The associated data alone would not refuse it: it names the sender and
the recipient, and these are one identity for two linked devices of one account.
-/

namespace Hushwire

open Duplex Secrecy

variable {Key : Type}

/-! ## The attacker -/

/-- If the ciphertext opens under a key that the attacker cannot compute, then one of the parties
sealed it, with that key and associated data. -/
def Unforged (C : Suite Key) (bytes : Set Bytes) (world : Set Key)
    (identity : Side → IdentityPublicKey) (net : SessionNet Key) (ciphertext : Bytes) : Prop :=
  ∀ ecMk pqMk ad padded,
    Aead.decrypt C.hash C.xchacha (C.hash.kdfHybrid ecMk pqMk) ciphertext ad = .ok padded →
    ¬ Derives (C.hash.Computes bytes) world (C.hash.aeadKey ecMk pqMk) →
    ∃ t, ∃ e ∈ sealedMessages (net.log t), C.hash.aeadKey e.ecMk e.pqMk = C.hash.aeadKey ecMk pqMk ∧
      e.message.ciphertext = ciphertext ∧ pad e.plaintext = padded ∧
      buildAd C (identity t) (identity t.other) e.message.header = ad

/-- A step of a run under attack: the parties call their sessions with their identities, and no
ciphertext is forged. -/
def Attacked (C : Suite Key) (bytes : Set Bytes) (world : Set Key)
    (identity : Side → IdentityPublicKey) (net : SessionNet Key) :
    Action SessionInput RatchetMessage → Prop
  | .send s input => input.identity = identity s ∧ input.peerIdentity = identity s.other
  | .deliver s i input => input.identity = identity s ∧ input.peerIdentity = identity s.other ∧
      ∀ message, (net.sent s.other)[i]? = some message →
        Unforged C bytes world identity net message.ciphertext
  | .inject s message input => input.identity = identity s ∧ input.peerIdentity = identity s.other ∧
      Unforged C bytes world identity net message.ciphertext

/-- The two public keys are 32 bytes each, so the header can be told apart from them. -/
lemma header_eq_of_buildAd {C : Suite Key} {a b a' b' : IdentityPublicKey} {header header' : Bytes}
    (h : buildAd C a b header = buildAd C a' b' header') : header = header' := by
  refine (List.append_inj h ?_).2
  simp only [List.length_append, C.hash.asBytes_length]

/-- The AEAD key names the EC key that went into it. -/
lemma Hash.Free.ecMk_eq_of_aeadKey {H : Hash Key} (hH : H.Free) {ecMk pqMk ecMk' pqMk' : Key}
    (h : H.aeadKey ecMk pqMk = H.aeadKey ecMk' pqMk') : ecMk = ecMk' := by
  have hhybrid := Sum.inl.inj (hH.hkdf_injective _ _ _ _ _ _ _ _ _ _ h).1
  exact Sum.inl.inj (hH.hkdf_injective _ _ _ _ _ _ _ _ _ _ hhybrid).1

/-- As long as the shared secret cannot be computed, nothing of the EC ratchet can. -/
lemma Hash.Free.not_derives_aeadKey {H : Hash Key} (hH : H.Free) {bytes : Set Bytes}
    {sharedSecret ecMk : Key} (hss : ∀ inputs, ¬ H.Computes bytes inputs sharedSecret)
    {world : Set Key}
    (hworld : ∀ k ∈ world, ¬ H.OfEcRatchet sharedSecret k) (hec : H.EcKey sharedSecret ecMk)
    (pqMk : Key) : ¬ Derives (H.Computes bytes) world (H.aeadKey ecMk pqMk) := by
  have hguarded : Guarded (H.Computes bytes) {k | H.OfEcRatchet sharedSecret k} := by
    refine guarded_of_needs ?_
    rintro k ⟨ec, hec, rfl | ⟨pqMk, rfl | rfl⟩⟩
    · rcases Relation.ReflTransGen.cases_tail hec with rfl | ⟨p, hp, hparent⟩
      · exact .inl hss
      · exact .inr ⟨p, ⟨p, hp, .inl rfl⟩, hparent.needs hH⟩
    · exact .inr ⟨ec, ⟨ec, hec, .inl rfl⟩, hH.needs_ikm⟩
    · exact .inr ⟨H.kdfHybrid ec pqMk, ⟨ec, hec, .inr ⟨pqMk, .inl rfl⟩⟩, hH.needs_ikm⟩
  exact hguarded.not_derives hworld ⟨ecMk, hec, .inr ⟨pqMk, .inr rfl⟩⟩

/-! ## What a call shows -/

section Calls

variable [DecidableEq Key] {C : Suite Key} {s : RatchetSession Key}

/-- What it takes for a message to be opened. -/
lemma RatchetSession.Opens.of_ok {rng : Rng} {message : RatchetMessage}
    {sender recipient : IdentityPublicKey} {s' : RatchetSession Key} {plaintext : Bytes}
    (h : Opens C rng message sender recipient s (.ok plaintext) s') :
    ∃ header ecMk s₁ pqMk padded,
      MessageHeader.deserialize C.postcard message.header = .ok header ∧
      s.ecMessageKey C rng header = (.ok ecMk, s₁) ∧
      Aead.decrypt C.hash C.xchacha (C.hash.kdfHybrid ecMk pqMk) message.ciphertext
        (buildAd C sender recipient message.header) = .ok padded ∧
      unpad padded = .ok plaintext := by
  obtain ⟨r, hr⟩ : ∃ r : Result Bytes, r = .ok plaintext := ⟨_, rfl⟩
  rw [← hr] at h
  cases h with
  | garbled _ | noEcKey _ _ | noPqKey _ _ _ => cases hr
  | @keyed header ecMk pqMk s₁ spqr hheader hec _ =>
      simp only [openWith, bind, Except.bind] at hr
      split at hr
      · cases hr
      · rename_i padded hdec
        exact ⟨header, ecMk, s₁, pqMk, padded, hheader, hec, hdec, hr⟩

lemma of_opened {message : RatchetMessage} {input : SessionInput} {header : MessageHeader Key}
    {plaintext : Bytes} (h : .opened header plaintext ∈
      ((sessionMachine C).recv s message input).2) :
    MessageHeader.deserialize C.postcard message.header = .ok header ∧
      ∃ ecMk s₁ pqMk padded, s.ecMessageKey C input.rng header = (.ok ecMk, s₁) ∧
        Aead.decrypt C.hash C.xchacha (C.hash.kdfHybrid ecMk pqMk) message.ciphertext
          (buildAd C input.peerIdentity input.identity message.header) = .ok padded ∧
        unpad padded = .ok plaintext := by
  have hopens := RatchetSession.opens_decrypt C input.rng message input.peerIdentity
    input.identity s
  simp only [sessionMachine, recvEvents] at h
  generalize s.decrypt C input.rng message input.peerIdentity input.identity = out at hopens h
  obtain ⟨r, s'⟩ := out
  have hquiet : ∀ header' remote own,
      .opened header plaintext ∉ ratchetEvents C header' s remote own := by
    intro header' remote own hmem
    unfold ratchetEvents at hmem
    split at hmem <;> simp at hmem
  -- the report names the header, and comes with a result
  cases hheader : MessageHeader.deserialize C.postcard message.header with
  | error e =>
      rw [hheader] at h
      cases h
  | ok header' =>
      rw [hheader] at h
      obtain ⟨rfl, rfl⟩ : header = header' ∧ r = .ok plaintext := by
        cases hec : (s.ecMessageKey C input.rng header').1 with
        | error e => simp [hec, hquiet] at h
        | ok ecMk =>
            cases r with
            | error e => simp [hec, hquiet] at h
            | ok plaintext' =>
                simp [hec, hquiet] at h
                exact ⟨h.1, by rw [h.2]⟩
      obtain ⟨header', ecMk, s₁, pqMk, padded, hheader', hopened⟩ := hopens.of_ok
      obtain rfl := Except.ok.inj (hheader.symm.trans hheader')
      exact ⟨rfl, ecMk, s₁, pqMk, padded, hopened⟩

/-- A send opens nothing. -/
lemma opened_notMem_send (input : SessionInput) (header : MessageHeader Key) (plaintext : Bytes) :
    .opened header plaintext ∉ ((sessionMachine C).send s input).2.2 := by
  cases hpending : s.pendingPrekey with
  | some initial =>
      rw [sessionMachine_send_pending input (by rw [hpending]; rfl)]
      exact List.not_mem_nil
  | none =>
      obtain ⟨om, own, hcall, hown⟩ := sessionMachine_send (C := C) input hpending
      rw [hcall]
      rcases hown with ⟨-, rfl⟩ | ⟨_, _, _, _, -, -, -, rfl⟩ <;> simp

/-- The header of a message that was sealed is the one on the wire. -/
lemma header_eq_of_send (input : SessionInput) :
    ∀ e ∈ sealedMessages ((sessionMachine C).send s input).2.2,
      e.message.header = e.header.serialize C.postcard := by
  cases hpending : s.pendingPrekey with
  | some initial =>
      rw [sessionMachine_send_pending input (by rw [hpending]; rfl)]
      exact List.forall_mem_nil _
  | none =>
      intro e he
      have hreport : SendReport C s input _ _ _ := sendReport hpending rfl
      obtain ⟨rng, hheader, -⟩ := hreport.sealedFor e he
      exact hheader

/-- A receive seals nothing. -/
lemma sealedMessages_recv (message : RatchetMessage) (input : SessionInput) :
    sealedMessages ((sessionMachine C).recv s message input).2 = [] := by
  have hratchet : ∀ header remote own,
      sealedMessages (ratchetEvents C header s remote own) = [] := by
    intro header remote own
    unfold ratchetEvents
    split <;> rfl
  rcases sessionMachine_recv (C := C) (s := s) message input with ⟨-, hcall⟩ | ⟨header, -,
    ⟨e, s', -, hcall⟩ | ⟨ecMk, s₁, own, -, hcall, hown⟩⟩
  · rw [hcall]
    rfl
  · rw [hcall]
    exact hratchet _ _ _
  · rw [hcall, sealedMessages_append, hratchet]
    show sealedMessages (_ ++ own) = []
    rw [sealedMessages_append, sealedMessages_map]
    rcases hown with rfl | ⟨_, _, _, -, rfl⟩ <;> rfl

omit [DecidableEq Key] in
/-- A party that seals a message takes its EC key. -/
lemma ecMk_mem_ecKeysUsed {log : List (SessionEvent Key)} {e : SealedMessage Key}
    (he : e ∈ sealedMessages log) : e.ecMk ∈ ecKeysUsed log := by
  obtain ⟨event, hevent, hsealed⟩ := List.mem_filterMap.mp he
  refine List.mem_filterMap.mpr ⟨event, hevent, ?_⟩
  cases event with
  | «sealed» header ecMk pqMk plaintext message => rw [← Option.some.inj hsealed]; rfl
  | _ => cases hsealed

/-- The EC key that a session takes is one of the EC ratchet, and was not taken before. -/
lemma EcBooks.of_ecMessageKey {sharedSecret ecMk : Key} {used : List Key} {rng : Rng}
    {header : MessageHeader Key} {s₁ : RatchetSession Key} (hH : C.hash.Free)
    (hT : Tree C.hash.EcParent sharedSecret) (h : EcBooks C.hash sharedSecret s used)
    (hec : s.ecMessageKey C rng header = (.ok ecMk, s₁)) :
    C.hash.EcKey sharedSecret ecMk ∧ ecMk ∉ used := by
  obtain ⟨erased, hfrontier, hused, hnodup⟩ := h.resolves hH hT (.of_eq hec)
  have hmem : ecMk ∈ used ++ [ecMk] := List.mem_append_right _ (List.mem_singleton_self _)
  exact ⟨hfrontier.descends ecMk (.inr (hused ecMk hmem)),
    List.disjoint_right.mp (List.disjoint_of_nodup_append hnodup) (List.mem_singleton_self _)⟩

end Calls

/-! ## Runs -/

section Runs

variable [DecidableEq Key] {C : Suite Key} {sharedSecret : Key} {bytes : Set Bytes}
  {world : Set Key} {identity : Side → IdentityPublicKey} {net net' : SessionNet Key} {s : Side}
  {st : RatchetSession Key} {out : List RatchetMessage} {evs : List (SessionEvent Key)}

/-- What holds at every moment of a run under attack. -/
structure Agreed (C : Suite Key) (sharedSecret : Key) (net : SessionNet Key) : Prop where
  books : ∀ s, EcBooks C.hash sharedSecret (net.node s) (ecKeysUsed (net.log s))
  header : ∀ s, ∀ e ∈ sealedMessages (net.log s), e.message.header = e.header.serialize C.postcard
  opened : ∀ s header plaintext, .opened header plaintext ∈ net.log s →
    ∃ e ∈ sealedMessages (net.log s.other), e.header = header ∧ e.plaintext = plaintext

/-- A step by one party, and what has to be known of it. -/
lemma Agreed.moves (h : Agreed C sharedSecret net) (hmoves : Net.Moves net net' s st out evs)
    (hbooks : EcBooks C.hash sharedSecret st (ecKeysUsed (net.log s ++ evs)))
    (hheader : ∀ e ∈ sealedMessages evs, e.message.header = e.header.serialize C.postcard)
    (hopened : ∀ header plaintext, .opened header plaintext ∈ evs →
      ∃ e ∈ sealedMessages (net.log s.other), e.header = header ∧ e.plaintext = plaintext) :
    Agreed C sharedSecret net' where
  books t := by
    rcases Side.eq_or_eq_other s t with rfl | rfl
    · rw [hmoves.node_self, hmoves.log_self]
      exact hbooks
    · rw [hmoves.node_other, hmoves.log_other]
      exact h.books _
  header t := by
    rcases Side.eq_or_eq_other s t with rfl | rfl
    · rw [hmoves.log_self, sealedMessages_append]
      exact List.forall_mem_append.mpr ⟨h.header _, hheader⟩
    · rw [hmoves.log_other]
      exact h.header _
  opened t header plaintext hmem := by
    rcases Side.eq_or_eq_other s t with rfl | rfl
    · rw [hmoves.log_self] at hmem
      rw [hmoves.log_other]
      exact (List.mem_append.mp hmem).elim (h.opened _ _ _) (hopened _ _)
    · -- the other party has opened no more, and this one has sealed no less
      rw [hmoves.log_other] at hmem
      obtain ⟨e, he, heq⟩ := h.opened _ _ _ hmem
      rw [Side.other_other] at he ⊢
      rw [hmoves.log_self, sealedMessages_append]
      exact ⟨e, List.mem_append_left _ he, heq⟩

variable (hH : C.hash.Free) (hss : ∀ inputs, ¬ C.hash.Computes bytes inputs sharedSecret)
  (hworld : ∀ k ∈ world, ¬ C.hash.OfEcRatchet sharedSecret k) (hW : C.postcard.Correct)

include hH hss hworld hW

/-- **What a party opens was sealed by its peer.** -/
theorem Agreed.of_opened (h : Agreed C sharedSecret net) {message : RatchetMessage}
    {input : SessionInput} (hforged : Unforged C bytes world identity net message.ciphertext)
    {header : MessageHeader Key} {plaintext : Bytes}
    (hmem : .opened header plaintext ∈ ((sessionMachine C).recv (net.node s) message input).2) :
    ∃ e ∈ sealedMessages (net.log s.other), e.header = header ∧ e.plaintext = plaintext := by
  have hT := ecTree hH (fun p hp => (hp.computes bytes).elim hss)
  obtain ⟨hheader, ecMk, s₁, pqMk, padded, hec, hdec, hunpad⟩ := Hushwire.of_opened hmem
  obtain ⟨hkey, hfresh⟩ := (h.books s).of_ecMessageKey hH hT hec
  obtain ⟨t, e, he, haead, -, hpad, had⟩ := hforged ecMk pqMk _ padded hdec
    (hH.not_derives_aeadKey hss hworld hkey pqMk)
  have hbytes := header_eq_of_buildAd had
  -- had the party sealed it itself, it would have taken this EC key before
  have ht : t = s.other := by
    refine Side.eq_other_of_ne ?_
    rintro rfl
    rw [← hH.ecMk_eq_of_aeadKey haead] at hfresh
    exact hfresh (ecMk_mem_ecKeysUsed he)
  subst ht
  refine ⟨e, he, ?_, ?_⟩
  · have hwire := h.header _ e he
    rw [hbytes] at hwire
    rw [hwire, MessageHeader.deserialize_serialize hW] at hheader
    exact Except.ok.inj hheader
  · rw [← hpad, unpad_pad] at hunpad
    exact Except.ok.inj hunpad

lemma Agreed.step (h : Agreed C sharedSecret net) {a : Action SessionInput RatchetMessage}
    (ha : Attacked C bytes world identity net a) :
    Agreed C sharedSecret (net.step (sessionMachine C) a) := by
  have hT := ecTree hH (fun p hp => (hp.computes bytes).elim hss)
  -- both ways for a message to reach a party
  have hrecv : ∀ s message (input : SessionInput) {net'} {out : List RatchetMessage},
      Unforged C bytes world identity net message.ciphertext →
      Net.Moves net net' s ((sessionMachine C).recv (net.node s) message input).1 out
        ((sessionMachine C).recv (net.node s) message input).2 → Agreed C sharedSecret net' := by
    intro s message input net' out hforged hmoves
    refine h.moves hmoves ((ecBooks_inductive hH hT).recv _ _ message input (h.books s)) ?_ ?_
    · rw [sealedMessages_recv]
      exact List.forall_mem_nil _
    · intro header plaintext hmem
      exact h.of_opened hH hss hworld hW hforged hmem
  cases a with
  | send s input =>
      refine h.moves (Net.moves_send net s rfl)
        ((ecBooks_inductive hH hT).send _ _ input (h.books s))
        (header_eq_of_send input) ?_
      intro header plaintext hmem
      exact absurd hmem (opened_notMem_send input header plaintext)
  | deliver s i input =>
      obtain ⟨-, -, hforged⟩ := ha
      cases hm : (net.sent s.other)[i]? with
      | none =>
          rw [Net.step_deliver_none input hm]
          exact h
      | some message =>
          exact hrecv s message input (hforged message hm) (Net.moves_deliver net s hm rfl)
  | inject s message input =>
      obtain ⟨-, -, hforged⟩ := ha
      rw [Net.step_inject]
      refine hrecv s message input hforged (?_ : Net.Moves net _ s _ [] _)
      exact ⟨Net.recvAt_node_self net s message input, Net.recvAt_node_other net s message input,
        (List.append_nil _).symm, rfl, rfl, Net.recvAt_log_self net s message input,
        Net.recvAt_log_other net s message input⟩

end Runs

/-! ## Agreement -/

/-- The header and the plaintext of a message that was opened. -/
def SessionEvent.opened? : SessionEvent Key → Option (MessageHeader Key × Bytes)
  | .opened header plaintext => some (header, plaintext)
  | _ => none

/-- What a session has opened. -/
def openedMessages (log : List (SessionEvent Key)) : List (MessageHeader Key × Bytes) :=
  log.filterMap SessionEvent.opened?

lemma openedPairs_eq_map (log : List (SessionEvent Key)) : openedPairs log =
    (openedMessages log).map (fun p => (p.1.braidMsg.epoch - 1, p.1.pqMessageNumber)) := by
  rw [openedPairs, openedMessages, List.map_filterMap]
  refine List.filterMap_congr ?_
  intro e _
  cases e <;> rfl

section Agreement

variable [DecidableEq Key] {C : Suite Key} {sharedSecret : Key}

/-- **Injective agreement.**  Two parties have sessions with one shared secret, and an attacker who
cannot compute that secret has the network between them, and every key of the world that is not of
their EC ratchet.  Whatever it hands to the parties, as long as it forges no ciphertext under a key
it cannot compute, the messages that a party has opened are messages that its peer has sealed, with
the same headers and plaintexts, each of them once at most.  The two may be linked devices, with one
identity. -/
theorem injective_agreement (hH : C.hash.Free) {bytes : Set Bytes}
    (hss : ∀ inputs, ¬ C.hash.Computes bytes inputs sharedSecret) {world : Set Key}
    (hworld : ∀ k ∈ world, ¬ C.hash.OfEcRatchet sharedSecret k) (hW : C.postcard.Correct)
    {identity : Side → IdentityPublicKey} (rng : Rng) (bobSecret : Bytes)
    (as : List (Action SessionInput RatchetMessage))
    (has : Net.Along (sessionMachine C) (Attacked C bytes world identity)
      (sessionNet C rng sharedSecret bobSecret) as) :
    ∀ s, (openedMessages (((sessionNet C rng sharedSecret bobSecret).run
        (sessionMachine C) as).log s)).Subperm
      ((sealedMessages (((sessionNet C rng sharedSecret bobSecret).run
        (sessionMachine C) as).log s.other)).map (fun e => (e.header, e.plaintext))) := by
  intro s
  have hT := ecTree hH (fun p hp => (hp.computes bytes).elim hss)
  have hstarts : ∀ s, RatchetSession.Starts C sharedSecret s
      ((sessionNet C rng sharedSecret bobSecret).node s) := by
    rintro (_ | _)
    · exact .alice _ _
    · exact .bob _
  have hagreed := Net.run_invariant (P := Agreed C sharedSecret)
    (fun net a h ha => h.step hH hss hworld hW ha) as
    (sessionNet C rng sharedSecret bobSecret)
    ⟨fun s => (hstarts s).ecBooks hH hT [], fun _ => List.forall_mem_nil _,
      fun _ _ _ h => by cases h⟩
    has
  have hlocal := Net.inductive_run (P := SessionLocal C sharedSecret)
    (sessionLocal_inductive C sharedSecret) as (sessionNet C rng sharedSecret bobSecret)
    (fun s => ⟨((hstarts s).spqrHolding []).1, List.Sublist.refl _⟩) s
  generalize (sessionNet C rng sharedSecret bobSecret).run (sessionMachine C) as = net at *
  refine List.Nodup.subperm ?_ ?_
  · have hpairs := hlocal.opened.nodup hlocal.spqr.chains.receiving.nodup
    rw [openedPairs_eq_map] at hpairs
    exact hpairs.of_map _
  · rintro ⟨header, plaintext⟩ hmem
    obtain ⟨e, he, hopened⟩ := List.mem_filterMap.mp hmem
    cases e with
    | opened header' plaintext' =>
        obtain ⟨rfl, rfl⟩ := Prod.mk.inj (Option.some.inj hopened)
        obtain ⟨sealed, hsealed, rfl, rfl⟩ := hagreed.opened s _ _ he
        exact List.mem_map.mpr ⟨sealed, hsealed, rfl⟩
    | _ => cases hopened

end Agreement

/-! ## An instance -/

/-- What a party sealed is not forged. -/
lemma unforged_of_sealed {bytes : Set Bytes} {world : Set ℕ} {identity : Side → IdentityPublicKey}
    {net : SessionNet ℕ} {t : Side} {e : SealedMessage ℕ} (he : e ∈ sealedMessages (net.log t))
    (hsealed : e.SealedFor freeSuite (identity t) (identity t.other)) :
    Unforged freeSuite bytes world identity net e.message.ciphertext := by
  intro ecMk pqMk ad padded hdec _
  obtain ⟨rng, hheader, henc⟩ := hsealed
  obtain ⟨hkey, hpadded, had⟩ := Ideal.eq_of_aead_decrypt henc hdec
  refine ⟨t, e, he, hkey, rfl, hpadded, ?_⟩
  rw [hheader]
  exact had

/-- A message that Alice sends right after the handshake is not forged. -/
lemma attacked_first_message {net : SessionNet ℕ} (identity : Side → IdentityPublicKey)
    (hpending : (net.node .alice).pendingPrekey = none) (hsent : net.sent .alice = [])
    {input input' : SessionInput}
    (hinput : input.identity = identity .alice ∧ input.peerIdentity = identity .bob)
    (hinput' : input'.identity = identity .bob ∧ input'.peerIdentity = identity .alice) :
    Net.Along (sessionMachine freeSuite) (Attacked freeSuite Set.univ ∅ identity) net
      [.send .alice input, .deliver .bob 0 input'] := by
  obtain ⟨s', om, evs, hcall⟩ : ∃ s' om evs,
      (sessionMachine freeSuite).send (net.node .alice) input = (s', om, evs) := ⟨_, _, _, rfl⟩
  have hreport := sendReport hpending hcall
  have hmoves := Net.moves_send net .alice hcall
  refine ⟨hinput, ⟨hinput'.1, hinput'.2, ?_⟩, trivial⟩
  intro message hmessage
  have hmessage' : ((net.step (sessionMachine freeSuite) (.send .alice input)).sent .alice)[0]? =
      some message := hmessage
  rw [hmoves.sent_self, hsent, List.nil_append, hreport.sent] at hmessage'
  obtain ⟨e, he, rfl⟩ := List.mem_map.mp (List.mem_of_getElem? hmessage')
  have hlog : e ∈ sealedMessages
      ((net.step (sessionMachine freeSuite) (.send .alice input)).log .alice) := by
    rw [hmoves.log_self, sealedMessages_append]
    exact List.mem_append_right _ he
  refine unforged_of_sealed hlog ?_
  have hsealed := hreport.sealedFor e he
  rwa [hinput.1, hinput.2] at hsealed

/-- Alice's first message, which Bob opens, between two linked devices. -/
theorem injective_agreement_first_message :
    let net := (sessionNet freeSuite (constRng 1) 0 idealSecret).run (sessionMachine freeSuite)
      [.send .alice ⟨zeroRng, [], [], [7]⟩, .deliver .bob 0 ⟨constRng 2, [], [], []⟩]
    (∃ header, (header, [7]) ∈ openedMessages (net.log .bob)) ∧
      (openedMessages (net.log .bob)).Subperm
        ((sealedMessages (net.log .alice)).map (fun e => (e.header, e.plaintext))) := by
  intro net
  refine ⟨?_, injective_agreement (C := freeSuite) Ideal.freeHash_free
    (Ideal.freeHash_not_computes Nat.two_pos Set.univ) (fun k hk => absurd hk (Set.notMem_empty k))
    Ideal.postcard_correct _ _ _
    (attacked_first_message (fun _ => []) rfl rfl ⟨rfl, rfl⟩ ⟨rfl, rfl⟩) .bob⟩
  obtain ⟨_, message, _, evs, _, evs', header, hsend, -, hreceive, -, hopened, -⟩ :=
    free_exchange ⟨zeroRng, [], [], [7]⟩ ⟨constRng 2, [], [], []⟩ rfl rfl
  have hmoves := Net.moves_send (sessionNet freeSuite (constRng 1) 0 idealSecret) .alice hsend
  have hmoves' := Net.moves_deliver _ .bob (i := 0)
    (congrArg (·[0]?) hmoves.sent_self) ((congrArg (fun st => (sessionMachine freeSuite).recv st
      message ⟨constRng 2, [], [], []⟩) hmoves.node_other).trans hreceive)
  refine ⟨header, List.mem_filterMap.mpr ⟨.opened header [7], ?_, rfl⟩⟩
  show _ ∈ net.log .bob
  rw [show net.log .bob = _ from hmoves'.log_self]
  exact List.mem_append_right _ hopened

end Hushwire
