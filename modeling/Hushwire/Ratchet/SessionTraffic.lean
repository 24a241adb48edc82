import Hushwire.Ratchet.Turns

/-!
# Sessions and what they exchange

What a call on a session adds to the records of the network, in one statement for a send and one
for a delivery (`SendReport`, `RecvReport`), and what follows for the two halves of the ratchet in
runs on an honest network, every step of which is one of the two or none (`SessionStep`):

* `InTurn` — the Diffie-Hellman ratchets of the two parties take turns;
* `Shadowed` — the SPQR states inside the sessions are those of a run of two SPQR states, in which a
  message that the EC ratchet refused, or that was never sealed, is lost.

`SessionInvariant` puts both together with what is known of the messages, and
`sessionInvariant_run` says that it holds in every run in which no message is delivered twice, no
key pair is drawn twice and no store of skipped keys fills up.
-/

namespace Hushwire

open Duplex RatchetSession

variable {Key : Type}

/-! ## Calls -/

/-- The SPQR half of a sealed message: what the SPQR state derived for it. -/
def SealedMessage.derived (e : SealedMessage Key) : Message × ℕ × Key :=
  (e.header.braidMsg, e.header.pqMessageNumber, e.pqMk)

/-- The ciphertext was made from the plaintext, with the hybrid of both keys and the header and both
identities as associated data. -/
def SealedMessage.SealedFor (C : Suite Key) (sender recipient : IdentityPublicKey)
    (e : SealedMessage Key) : Prop :=
  ∃ rng, e.message.header = e.header.serialize C.postcard ∧
    Aead.encrypt C.hash C.xchacha rng (C.hash.kdfHybrid e.ecMk e.pqMk) (pad e.plaintext)
      (buildAd C sender recipient (e.header.serialize C.postcard)) = .ok e.message.ciphertext

@[simp] lemma sealedMessages_append (log log' : List (SessionEvent Key)) :
    sealedMessages (log ++ log') = sealedMessages log ++ sealedMessages log' :=
  List.filterMap_append

@[simp] lemma sealedMessages_map (evs : List (SpqrEvent Key)) :
    sealedMessages (evs.map .spqr) = [] := by
  simp [sealedMessages, SessionEvent.sealed?]

/-- What a send reports that seals a message. -/
lemma sealedMessages_sealed (evs : List (SpqrEvent Key)) (header : MessageHeader Key)
    (ecMk pqMk : Key) (plaintext : Bytes) (message : RatchetMessage) :
    sealedMessages (evs.map .spqr ++ [.sealed header ecMk pqMk plaintext message]) =
      [⟨header, ecMk, pqMk, plaintext, message⟩] := by
  rw [sealedMessages_append, sealedMessages_map]
  rfl

/-- What a send adds to the records. -/
structure SendReport (C : Suite Key) (s : RatchetSession Key) (input : SessionInput)
    (s' : RatchetSession Key) (om : Option RatchetMessage) (evs : List (SessionEvent Key)) :
    Prop where
  ec : EcSends C.hash s s' (sealedMessages evs)
  sent : om.toList = (sealedMessages evs).map SealedMessage.message
  noKey : evs.filterMap SessionEvent.ownKey? = []
  spqr : s'.spqr = ((spqrMachine C.toPrims).send s.spqr input.rng).1
  spqrLog_eq : spqrLog evs = ((spqrMachine C.toPrims).send s.spqr input.rng).2.2
  derived : ((sealedMessages evs).map SealedMessage.derived).Sublist (derivedKeys (spqrLog evs))
  sealedFor : ∀ e ∈ sealedMessages evs, e.SealedFor C input.identity input.peerIdentity

/-- A send of the SPQR state that yields a key reports it. -/
lemma derivedKeys_send {P : Prims Key} {st st' : SpqrState Key} {rng : Rng} {m : Message} {n : ℕ}
    {key : Key} (h : st.ratchetSendKey P rng = (.ok (m, n, key), st')) :
    derivedKeys ((spqrMachine P).send st rng).2.2 = [(m, n, key)] := by
  simp only [spqrMachine, h, derivedKeys, List.filterMap_append]
  simp [SpqrEvent.derived?]

/-- A send that seals nothing. -/
lemma SendReport.of_silent {C : Suite Key} {s s' : RatchetSession Key} {input : SessionInput}
    (hec : EcSends C.hash s s' [])
    (hspqr : s'.spqr = ((spqrMachine C.toPrims).send s.spqr input.rng).1) :
    SendReport C s input s' none
      (((spqrMachine C.toPrims).send s.spqr input.rng).2.2.map .spqr) := by
  have hsealed := sealedMessages_map ((spqrMachine C.toPrims).send s.spqr input.rng).2.2
  refine ⟨hsealed.symm ▸ hec, ?_, ?_, hspqr, spqrLog_map _, ?_, ?_⟩
  · rw [hsealed]
    rfl
  · simp [SessionEvent.ownKey?]
  · rw [hsealed]
    exact List.nil_sublist _
  · rw [hsealed]
    exact List.forall_mem_nil _

section Calls

variable [DecidableEq Key] {C : Suite Key} {s s' : RatchetSession Key} {input : SessionInput}
  {om : Option RatchetMessage} {evs : List (SessionEvent Key)}

lemma sendReport (hpending : s.pendingPrekey = none)
    (hcall : (sessionMachine C).send s input = (s', om, evs)) :
    SendReport C s input s' om evs := by
  obtain ⟨om', own, hcall', hown⟩ := sessionMachine_send (C := C) input hpending
  have hspqr := (sendKeys_spqr C input.rng s).trans (spqrMachine_send_fst _ _ _).symm
  have hlog : spqrLog evs = ((spqrMachine C.toPrims).send s.spqr input.rng).2.2 := by
    rw [← spqrLog_send input hpending, hcall]
  obtain ⟨r, spqr, hsend, ⟨⟨e, hkeys⟩, -⟩ | ⟨m, pqN, pqMk, c, rfl, hc, hkeys⟩⟩ :=
    sendKeys_eq C input.rng s
  · -- no keys, no message
    rw [hkeys] at hcall' hown hspqr
    rcases hown with ⟨rfl, rfl⟩ | ⟨_, _, _, _, hok, -⟩
    · obtain ⟨rfl, heq⟩ := Prod.mk.inj (hcall.symm.trans hcall')
      obtain ⟨rfl, rfl⟩ := Prod.mk.inj heq
      rw [List.append_nil]
      exact .of_silent (.quiet spqr) hspqr
    · cases hok
  · rw [hkeys] at hcall' hown hspqr
    obtain ⟨rfl, heq⟩ := Prod.mk.inj (hcall.symm.trans hcall')
    obtain ⟨rfl, rfl⟩ := Prod.mk.inj heq
    rcases hown with ⟨rfl, rfl⟩ | ⟨header, ecMk, pqMk', ciphertext, hok, haead, rfl, rfl⟩
    · rw [List.append_nil]
      exact .of_silent (.lost spqr hc) hspqr
    · obtain ⟨hheader, hparts⟩ := Prod.mk.inj (Except.ok.inj hok)
      obtain ⟨rfl, rfl⟩ := Prod.mk.inj hparts
      subst hheader
      have hsealed : ∀ header ecMk plaintext message,
          sealedMessages (((spqrMachine C.toPrims).send s.spqr input.rng).2.2.map .spqr ++
            [.sealed header ecMk pqMk plaintext message]) =
            [⟨header, ecMk, pqMk, plaintext, message⟩] := by
        intro header ecMk plaintext message
        rw [sealedMessages_append, sealedMessages_map]
        rfl
      refine ⟨?_, ?_, ?_, hspqr, hlog, ?_, ?_⟩
      · rw [hsealed]
        exact .sealed spqr hc _ _ _ _ _
      · rw [hsealed]
        rfl
      · simp [SessionEvent.ownKey?]
      · rw [hsealed, hlog, derivedKeys_send hsend]
        exact List.Sublist.refl _
      · rw [hsealed]
        intro e he
        obtain rfl := List.mem_singleton.mp he
        exact ⟨input.rng, rfl, haead⟩

/-- What a delivery of a message with the given header adds to the records; `r` and `s₁` are what
the EC ratchet makes of it. -/
structure RecvReport (C : Suite Key) (s : RatchetSession Key)
    (header : MessageHeader Key) (rng : Rng)
    (r : Result Key) (s₁ s' : RatchetSession Key) (evs : List (SessionEvent Key)) : Prop where
  ec : s.ecMessageKey C rng header = (r, s₁)
  node : s' = { s₁ with spqr := s'.spqr }
  quiet : sealedMessages evs = []
  keys : evs.filterMap SessionEvent.ownKey? =
    if s₁.dhRemote = s.dhRemote then [] else [s₁.dhSelfPublic]
  spqr : s'.spqr = s.spqr ∧ spqrLog evs = [] ∨
    s'.spqr = ((spqrMachine C.toPrims).recv s.spqr
        (header.braidMsg, header.pqMessageNumber) rng).1 ∧
      spqrLog evs = ((spqrMachine C.toPrims).recv s.spqr
        (header.braidMsg, header.pqMessageNumber) rng).2

lemma ratchetEvents_records (header : MessageHeader Key) (remote : Option Key) (own : Key) :
    sealedMessages (ratchetEvents C header s remote own) = [] ∧
      (ratchetEvents C header s remote own).filterMap SessionEvent.ownKey? =
        if remote = s.dhRemote then [] else [own] := by
  unfold ratchetEvents
  split
  · exact ⟨rfl, rfl⟩
  · exact ⟨rfl, rfl⟩

lemma recvReport {message : RatchetMessage} {header : MessageHeader Key}
    (hheader : MessageHeader.deserialize C.postcard message.header = .ok header)
    (hcall : (sessionMachine C).recv s message input = (s', evs)) :
    ∃ r s₁, RecvReport C s header input.rng r s₁ s' evs := by
  rcases sessionMachine_recv (C := C) (s := s) message input with ⟨⟨e, hgarbled⟩, -⟩ |
    ⟨header', hheader', hcases⟩
  · rw [hheader] at hgarbled
    cases hgarbled
  obtain rfl := Except.ok.inj (hheader.symm.trans hheader')
  rcases hcases with ⟨e, s₁, hec, hcall'⟩ | ⟨ecMk, s₁, own, hec, hcall', hown⟩
  · obtain ⟨rfl, rfl⟩ := Prod.mk.inj (hcall.symm.trans hcall')
    obtain ⟨hsealed, hkeys⟩ := ratchetEvents_records (C := C) (s := s) header s'.dhRemote
      s'.dhSelfPublic
    exact ⟨_, s', hec, rfl, hsealed, hkeys, .inl ⟨(Resolves.of_eq hec).spqr.1,
      (ratchetEvents_quiet header s s'.dhRemote s'.dhSelfPublic).1⟩⟩
  · obtain ⟨rfl, rfl⟩ := Prod.mk.inj (hcall.symm.trans hcall')
    obtain ⟨hsealed, hkeys⟩ := ratchetEvents_records (C := C) (s := s) header s₁.dhRemote
      s₁.dhSelfPublic
    have hown' : sealedMessages own = [] ∧ own.filterMap SessionEvent.ownKey? = [] ∧
        spqrLog own = [] := by
      rcases hown with rfl | ⟨_, _, _, -, rfl⟩
      · exact ⟨rfl, rfl, rfl⟩
      · exact ⟨rfl, rfl, rfl⟩
    refine ⟨_, s₁, hec, rfl, ?_, ?_, .inr ⟨rfl, ?_⟩⟩
    · rw [sealedMessages_append, hsealed, List.nil_append]
      show sealedMessages (_ ++ own) = []
      rw [sealedMessages_append, sealedMessages_map, hown'.1, List.append_nil]
    · rw [List.filterMap_append, hkeys]
      show _ ++ List.filterMap SessionEvent.ownKey? (_ ++ own) = _
      rw [List.filterMap_append, hown'.2.1]
      simp [SessionEvent.ownKey?]
    · exact spqrLog_keyed _ _ _ _ _ _ _ hown'.2.2

end Calls

/-! ## Taking turns on the network -/

/-- The message with this ratchet key and number has been delivered to `s`. -/
def Taken (net : SessionNet Key) (s : Side) (dh : Key) (n : ℕ) : Prop :=
  ∃ j ∈ net.got s, ∃ e, (sealedMessages (net.log s.other))[j]? = some e ∧ e.dh = dh ∧ e.number = n

/-- The public keys of a party: the one it started with and those it has drawn. -/
def ownKeys (first : Key) (log : List (SessionEvent Key)) : List Key :=
  first :: log.filterMap SessionEvent.ownKey?

lemma ownKeys_append (first : Key) (log log' : List (SessionEvent Key)) :
    ownKeys first (log ++ log') = ownKeys first log ++ log'.filterMap SessionEvent.ownKey? := by
  rw [ownKeys, ownKeys, List.filterMap_append, List.cons_append]

/-- A sealed message keeps its position. -/
lemma getElem?_sealedMessages {net net' : SessionNet Key} {s : Side} (h : Net.Grows net net' s)
    {i : ℕ} {e : SealedMessage Key} (he : (sealedMessages (net.log s))[i]? = some e) :
    (sealedMessages (net'.log s))[i]? = some e := by
  obtain ⟨more, hmore⟩ := h.log
  rw [← hmore, sealedMessages_append, List.getElem?_append_left (List.getElem?_eq_some_iff.mp he).1]
  exact he

lemma Taken.grows {net net' : SessionNet Key} {s : Side} {dh : Key} {n : ℕ}
    (h : Taken net s dh n) (hs : Net.Grows net net' s) (hother : Net.Grows net net' s.other) :
    Taken net' s dh n := by
  obtain ⟨j, hj, e, he, hdh, hn⟩ := h
  exact ⟨j, hs.got.subset hj, e, getElem?_sealedMessages hother he, hdh, hn⟩

section Network

variable {C : Suite Key} {first : Side → Key} {net net' : SessionNet Key} {s : Side}
  {s' : RatchetSession Key} {input : SessionInput} {om : Option RatchetMessage}
  {evs : List (SessionEvent Key)} {p : Party Key}

/-- The party is the one on side `s` of the network. -/
structure Party.At (first : Side → Key) (net : SessionNet Key) (s : Side) (p : Party Key) :
    Prop where
  node : p.node = net.node s
  sealed : p.sealed = sealedMessages (net.log s)
  taken : ∀ dh n, p.taken dh n → Taken net s dh n
  keys : p.keys = ownKeys (first s) (net.log s)

/-- The party that does not move. -/
lemma Party.At.other {sent : List RatchetMessage} (hp : p.At first net s.other)
    (hmoves : Net.Moves net net' s s' sent evs) (hgrows : ∀ t, Net.Grows net net' t) :
    p.At first net' s.other where
  node := hp.node.trans hmoves.node_other.symm
  sealed := by rw [hp.sealed, hmoves.log_other]
  taken dh n h := (hp.taken dh n h).grows (hgrows _) (hgrows _)
  keys := by rw [hp.keys, hmoves.log_other]

lemma Party.At.send (hp : p.At first net s) (hmoves : Net.Moves net net' s s' om.toList evs)
    (hgrows : ∀ t, Net.Grows net net' t) (hreport : SendReport C (net.node s) input s' om evs) :
    (p.send s' (sealedMessages evs)).At first net' s where
  node := hmoves.node_self.symm
  sealed := by
    rw [hmoves.log_self, sealedMessages_append, ← hp.sealed]
    rfl
  taken dh n h := (hp.taken dh n h).grows (hgrows _) (hgrows _)
  keys := by
    rw [hmoves.log_self, ownKeys_append, hreport.noKey, List.append_nil, ← hp.keys, Party.keys,
      Party.keys, hp.node]
    exact congrArg (fun key => p.older ++ [key]) hreport.ec.dhSelfPublic_eq

/-- A message that has not been delivered has not been taken: no other message has its key and
number. -/
lemma Party.At.not_taken {q : Party Key} {i : ℕ} {e : SealedMessage Key} (hp : p.At first net s)
    (hq : q.At first net s.other) (hdistinct : (q.sealed.map (fun e => (e.dh, e.number))).Nodup)
    (he : (sealedMessages (net.log s.other))[i]? = some e) (hi : i ∉ net.got s) :
    ¬ p.taken e.dh e.number := by
  intro htaken
  obtain ⟨j, hj, e', he', hdh, hn⟩ := hp.taken _ _ htaken
  rw [← hq.sealed] at he he'
  have hlt : j < (q.sealed.map (fun e => (e.dh, e.number))).length := by
    rw [List.length_map]
    exact (List.getElem?_eq_some_iff.mp he').1
  have heq : j = i := by
    refine (List.getElem?_inj hlt hdistinct).mp ?_
    rw [List.getElem?_map, List.getElem?_map, he, he', Option.map_some, Option.map_some, hdh, hn]
  exact hi (heq ▸ hj)

variable [DecidableEq Key]

/-- One of the two parties is ahead of the other. -/
def InTurn (C : Suite Key) (first : Side → Key) (net : SessionNet Key) : Prop :=
  ∃ ahead P Q, P.At first net ahead ∧ Q.At first net ahead.other ∧ Turn C P Q

/-- A send keeps the roles. -/
lemma InTurn.send (h : InTurn C first net) (hmoves : Net.Moves net net' s s' om.toList evs)
    (hgrows : ∀ t, Net.Grows net net' t) (hreport : SendReport C (net.node s) input s' om evs) :
    InTurn C first net' := by
  obtain ⟨ahead, P, Q, hP, hQ, hturn⟩ := h
  rcases Side.eq_or_eq_other s ahead with rfl | rfl
  · refine ⟨ahead, _, Q, hP.send hmoves hgrows hreport, hQ.other hmoves hgrows, ?_⟩
    refine hturn.send_ahead ?_
    rw [hP.node]
    exact hreport.ec
  · rw [Side.other_other] at hQ
    refine ⟨s.other, P, Q.send s' (sealedMessages evs), hP.other hmoves hgrows, ?_, ?_⟩
    · rw [Side.other_other]
      exact hQ.send hmoves hgrows hreport
    · refine hturn.send_behind ?_
      rw [hQ.node]
      exact hreport.ec

section Deliveries

variable {i : ℕ} {e : SealedMessage Key} {r : Result Key} {rng : Rng} {s₁ : RatchetSession Key}
  {spqr : SpqrState Key} (book' : Book Key)

lemma Party.At.receive (hp : p.At first net s)
    (hmoves : Net.Moves net net' s { s₁ with spqr } [] evs)
    (hreport : RecvReport C (net.node s) e.header rng r s₁ { s₁ with spqr } evs)
    (hsame : SameRatchet (net.node s) s₁) :
    (p.receive { s₁ with spqr } book' (Taken net' s)).At first net' s where
  node := hmoves.node_self.symm
  sealed := by
    rw [hmoves.log_self, sealedMessages_append, hreport.quiet, List.append_nil, ← hp.sealed]
    rfl
  taken _ _ h := h
  keys := by
    obtain ⟨c, store, spqr', rfl⟩ := hsame
    rw [hmoves.log_self, ownKeys_append, hreport.keys, if_pos rfl, List.append_nil, ← hp.keys,
      Party.keys, Party.keys, hp.node]
    rfl

lemma Party.At.ratchet (hp : p.At first net s)
    (hmoves : Net.Moves net net' s { s₁ with spqr } [] evs)
    (hreport : RecvReport C (net.node s) e.header rng r s₁ { s₁ with spqr } evs)
    (hstepped : s₁.dhRemote ≠ (net.node s).dhRemote) :
    (p.ratchet { s₁ with spqr } book' (Taken net' s)).At first net' s where
  node := hmoves.node_self.symm
  sealed := by
    rw [hmoves.log_self, sealedMessages_append, hreport.quiet, List.append_nil, ← hp.sealed]
    rfl
  taken _ _ h := h
  keys := by
    rw [hmoves.log_self, ownKeys_append, hreport.keys, if_neg hstepped, ← hp.keys]
    rfl

/-- A delivery of a message that has not been delivered before. -/
lemma InTurn.receive (hX : C.x25519.Commutes) (h : InTurn C first net)
    (hmoves : Net.Moves net net' s s' [] evs) (hgrows : ∀ t, Net.Grows net net' t)
    (hfresh : ∀ t, (ownKeys (first t) (net'.log t)).Nodup)
    (he : (sealedMessages (net.log s.other))[i]? = some e) (hi : i ∉ net.got s)
    (hgot : i ∈ net'.got s) (hreport : RecvReport C (net.node s) e.header rng r s₁ s' evs)
    (hlen : s'.skipped.len < maxSkip) :
    Resolved (net.node s) e r ∧ InTurn C first net' := by
  have hec := Resolves.of_eq hreport.ec
  have hlen₁ : s₁.skipped.len < maxSkip := by
    rw [hreport.node] at hlen
    exact hlen
  have htaken : Taken net' s e.dh e.number :=
    ⟨i, hgot, e, getElem?_sealedMessages (hgrows _) he, rfl, rfl⟩
  obtain ⟨spqr, rfl⟩ : ∃ spqr, s' = { s₁ with spqr } := ⟨_, hreport.node⟩
  obtain ⟨ahead, P, Q, hP, hQ, hturn⟩ := h
  rcases Side.eq_or_eq_other s ahead with rfl | rfl
  · have hnew := hP.not_taken hQ hturn.behind.distinct he hi
    have hmem : e ∈ Q.sealed := hQ.sealed ▸ List.mem_of_getElem? he
    rw [← hP.node] at hec
    obtain ⟨hresolved, hsame, book', hturn'⟩ := hturn.receive_ahead hmem hnew
      (fun d n htaken => (hP.taken d n htaken).grows (hgrows _) (hgrows _)) htaken hec hlen₁ spqr
    rw [hP.node] at hresolved hsame
    exact ⟨hresolved, ahead, _, Q, hP.receive book' hmoves hreport hsame, hQ.other hmoves hgrows,
      hturn'⟩
  · rw [Side.other_other] at hQ
    have hnew := hQ.not_taken hP hturn.ahead.distinct he hi
    have hmem : e ∈ P.sealed := hP.sealed ▸ List.mem_of_getElem? he
    rw [← hQ.node] at hec
    have hP' : P.At first net' s.other := hP.other hmoves hgrows
    have hnodup : P.keys.Nodup := by
      rw [hP'.keys]
      exact hfresh _
    have hdrawn : s₁.dhRemote ≠ Q.node.dhRemote → s₁.dhSelfPublic ∉ Q.keys := by
      intro hstepped hmem
      rw [hQ.node] at hstepped
      have hkeys := (hQ.ratchet Q.book hmoves hreport hstepped).keys
      have hnodup' := hfresh s
      rw [← hkeys] at hnodup'
      exact Party.dhSelfPublic_notMem_older hnodup' hmem
    obtain ⟨hresolved, ⟨hsame, book', hturn'⟩ | ⟨hstepped, book', hturn'⟩⟩ :=
      hturn.receive_behind hX hnodup hmem hnew
        (fun d n htaken => (hQ.taken d n htaken).grows (hgrows _) (hgrows _)) htaken hec
          hlen₁ hdrawn spqr
    · rw [hQ.node] at hresolved hsame
      refine ⟨hresolved, s.other, P, _, hP', ?_, hturn'⟩
      rw [Side.other_other]
      exact hQ.receive book' hmoves hreport hsame
    · rw [hQ.node] at hresolved hstepped
      exact ⟨hresolved, s, _, P, hQ.ratchet book' hmoves hreport hstepped, hP', hturn'⟩

end Deliveries

end Network

/-! ## The SPQR states and the messages -/

/-- A receive accepts at most what it was handed. -/
lemma eq_of_mem_acceptedPairs_recv {P : Prims Key} {st : SpqrState Key} {m : Message} {n : ℕ}
    {rng : Rng} {pair : ℕ × ℕ} (h : pair ∈ acceptedPairs ((spqrMachine P).recv st (m, n) rng).2) :
    pair = (m.epoch - 1, n) := by
  rw [acceptedPairs_recv] at h
  split at h
  · exact List.mem_singleton.mp h
  · cases h

section Traffic

variable {C : Suite Key} {sharedSecret : Key} {identity : Side → IdentityPublicKey}
  {net net' : SessionNet Key} {s : Side} {s' : RatchetSession Key} {input : SessionInput}
  {om : Option RatchetMessage} {evs : List (SessionEvent Key)}
  {bs : List (Action Rng (Message × ℕ))}

/-- The SPQR states inside the sessions and what they report are those of the run `bs` of two SPQR
states. -/
structure Shadowed (C : Suite Key) (sharedSecret : Key) (net : SessionNet Key)
    (bs : List (Action Rng (Message × ℕ))) : Prop where
  honest : ∀ b ∈ bs, b.Honest
  node : ∀ s, ((spqrNet C.toPrims sharedSecret).run (spqrMachine C.toPrims) bs).node s =
    (net.node s).spqr
  log : ∀ s, ((spqrNet C.toPrims sharedSecret).run (spqrMachine C.toPrims) bs).log s =
    spqrLog (net.log s)

lemma Shadowed.send (h : Shadowed C sharedSecret net bs)
    (hmoves : Net.Moves net net' s s' om.toList evs)
    (hreport : SendReport C (net.node s) input s' om evs) :
    Shadowed C sharedSecret net' (bs ++ [.send s input.rng]) := by
  refine ⟨?_, ?_, ?_⟩
  · exact List.forall_mem_append.mpr ⟨h.honest, List.forall_mem_singleton.mpr trivial⟩
  · rw [Net.run_append]
    refine Net.forall_side s ?_ ?_
    · rw [hmoves.node_self, hreport.spqr, ← h.node s]
      exact Net.sendAt_node_self _ _ _
    · rw [hmoves.node_other, ← h.node s.other]
      exact Net.sendAt_node_other _ _ _
  · rw [Net.run_append]
    refine Net.forall_side s ?_ ?_
    · rw [hmoves.log_self, spqrLog_append, hreport.spqrLog_eq, ← h.log s, ← h.node s]
      exact Net.sendAt_log_self _ _ _
    · rw [hmoves.log_other, ← h.log s.other]
      exact Net.sendAt_log_other _ _ _

/-- A delivery is one of the SPQR states too, if it gets that far. -/
lemma Shadowed.receive [DecidableEq Key] (h : Shadowed C sharedSecret net bs)
    (hmoves : Net.Moves net net' s s' [] evs) {e : SealedMessage Key} {rng : Rng} {r : Result Key}
    {s₁ : RatchetSession Key} (he : e.derived ∈ derivedKeys (spqrLog (net.log s.other)))
    (hreport : RecvReport C (net.node s) e.header rng r s₁ s' evs) :
    ∃ bs', Shadowed C sharedSecret net' bs' := by
  rcases hreport.spqr with ⟨hspqr, hlog⟩ | ⟨hspqr, hlog⟩
  · refine ⟨bs, h.honest, ?_, ?_⟩
    · refine Net.forall_side s ?_ ?_
      · rw [hmoves.node_self, hspqr, h.node]
      · rw [hmoves.node_other, h.node]
    · refine Net.forall_side s ?_ ?_
      · rw [hmoves.log_self, spqrLog_append, hlog, List.append_nil, h.log]
      · rw [hmoves.log_other, h.log]
  · obtain ⟨j, hj⟩ : ∃ j, (((spqrNet C.toPrims sharedSecret).run (spqrMachine C.toPrims)
        bs).sent s.other)[j]? = some (e.header.braidMsg, e.header.pqMessageNumber) := by
      refine List.mem_iff_getElem?.mp ?_
      rw [sent_eq_derivedKeys, h.log]
      exact List.mem_map.mpr ⟨_, he, rfl⟩
    refine ⟨bs ++ [.deliver s j rng], ?_, ?_, ?_⟩
    · exact List.forall_mem_append.mpr ⟨h.honest, List.forall_mem_singleton.mpr trivial⟩
    · rw [Net.run_append, Net.run_cons, Net.run_nil, Net.step_deliver_some rng hj]
      refine Net.forall_side s ?_ ?_
      · rw [hmoves.node_self, hspqr, ← h.node s]
        exact Net.recvAt_node_self _ _ _ _
      · rw [hmoves.node_other, ← h.node s.other]
        exact Net.recvAt_node_other _ _ _ _
    · rw [Net.run_append, Net.run_cons, Net.run_nil, Net.step_deliver_some rng hj]
      refine Net.forall_side s ?_ ?_
      · rw [hmoves.log_self, spqrLog_append, hlog, ← h.log s, ← h.node s]
        exact Net.recvAt_log_self _ _ _ _
      · rw [hmoves.log_other, ← h.log s.other]
        exact Net.recvAt_log_other _ _ _ _

/-- What holds of the messages and of the SPQR states in every run on an honest network. -/
structure Traffic (C : Suite Key) (sharedSecret : Key) (identity : Side → IdentityPublicKey)
    (net : SessionNet Key) : Prop where
  pendingPrekey : ∀ s, (net.node s).pendingPrekey = none
  sent : ∀ s, net.sent s = (sealedMessages (net.log s)).map SealedMessage.message
  sealedFor : ∀ s, ∀ e ∈ sealedMessages (net.log s), e.SealedFor C (identity s) (identity s.other)
  derived : ∀ s, ((sealedMessages (net.log s)).map SealedMessage.derived).Sublist
    (derivedKeys (spqrLog (net.log s)))
  accepted : ∀ s, ∀ pair ∈ acceptedPairs (spqrLog (net.log s)), ∃ j ∈ net.got s, ∃ e,
    (sealedMessages (net.log s.other))[j]? = some e ∧
      pair = (e.header.braidMsg.epoch - 1, e.header.pqMessageNumber)
  shadow : ∃ bs, Shadowed C sharedSecret net bs

/-- What holds of an SPQR state in every run holds of those inside the sessions. -/
lemma Traffic.spqrLocal (h : Traffic C sharedSecret identity net) (s : Side) :
    SpqrLocal C.toPrims sharedSecret s (net.node s).spqr (spqrLog (net.log s)) := by
  obtain ⟨bs, hbs⟩ := h.shadow
  rw [← hbs.node, ← hbs.log]
  exact spqrLocal_run C.toPrims sharedSecret bs s

/-- What was accepted before was delivered before. -/
lemma Traffic.accepted_grows (h : Traffic C sharedSecret identity net)
    (hgrows : ∀ t, Net.Grows net net' t) (t : Side) {pair : ℕ × ℕ}
    (hpair : pair ∈ acceptedPairs (spqrLog (net.log t))) : ∃ j ∈ net'.got t, ∃ e,
      (sealedMessages (net'.log t.other))[j]? = some e ∧
        pair = (e.header.braidMsg.epoch - 1, e.header.pqMessageNumber) := by
  obtain ⟨j, hj, e, he, heq⟩ := h.accepted t pair hpair
  exact ⟨j, (hgrows t).got.subset hj, e, getElem?_sealedMessages (hgrows _) he, heq⟩

lemma Traffic.send [DecidableEq Key] (h : Traffic C sharedSecret identity net)
    (hmoves : Net.Moves net net' s s' om.toList evs) (hgrows : ∀ t, Net.Grows net net' t)
    (hidentity : input.identity = identity s) (hpeer : input.peerIdentity = identity s.other)
    (hreport : SendReport C (net.node s) input s' om evs) :
    Traffic C sharedSecret identity net' := by
  obtain ⟨bs, hbs⟩ := h.shadow
  refine ⟨?_, ?_, ?_, ?_, ?_, _, hbs.send hmoves hreport⟩
  · refine Net.forall_side s ?_ ?_
    · rw [hmoves.node_self]
      rcases hreport.ec.cases with ⟨_, rfl, -⟩ | ⟨_, _, -, rfl, -⟩
      · exact h.pendingPrekey s
      · exact h.pendingPrekey s
    · rw [hmoves.node_other, h.pendingPrekey]
  · refine Net.forall_side s ?_ ?_
    · rw [hmoves.sent_self, hmoves.log_self, sealedMessages_append, List.map_append, h.sent,
        hreport.sent]
    · rw [hmoves.sent_other, hmoves.log_other, h.sent]
  · refine Net.forall_side s ?_ ?_
    · rw [hmoves.log_self, sealedMessages_append]
      refine List.forall_mem_append.mpr ⟨h.sealedFor s, ?_⟩
      rw [← hidentity, ← hpeer]
      exact hreport.sealedFor
    · rw [hmoves.log_other]
      exact h.sealedFor s.other
  · refine Net.forall_side s ?_ ?_
    · rw [hmoves.log_self, sealedMessages_append, List.map_append, spqrLog_append, derivedKeys,
        List.filterMap_append]
      exact (h.derived s).append hreport.derived
    · rw [hmoves.log_other]
      exact h.derived s.other
  · refine Net.forall_side s ?_ ?_
    · intro pair hpair
      rw [hmoves.log_self, spqrLog_append, acceptedPairs_append, hreport.spqrLog_eq,
        acceptedPairs_send, List.append_nil] at hpair
      exact h.accepted_grows hgrows s hpair
    · intro pair hpair
      rw [hmoves.log_other] at hpair
      exact h.accepted_grows hgrows s.other hpair

/-- The message at a position of the peer's list. -/
lemma Traffic.exists_sealed (h : Traffic C sharedSecret identity net) {i : ℕ}
    {message : RatchetMessage} (hm : (net.sent s)[i]? = some message) :
    ∃ e, (sealedMessages (net.log s))[i]? = some e ∧ e.message = message := by
  rw [h.sent, List.getElem?_map] at hm
  obtain ⟨e, he, heq⟩ := Option.map_eq_some_iff.mp hm
  exact ⟨e, he, heq⟩

lemma Traffic.deserialize (h : Traffic C sharedSecret identity net) (hW : C.postcard.Correct)
    {e : SealedMessage Key} (he : e ∈ sealedMessages (net.log s)) :
    MessageHeader.deserialize C.postcard e.message.header = .ok e.header := by
  obtain ⟨rng, hheader, -⟩ := h.sealedFor s e he
  rw [hheader]
  exact MessageHeader.deserialize_serialize hW e.header

lemma Traffic.receive [DecidableEq Key] (h : Traffic C sharedSecret identity net)
    (hmoves : Net.Moves net net' s s' [] evs) (hgrows : ∀ t, Net.Grows net net' t) {i : ℕ}
    {e : SealedMessage Key} {rng : Rng} {r : Result Key} {s₁ : RatchetSession Key}
    (he : (sealedMessages (net.log s.other))[i]? = some e) (hgot : i ∈ net'.got s)
    (hreport : RecvReport C (net.node s) e.header rng r s₁ s' evs) :
    Traffic C sharedSecret identity net' := by
  obtain ⟨bs, hbs⟩ := h.shadow
  have hderived : e.derived ∈ derivedKeys (spqrLog (net.log s.other)) :=
    (h.derived s.other).subset (List.mem_map_of_mem (List.mem_of_getElem? he))
  have hsealed : ∀ t, sealedMessages (net'.log t) = sealedMessages (net.log t) := by
    refine Net.forall_side s ?_ ?_
    · rw [hmoves.log_self, sealedMessages_append, hreport.quiet, List.append_nil]
    · rw [hmoves.log_other]
  refine ⟨?_, ?_, ?_, ?_, ?_, hbs.receive hmoves hderived hreport⟩
  · refine Net.forall_side s ?_ ?_
    · rw [hmoves.node_self, hreport.node]
      exact (Resolves.of_eq hreport.ec).spqr.2.trans (h.pendingPrekey s)
    · rw [hmoves.node_other, h.pendingPrekey]
  · refine Net.forall_side s ?_ ?_
    · rw [hmoves.sent_self, List.append_nil, hsealed, h.sent]
    · rw [hmoves.sent_other, hsealed, h.sent]
  · intro t
    rw [hsealed]
    exact h.sealedFor t
  · intro t
    rw [hsealed]
    refine (h.derived t).trans ?_
    obtain ⟨more, hmore⟩ := (hgrows t).log
    rw [← hmore, spqrLog_append, derivedKeys, derivedKeys, List.filterMap_append]
    exact List.sublist_append_left _ _
  · refine Net.forall_side s ?_ ?_
    · intro pair hpair
      rw [hmoves.log_self, spqrLog_append, acceptedPairs_append] at hpair
      rcases List.mem_append.mp hpair with hpair | hpair
      · exact h.accepted_grows hgrows s hpair
      · rcases hreport.spqr with ⟨-, hlog⟩ | ⟨-, hlog⟩
        · rw [hlog] at hpair
          exact absurd hpair List.not_mem_nil
        · rw [hlog] at hpair
          refine ⟨i, hgot, e, ?_, eq_of_mem_acceptedPairs_recv hpair⟩
          rw [hsealed]
          exact he
    · intro pair hpair
      rw [hmoves.log_other] at hpair
      exact h.accepted_grows hgrows s.other hpair

end Traffic

/-! ## Runs -/

section Runs

variable {C : Suite Key} {sharedSecret : Key} {first : Side → Key}
  {identity : Side → IdentityPublicKey} {net net' : SessionNet Key}

/-- An action of an honest network; a party sends with its own identity and its peer's. -/
def Proper (identity : Side → IdentityPublicKey) : Action SessionInput RatchetMessage → Prop
  | .send s input => input.identity = identity s ∧ input.peerIdentity = identity s.other
  | .deliver _ _ _ => True
  | .inject _ _ _ => False

/-- No message has been delivered twice and no key pair has been drawn twice. -/
structure Orderly (first : Side → Key) (net : SessionNet Key) : Prop where
  once : ∀ s, (net.got s).Nodup
  fresh : ∀ s, (ownKeys (first s) (net.log s)).Nodup

/-- What was orderly at the end was orderly before. -/
lemma Orderly.of_grows (h : Orderly first net') (hgrows : ∀ t, Net.Grows net net' t) :
    Orderly first net := by
  refine ⟨?_, ?_⟩
  · intro s
    exact (hgrows s).got.sublist.nodup (h.once s)
  · intro s
    obtain ⟨more, hmore⟩ := (hgrows s).log
    have hnodup := h.fresh s
    rw [← hmore, ownKeys_append] at hnodup
    exact hnodup.of_append_left

/-- What has just been delivered had not been delivered before. -/
lemma Orderly.notMem_got (h : Orderly first net') {s : Side} {i : ℕ}
    (hgot : net'.got s = net.got s ++ [i]) : i ∉ net.got s := by
  intro hi
  have hnodup := h.once s
  rw [hgot] at hnodup
  exact (List.nodup_append.mp hnodup).2.2 _ hi _ (List.mem_singleton_self i) rfl

/-- The key pairs that the two parties start with. -/
def firstKeys (C : Suite Key) (rng : Rng) (sharedSecret : Key) (bobSecret : Bytes) (s : Side) :
    Key :=
  ((sessionNet C rng sharedSecret bobSecret).node s).dhSelfPublic

/-- After the handshake nothing has been sent. -/
lemma traffic_sessionNet (rng : Rng) (bobSecret : Bytes) (identity : Side → IdentityPublicKey) :
    Traffic C sharedSecret identity (sessionNet C rng sharedSecret bobSecret) := by
  refine ⟨?_, fun _ => rfl, fun _ => List.forall_mem_nil _, fun _ => List.nil_sublist _,
    fun _ => List.forall_mem_nil _, [], List.forall_mem_nil _, ?_, fun _ => rfl⟩
  · rintro (_ | _)
    · rfl
    · rfl
  · rintro (_ | _)
    · rfl
    · rfl

variable [DecidableEq Key]

/-- After the step neither store of skipped keys is full. -/
def Room (C : Suite Key) (net : SessionNet Key) (a : Action SessionInput RatchetMessage) : Prop :=
  ∀ s, ((net.step (sessionMachine C) a).node s).skipped.len < maxSkip

/-- What a step of an honest network amounts to: a send, a delivery of a message that was sealed, or
nothing. -/
inductive SessionStep (C : Suite Key) (identity : Side → IdentityPublicKey) (net : SessionNet Key) :
    SessionNet Key → Prop
  | idle : SessionStep C identity net net
  | send {net' s s' om evs} {input : SessionInput} (hmoves : Net.Moves net net' s s' om.toList evs)
      (hgot : net'.got s = net.got s) (hidentity : input.identity = identity s)
      (hpeer : input.peerIdentity = identity s.other)
      (hreport : SendReport C (net.node s) input s' om evs) : SessionStep C identity net net'
  | deliver {net' s i e rng r s₁ s' evs} (hmoves : Net.Moves net net' s s' [] evs)
      (hgot : net'.got s = net.got s ++ [i]) (he : (sealedMessages (net.log s.other))[i]? = some e)
      (hreport : RecvReport C (net.node s) e.header rng r s₁ s' evs) :
      SessionStep C identity net net'

/-- A delivery at a position at which a message was sealed. -/
lemma Traffic.deliver (hW : C.postcard.Correct) (h : Traffic C sharedSecret identity net) {s : Side}
    {i : ℕ} {e : SealedMessage Key} (he : (sealedMessages (net.log s.other))[i]? = some e)
    (input : SessionInput) :
    ∃ r s₁ s' evs, Net.Moves net (net.step (sessionMachine C) (.deliver s i input)) s s' [] evs ∧
      (net.step (sessionMachine C) (.deliver s i input)).got s = net.got s ++ [i] ∧
      RecvReport C (net.node s) e.header input.rng r s₁ s' evs := by
  have hm : (net.sent s.other)[i]? = some e.message := by
    rw [h.sent, List.getElem?_map, he]
    rfl
  obtain ⟨s', evs, hcall⟩ : ∃ s' evs,
      (sessionMachine C).recv (net.node s) e.message input = (s', evs) := ⟨_, _, rfl⟩
  obtain ⟨r, s₁, hreport⟩ := recvReport (h.deserialize hW (List.mem_of_getElem? he)) hcall
  refine ⟨r, s₁, s', evs, Net.moves_deliver net s hm hcall, ?_, hreport⟩
  rw [Net.step_deliver_some input hm, Net.deliverAt_got_self]

lemma Traffic.sessionStep (hW : C.postcard.Correct) (h : Traffic C sharedSecret identity net)
    (a : Action SessionInput RatchetMessage) (ha : Proper identity a) :
    SessionStep C identity net (net.step (sessionMachine C) a) := by
  rcases a with ⟨s, input⟩ | ⟨s, i, input⟩ | ⟨s, m, input⟩
  · obtain ⟨s', om, evs, hcall⟩ : ∃ s' om evs,
        (sessionMachine C).send (net.node s) input = (s', om, evs) := ⟨_, _, _, rfl⟩
    exact .send (Net.moves_send net s hcall) rfl ha.1 ha.2 (sendReport (h.pendingPrekey s) hcall)
  · rcases hm : (net.sent s.other)[i]? with - | message
    · rw [Net.step_deliver_none input hm]
      exact .idle
    · obtain ⟨e, he, -⟩ := h.exists_sealed hm
      obtain ⟨r, s₁, s', evs, hmoves, hgot, hreport⟩ := h.deliver hW he input
      exact .deliver hmoves hgot he hreport
  · exact ha.elim

/-- **The records keep their order in every step of an honest network.** -/
lemma Traffic.step (hW : C.postcard.Correct) (h : Traffic C sharedSecret identity net)
    (a : Action SessionInput RatchetMessage) (ha : Proper identity a) :
    Traffic C sharedSecret identity (net.step (sessionMachine C) a) := by
  have hgrows := Net.grows_step (A := sessionMachine C) net a
  have hstep := h.sessionStep hW a ha
  generalize net.step (sessionMachine C) a = net' at hgrows hstep ⊢
  cases hstep with
  | idle => exact h
  | send hmoves _ hidentity hpeer hreport => exact h.send hmoves hgrows hidentity hpeer hreport
  | deliver hmoves hgot he hreport =>
      refine h.receive hmoves hgrows he ?_ hreport
      rw [hgot]
      exact List.mem_append_right _ (List.mem_singleton_self _)

lemma traffic_run (hW : C.postcard.Correct) (rng : Rng) (bobSecret : Bytes)
    (as : List (Action SessionInput RatchetMessage)) (has : ∀ a ∈ as, Proper identity a) :
    Traffic C sharedSecret identity
      ((sessionNet C rng sharedSecret bobSecret).run (sessionMachine C) as) :=
  Net.run_invariant (fun _ a h ha => h.step hW a ha) as _
    (traffic_sessionNet rng bobSecret identity) (Net.along_of_forall as _ has)

/-- **The joint invariant of two sessions.** -/
structure SessionInvariant (C : Suite Key) (sharedSecret : Key) (first : Side → Key)
    (identity : Side → IdentityPublicKey) (net : SessionNet Key) : Prop where
  traffic : Traffic C sharedSecret identity net
  inTurn : Orderly first net → InTurn C first net

/-- A delivery in an orderly run: what the EC ratchet makes of it, and that the parties stay in
turn. -/
lemma SessionInvariant.receive (hX : C.x25519.Commutes)
    (h : SessionInvariant C sharedSecret first identity net) {s : Side} {i : ℕ}
    {e : SealedMessage Key}
    {rng : Rng} {r : Result Key} {s₁ s' : RatchetSession Key} {evs : List (SessionEvent Key)}
    (hmoves : Net.Moves net net' s s' [] evs) (hgrows : ∀ t, Net.Grows net net' t)
    (hgot : net'.got s = net.got s ++ [i]) (he : (sealedMessages (net.log s.other))[i]? = some e)
    (hreport : RecvReport C (net.node s) e.header rng r s₁ s' evs)
    (hlen : (net'.node s).skipped.len < maxSkip) (horderly : Orderly first net') :
    Resolved (net.node s) e r ∧ InTurn C first net' := by
  have hmem : i ∈ net'.got s := by
    rw [hgot]
    exact List.mem_append_right _ (List.mem_singleton_self i)
  rw [hmoves.node_self] at hlen
  exact (h.inTurn (horderly.of_grows hgrows)).receive hX hmoves hgrows horderly.fresh he
    (horderly.notMem_got hgot) hmem hreport hlen

/-- The EC ratchet comes up with the key that the message was sealed with, or says that it is too
far ahead. -/
lemma SessionInvariant.resolved (hX : C.x25519.Commutes) (hW : C.postcard.Correct)
    (h : SessionInvariant C sharedSecret first identity net) {s : Side} {i : ℕ}
    {e : SealedMessage Key} {input : SessionInput}
    (he : (sealedMessages (net.log s.other))[i]? = some e)
    (hroom : Room C net (.deliver s i input))
    (horderly : Orderly first (net.step (sessionMachine C) (.deliver s i input))) :
    Resolved (net.node s) e ((net.node s).ecMessageKey C input.rng e.header).1 := by
  obtain ⟨r, s₁, s', evs, hmoves, hgot, hreport⟩ := h.traffic.deliver hW he input
  rw [hreport.ec]
  exact (h.receive hX hmoves (Net.grows_step net _) hgot he hreport (hroom s) horderly).1

lemma SessionInvariant.step (hX : C.x25519.Commutes) (hW : C.postcard.Correct)
    (h : SessionInvariant C sharedSecret first identity net)
    (a : Action SessionInput RatchetMessage) (ha : Proper identity a) (hroom : Room C net a) :
    SessionInvariant C sharedSecret first identity (net.step (sessionMachine C) a) := by
  refine ⟨h.traffic.step hW a ha, ?_⟩
  have hgrows := Net.grows_step (A := sessionMachine C) net a
  have hstep := h.traffic.sessionStep hW a ha
  rw [Room] at hroom
  generalize net.step (sessionMachine C) a = net' at hgrows hstep hroom ⊢
  intro horderly
  cases hstep with
  | idle => exact h.inTurn horderly
  | send hmoves _ _ _ hreport =>
      exact (h.inTurn (horderly.of_grows hgrows)).send hmoves hgrows hreport
  | deliver hmoves hgot he hreport =>
      exact (h.receive hX hmoves hgrows hgot he hreport (hroom _) horderly).2

/-- After the handshake Alice is ahead: Bob has not seen her ratchet key. -/
lemma inTurn_sessionNet (rng : Rng) (bobSecret : Bytes) (hX : C.x25519.Commutes) :
    InTurn C (firstKeys C rng sharedSecret bobSecret)
      (sessionNet C rng sharedSecret bobSecret) := by
  refine ⟨.alice, ⟨.initializeAlice C rng sharedSecret (C.x25519.publicKey bobSecret), [], [],
    fun _ => none, fun _ _ => False⟩, ⟨.initializeBob C sharedSecret
      (bobSecret, C.x25519.publicKey bobSecret), [], [], fun _ => none, fun _ _ => False⟩, ?_, ?_,
        ?_⟩
  · exact ⟨rfl, rfl, fun _ _ h => h.elim, rfl⟩
  · exact ⟨rfl, rfl, fun _ _ h => h.elim, rfl⟩
  · have hagree := hX (rng.fill 32) bobSecret
    refine ⟨⟨rfl, rfl, ?_, ?_, List.nodup_nil, .empty rfl rfl⟩,
      ⟨rfl, rfl, ?_, ?_, List.nodup_nil, .empty rfl rfl⟩, rfl, ?_, ⟨0, ?_⟩, ?_, ?_, ?_, ?_, ?_⟩
    · exact List.forall_mem_nil _
    · exact List.forall_mem_nil _
    · exact List.forall_mem_nil _
    · exact List.forall_mem_nil _
    · exact congrArg (fun dh => (C.hash.kdfRk sharedSecret dh).rootKey) hagree
    · exact congrArg (fun dh => some (ChainState.new (C.hash.kdfRk sharedSecret dh).chainKey))
        hagree
    · rintro c ⟨⟩
    · rintro dh ⟨⟩
    · rintro dh (⟨⟨⟩⟩ | ⟨⟨⟩⟩)
    · exact List.forall_mem_nil _
    · exact List.forall_mem_nil _

/-- **The joint invariant holds in every run** on an honest network in which the stores of skipped
keys do not fill up. -/
theorem sessionInvariant_run (hX : C.x25519.Commutes) (hW : C.postcard.Correct) (rng : Rng)
    (bobSecret : Bytes) (identity : Side → IdentityPublicKey)
    (as : List (Action SessionInput RatchetMessage))
    (has : ∀ a ∈ as, Proper identity a)
    (hroom : Net.Along (sessionMachine C) (Room C) (sessionNet C rng sharedSecret bobSecret) as) :
    SessionInvariant C sharedSecret (firstKeys C rng sharedSecret bobSecret) identity
      ((sessionNet C rng sharedSecret bobSecret).run (sessionMachine C) as) := by
  refine Net.run_invariant (Q := fun net a => Proper identity a ∧ Room C net a) ?_ as _ ?_
    (Net.along_and as _ (Net.along_of_forall as _ has) hroom)
  · intro net a h ha
    exact h.step hX hW a ha.1 ha.2
  · exact ⟨traffic_sessionNet rng bobSecret identity, fun _ => inTurn_sessionNet rng bobSecret hX⟩

end Runs

end Hushwire
