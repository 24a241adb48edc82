import Hushwire.Handshake.FirstContact
import Hushwire.Ratchet.EcView

/-!
# End-to-end delivery

Two sessions on a network that loses, delays and reorders messages, but forges none and delivers
none twice: a message that arrives within the limits of both ratchets decrypts to the plaintext that
was encrypted.

The EC key comes from the Diffie-Hellman ratchets taking turns, the PQ key from the pairing of the
SPQR states that run inside the sessions; the rest is the AEAD under the hybrid of both.

Both skipped-key stores have to keep room all the time.  The store of the receiver alone is not
enough: a full store at the other end drops a key, and a party that has dropped a key can be sent
back to a ratchet key that its peer has left behind.
-/

namespace Hushwire

open Duplex RatchetSession

section Delivery

variable {Key : Type} {C : Suite Key} {sharedSecret : Key} {first : Side → Key}
  {identity : Side → IdentityPublicKey} {net : SessionNet Key} {s : Side} {i : ℕ}
  {e : SealedMessage Key}

/-- No two messages of a party have the same sending epoch and number. -/
lemma Traffic.index_unique (h : Traffic C sharedSecret identity net) {j : ℕ}
    {e' : SealedMessage Key} (he : (sealedMessages (net.log s))[i]? = some e)
    (he' : (sealedMessages (net.log s))[j]? = some e')
    (hpair : (e.header.braidMsg.epoch - 1, e.header.pqMessageNumber) =
      (e'.header.braidMsg.epoch - 1, e'.header.pqMessageNumber)) : i = j := by
  have hnodup := ((h.derived s).map (fun d => (d.1.epoch - 1, d.2.1))).nodup
    (h.spqrLocal s).pairs_nodup
  rw [List.map_map] at hnodup
  have hlt : i < ((sealedMessages (net.log s)).map ((fun d => (d.1.epoch - 1, d.2.1)) ∘
      SealedMessage.derived)).length := by
    rw [List.length_map]
    exact (List.getElem?_eq_some_iff.mp he).1
  refine (List.getElem?_inj hlt hnodup).mp ?_
  rw [List.getElem?_map, List.getElem?_map, he, he']
  exact congrArg some hpair

/-- The SPQR state of the receiver derives the key that the message was sealed with. -/
lemma Traffic.ratchetReceiveKey_eq (h : Traffic C sharedSecret identity net)
    (hP : C.toPrims.Correct) (he : (sealedMessages (net.log s.other))[i]? = some e)
    (hi : i ∉ net.got s)
    (hepoch : (net.node s).spqr.braid.state.epoch ≤ e.header.braidMsg.epoch + 1)
    (hgap : ∀ c, (net.node s).spqr.recvChain (e.header.braidMsg.epoch - 1) = some c →
      e.header.pqMessageNumber ≤ c.n ∨ c.Reaches e.header.pqMessageNumber) :
    ∃ spqr, (net.node s).spqr.ratchetReceiveKey C.toPrims e.header.braidMsg
      e.header.pqMessageNumber = (.ok e.pqMk, spqr) := by
  obtain ⟨bs, hbs⟩ := h.shadow
  have hderived : e.derived ∈ derivedKeys (spqrLog (net.log s.other)) :=
    (h.derived s.other).subset (List.mem_map_of_mem (List.mem_of_getElem? he))
  -- a pair is sent once, and what was accepted was delivered
  have hnew : (e.header.braidMsg.epoch - 1, e.header.pqMessageNumber) ∉
      acceptedPairs (spqrLog (net.log s)) := by
    intro hacc
    obtain ⟨j, hj, e', he', hpair⟩ := h.accepted s _ hacc
    exact hi (h.index_unique he he' hpair ▸ hj)
  rw [← hbs.node s] at hepoch hgap ⊢
  refine Hushwire.ratchetReceiveKey_eq hP hbs.honest ?_ ?_ hepoch hgap
  · rw [hbs.log]
    exact hderived
  · rw [hbs.log]
    exact hnew

end Delivery

/-! ## A wrong key -/

namespace Ideal

/-- What is sealed under one message key opens under no other. -/
lemma eq_messageKey_of_decrypt {rng : Rng} {key key' : ℕ}
    {plaintext plaintext' ad ad' encrypted : Bytes}
    (henc : Aead.encrypt hash xchacha rng key plaintext ad = .ok encrypted)
    (hdec : Aead.decrypt hash xchacha key' encrypted ad' = .ok plaintext') : key = key' := by
  simp only [Aead.encrypt] at henc
  split at henc
  · cases henc
  · rename_i ct hct
    obtain rfl := Except.ok.inj henc
    have hnonce : (rng.fill nonceSize).length = nonceSize := rng.fill_length _
    rw [Aead.decrypt] at hdec
    split at hdec
    · cases hdec
    · rw [List.drop_left' hnonce] at hdec
      split at hdec
      · cases hdec
      · rename_i opened
        have hkey := eq_key_of_decrypt hct opened
        exact Sum.inl.inj (hkdf_injective hkey).1

/-- The first keys of two chains tell the chains apart. -/
lemma ecKey_zero_injective {base base' : ℕ} (h : ecKey hash base 0 = ecKey hash base' 0) :
    base = base' :=
  (Prod.mk.inj (Encodable.encode_injective h)).1

/-- A chain key tells which agreement it comes from. -/
lemma eq_of_chainKey {root root' dh dh' : ℕ}
    (h : (hash.kdfRk root dh).chainKey = (hash.kdfRk root' dh').chainKey) : dh = dh' :=
  Sum.inl.inj (hkdf_injective h).1

end Ideal

/-- A message for which the EC ratchet comes up with another key is refused, whatever the SPQR state
says. -/
lemma exists_error_of_ecMk_ne {σ σ' : RatchetSession ℕ} {e : SealedMessage ℕ} {rng : Rng} {ecMk : ℕ}
    {sender recipient : IdentityPublicKey} (hfor : e.SealedFor idealSuite sender recipient)
    (hec : σ.ecMessageKey idealSuite rng e.header = (.ok ecMk, σ')) (hne : e.ecMk ≠ ecMk)
    (sender' recipient' : IdentityPublicKey) :
    ∃ err s', σ.decrypt idealSuite rng e.message sender' recipient' = (.error err, s') := by
  obtain ⟨rng', hheader, hsealed⟩ := hfor
  have hdeserialize : MessageHeader.deserialize idealSuite.postcard e.message.header =
      .ok e.header := by
    rw [hheader]
    exact MessageHeader.deserialize_serialize Ideal.postcard_correct e.header
  simp only [RatchetSession.decrypt, hdeserialize, hec]
  rcases σ'.spqr.ratchetReceiveKey idealSuite.toPrims e.header.braidMsg
    e.header.pqMessageNumber with
    ⟨err | pqMk, spqr⟩
  · exact ⟨err, _, rfl⟩
  · dsimp only
    rcases hopen : Aead.decrypt idealSuite.hash idealSuite.xchacha
        (idealSuite.hash.kdfHybrid ecMk pqMk) e.message.ciphertext
        (buildAd idealSuite sender' recipient' e.message.header) with err | padded
    · exact ⟨err, _, rfl⟩
    · have hkey := Ideal.eq_messageKey_of_decrypt hsealed hopen
      exact absurd (Sum.inl.inj (Ideal.hkdf_injective hkey).1) hne

/-! ## Following a run -/

/-- Two sessions right after the handshake. -/
noncomputable def idealNet : SessionNet ℕ := sessionNet idealSuite (constRng 1) 0 idealSecret

/-- The key pairs they start with. -/
noncomputable def idealFirstKeys : Side → ℕ := firstKeys idealSuite (constRng 1) 0 idealSecret

/-- The public key that is drawn with the byte `b`. -/
noncomputable def idealKey (b : UInt8) : ℕ := idealSuite.x25519.publicKey ((constRng b).fill 32)

lemma idealKey_injective : Function.Injective idealKey := by
  intro b b' h
  have hbytes := Ideal.publicKey_injective h
  exact (List.replicate_right_inj (by decide)).mp hbytes

/-- The run `as` ends with the EC ratchets standing as the board says, and the stores of the watched
sides have stayed empty. -/
structure Play (watched : Side → Prop) (as : List (Action SessionInput RatchetMessage))
    (board : Side → Standing ℕ) : Prop where
  proper : ∀ a ∈ as, Proper (fun _ => []) a
  room : Net.Along (sessionMachine idealSuite) (fun net a => ∀ s, watched s →
    ((net.step (sessionMachine idealSuite) a).node s).skipped.len < maxSkip) idealNet as
  traffic : Traffic idealSuite 0 (fun _ => []) (idealNet.run (sessionMachine idealSuite) as)
  shows : ∀ s, Shows idealSuite idealFirstKeys (idealNet.run (sessionMachine idealSuite) as) s
    (board s)
  store : ∀ s, watched s → (board s).store = .new

section Play

variable {watched : Side → Prop} {as : List (Action SessionInput RatchetMessage)}
  {board : Side → Standing ℕ}

lemma Play.extend (h : Play watched as board) {a : Action SessionInput RatchetMessage}
    (ha : Proper (fun _ => []) a) {board' : Side → Standing ℕ}
    (htraffic : Traffic idealSuite 0 (fun _ => [])
      ((idealNet.run (sessionMachine idealSuite) as).step (sessionMachine idealSuite) a))
    (hshows : ∀ s, Shows idealSuite idealFirstKeys
      ((idealNet.run (sessionMachine idealSuite) as).step (sessionMachine idealSuite) a)
        s (board' s))
    (hstore : ∀ s, watched s → (board' s).store = .new) : Play watched (as ++ [a]) board' := by
  refine ⟨?_, ?_, ?_, ?_, hstore⟩
  · exact List.forall_mem_append.mpr ⟨h.proper, List.forall_mem_singleton.mpr ha⟩
  · refine (Net.along_append _ _ _).mpr ⟨h.room, ?_, trivial⟩
    intro s hs
    rw [(hshows s).ec.store, hstore s hs]
    exact Nat.two_pos.trans_le (by decide)
  · rw [Net.run_append]
    exact htraffic
  · rw [Net.run_append]
    exact hshows

lemma Play.send (h : Play watched as board) (s : Side) (b : UInt8) {base n : ℕ}
    (hv : (board s).sending = some (base, n)) {board' : Side → Standing ℕ}
    (hself : board' s = (board s).sends idealSuite base n 1)
    (hother : board' s.other = board s.other) :
    Play watched (as ++ [.send s (idealInput b)]) board' := by
  obtain ⟨htraffic, hshows, hpeer, -⟩ := (h.shows s).send h.traffic idealPrims_correct
    idealSuite_seals hv (idealInput b) rfl rfl rfl
  refine h.extend (a := .send s (idealInput b)) ⟨rfl, rfl⟩ htraffic
    (Net.forall_side s ?_ ?_) (Net.forall_side s ?_ ?_)
  · rw [hself]
    exact hshows
  · rw [hother]
    exact hpeer _ (h.shows s.other)
  · rw [hself]
    exact h.store s
  · rw [hother]
    exact h.store s.other

/-- Many sends in a row. -/
lemma Play.sends (h : Play watched as board) (s : Side) (b : UInt8) {base n : ℕ}
    (hv : (board s).sending = some (base, n)) (k : ℕ) :
    ∀ {board' : Side → Standing ℕ}, board' s = (board s).sends idealSuite base n k →
      board' s.other = board s.other →
      Play watched (as ++ List.replicate k (.send s (idealInput b))) board' := by
  induction k with
  | zero =>
      intro board' hself hother
      have hsame : board' = board := by
        refine funext (Net.forall_side s ?_ hother)
        rw [hself, Standing.sends]
        simp only [List.range_zero, List.map_nil, List.append_nil, Nat.add_zero, ← hv]
      rw [hsame, List.replicate_zero, List.append_nil]
      exact h
  | succ k ih =>
      intro board' hself hother
      have hplay := ih (Function.update_self s ((board s).sends idealSuite base n k) board)
        (Function.update_of_ne s.other_ne _ _)
      rw [List.replicate_succ', ← List.append_assoc]
      have hv' : (Function.update board s ((board s).sends idealSuite base n k) s).sending =
          some (base, n + k) := by
        rw [Function.update_self]
        rfl
      refine hplay.send s b hv' ?_ ?_
      · rw [hself, Function.update_self, Standing.sends_succ]
      · rw [hother, Function.update_of_ne s.other_ne]

lemma Play.deliver (h : Play watched as board) (s : Side) (b : UInt8) {i previous n dh key : ℕ}
    (hi : (board s.other).sealed[i]? = some (dh, previous, n, key))
    (hne : (board s).dhRemote ≠ some dh) (hnone : (board s).store.find dh n = none)
    (hgap : ∀ base r, (board s).receiving = some (base, r) → previous ≤ r + maxSkip)
    (hn : n ≤ maxSkip)
    (hstore : watched s → ∀ root root', ((board s).toEcView.ratchet idealSuite (constRng b) dh
      previous n root root').store = .new) :
    ∃ root root', ∀ {board' : Side → Standing ℕ},
      board' s = (board s).ratchet idealSuite (constRng b) i dh previous n root root' →
      board' s.other = board s.other →
      Play watched (as ++ [.deliver s i (idealInput b)]) board' := by
  obtain ⟨root, root', htraffic, hshows, hpeer⟩ := (h.shows s).deliver (h.shows s.other) h.traffic
    Ideal.postcard_correct hi hne hnone hgap hn (idealInput b) rfl
  refine ⟨root, root', ?_⟩
  intro board' hself hother
  refine h.extend (a := .deliver s i (idealInput b)) trivial htraffic
    (Net.forall_side s ?_ ?_) (Net.forall_side s ?_ ?_)
  · rw [hself]
    exact hshows
  · rw [hother]
    exact hpeer _ (h.shows s.other)
  · rw [hself]
    intro hs
    exact hstore hs root root'
  · rw [hother]
    exact h.store s.other

/-- The message of a send that comes last: its SPQR number is within the count of messages, and the
receiver's braid is at most one epoch past it. -/
lemma Play.exists_last (h : Play watched as board) (s : Side) (b : UInt8) {base n : ℕ}
    (hv : (board s).sending = some (base, n)) {net : SessionNet ℕ}
    (hnet : net = idealNet.run (sessionMachine idealSuite) (as ++ [.send s (idealInput b)])) :
    ∃ e, (sealedMessages (net.log s))[(board s).sealed.length]? = some e ∧
      e.ec = (idealSuite.x25519.publicKey (board s).dhSelf, (board s).previous, n,
        ecKey Ideal.hash base n) ∧
      e.header.pqMessageNumber ≤ (board s).sealed.length + 1 ∧
      (net.node s.other).spqr.braid.state.epoch ≤ e.header.braidMsg.epoch + 1 := by
  rw [Net.run_append] at hnet
  obtain ⟨htraffic, hshows, -, e, hsealed, hepoch⟩ := (h.shows s).send h.traffic idealPrims_correct
    idealSuite_seals hv (idealInput b) rfl rfl hnet
  have hlen : (sealedMessages ((idealNet.run (sessionMachine idealSuite) as).log s)).length =
      (board s).sealed.length := by
    rw [← (h.shows s).sealed, List.length_map]
  have hget : (sealedMessages (net.log s))[(board s).sealed.length]? = some e := by
    rw [hsealed, ← hlen]
    exact List.getElem?_concat_length
  refine ⟨e, hget, ?_, ?_, ?_⟩
  · have hmap := hshows.sealed
    rw [hsealed, List.map_append, (h.shows s).sealed] at hmap
    exact List.singleton_inj.mp (List.append_cancel_left hmap)
  · have hle := hshows.pqMessageNumber_le htraffic (List.mem_of_getElem? hget)
    rw [Standing.sends, List.length_append, List.length_map, List.length_range] at hle
    exact hle
  · rw [hepoch]
    have hle := htraffic.epoch_le_succ idealPrims_correct s.other
    rwa [Side.other_other] at hle

lemma Play.orderly (h : Play watched as board) (hgot : ∀ s, (board s).got.Nodup)
    (hkeys : ∀ s, (board s).keys.Nodup) :
    Orderly idealFirstKeys (idealNet.run (sessionMachine idealSuite) as) := by
  refine ⟨?_, ?_⟩
  · intro s
    rw [(h.shows s).got]
    exact hgot s
  · intro s
    rw [(h.shows s).keys]
    exact hkeys s

end Play

/-- The first key of Alice's first sending chain. -/
noncomputable def aliceBase : ℕ :=
  (idealSuite.hash.kdfRk 0 (idealSuite.x25519.diffieHellman ((constRng 1).fill 32)
    (idealSuite.x25519.publicKey idealSecret))).chainKey

/-- Alice right after the handshake. -/
noncomputable def aliceStart : Standing ℕ where
  dhSelf := (constRng 1).fill 32
  dhRemote := some (idealKey 0)
  sending := some (aliceBase, 0)
  receiving := none
  previous := 0
  store := .new
  sealed := []
  got := []
  keys := [idealKey 1]

/-- Bob right after the handshake. -/
noncomputable def bobStart : Standing ℕ where
  dhSelf := idealSecret
  dhRemote := none
  sending := none
  receiving := none
  previous := 0
  store := .new
  sealed := []
  got := []
  keys := [idealKey 0]

/-- Both parties together. -/
def boardOf (alice bob : Standing ℕ) : Side → Standing ℕ
  | .alice => alice
  | .bob => bob

lemma play_start (watched : Side → Prop) : Play watched [] (boardOf aliceStart bobStart) := by
  refine ⟨List.forall_mem_nil _, trivial, traffic_sessionNet _ _ _, ?_, ?_⟩
  · have hstart : (idealNet.node .alice).sendingChain = some (.new aliceBase) := rfl
    have hsending : (idealNet.node .alice).sendingChain = some (.at idealSuite.hash aliceBase 0) :=
      hstart.trans (congrArg some ChainState.new_eq_at)
    refine Net.forall_side .alice ?_ ?_
    · exact ⟨⟨rfl, rfl, rfl, hsending, rfl, rfl, rfl⟩, rfl, rfl, rfl, rfl⟩
    · exact ⟨⟨rfl, rfl, rfl, rfl, rfl, rfl, rfl⟩, rfl, rfl, rfl, rfl⟩
  · exact Net.forall_side .alice (fun _ => rfl) (fun _ => rfl)

/-! ## End-to-end delivery -/

/-- **End-to-end delivery.**  Take two sessions made by `initialize_alice` and `initialize_bob` from
one shared secret and Bob's key pair, and any run on a network that loses, delays and reorders
messages, but forges none and delivers none twice, in which neither store of skipped keys ever
reaches `maxSkip` entries.  A delivery for which no gap on either ratchet exceeds `maxSkip`, with
the PQ chain `maxSkip` or more short of the end of its counter, and whose message is at most one
braid epoch behind its receiver decrypts to the plaintext that was encrypted. -/
theorem end_to_end_delivery {Key : Type} [DecidableEq Key] {C : Suite Key}
    (hP : C.toPrims.Correct) (hX : C.x25519.Commutes)
    (hA : C.xchacha.Correct) (hW : C.postcard.Correct) (rng : Rng) (sharedSecret : Key)
    (bobSecret : Bytes) (identity : Side → IdentityPublicKey)
    (as : List (Action SessionInput RatchetMessage)) (has : ∀ a ∈ as, Proper identity a)
    (s : Side) (i : ℕ) (input : SessionInput)
    (hroom : Net.Along (sessionMachine C) (Room C) (sessionNet C rng sharedSecret bobSecret)
      (as ++ [.deliver s i input]))
    (horderly : Orderly (firstKeys C rng sharedSecret bobSecret)
      ((sessionNet C rng sharedSecret bobSecret).run (sessionMachine C)
        (as ++ [.deliver s i input])))
    (net : SessionNet Key)
    (hnet : net = (sessionNet C rng sharedSecret bobSecret).run (sessionMachine C) as)
    (e : SealedMessage Key) (he : (sealedMessages (net.log s.other))[i]? = some e)
    (hec : (net.node s).EcReach e.header)
    (hpq : ∀ c, (net.node s).spqr.recvChain (e.header.braidMsg.epoch - 1) = some c →
      e.header.pqMessageNumber ≤ c.n ∨ c.Reaches e.header.pqMessageNumber)
    (hepoch : (net.node s).spqr.braid.state.epoch ≤ e.header.braidMsg.epoch + 1) :
    (net.sent s.other)[i]? = some e.message ∧
      ∃ s', (net.node s).decrypt C input.rng e.message (identity s.other) (identity s) =
        (.ok e.plaintext, s') := by
  obtain ⟨hroom, hlast, -⟩ := (Net.along_append _ _ _).mp hroom
  rw [Net.run_append, ← hnet, Net.run_cons, Net.run_nil] at horderly
  rw [← hnet] at hlast
  have h : SessionInvariant C sharedSecret (firstKeys C rng sharedSecret bobSecret)
      identity net := by
    rw [hnet]
    exact sessionInvariant_run hX hW rng bobSecret identity as has hroom
  have hsent : (net.sent s.other)[i]? = some e.message := by
    rw [h.traffic.sent, List.getElem?_map, he]
    rfl
  refine ⟨hsent, ?_⟩
  -- the EC key
  have hresolved := h.resolved hX hW he hlast horderly
  obtain ⟨s₁, hs₁⟩ : ∃ s₁, (net.node s).ecMessageKey C input.rng e.header = (.ok e.ecMk, s₁) := by
    rcases hresolved with hok | ⟨-, hfar⟩
    · exact ⟨_, Prod.ext hok rfl⟩
    · exact absurd hec hfar
  -- the PQ key
  have hi : i ∉ net.got s := by
    refine horderly.notMem_got ?_
    rw [Net.step_deliver_some input hsent, Net.deliverAt_got_self]
  obtain ⟨spqr, hspqr⟩ := h.traffic.ratchetReceiveKey_eq hP he hi hepoch hpq
  rw [← (Resolves.of_eq hs₁).spqr.1] at hspqr
  obtain ⟨rng', hheader, hsealed⟩ := h.traffic.sealedFor s.other e (List.mem_of_getElem? he)
  rw [Side.other_other] at hsealed
  have hopened := decrypt_of_keys hA hW hsealed hs₁ hspqr
  rw [← hheader] at hopened
  exact ⟨_, hopened⟩

/-- Alice's first message. -/
theorem end_to_end_delivery_first_message : ∃ (net : SessionNet ℕ) (e : SealedMessage ℕ),
    net = (sessionNet idealSuite (constRng 1) 0 idealSecret).run (sessionMachine idealSuite)
      [.send .alice (idealInput 2)] ∧
    (sealedMessages (net.log .alice))[0]? = some e ∧
    (net.sent .alice)[0]? = some e.message ∧
    ∃ s', (net.node .bob).decrypt idealSuite (constRng 3) e.message [] [] =
      (.ok e.plaintext, s') := by
  have hsent : Play (fun _ => True) [.send .alice (idealInput 2)]
      (boardOf (aliceStart.sends idealSuite aliceBase 0 1) bobStart) :=
    (play_start _).send .alice 2 rfl rfl rfl
  obtain ⟨net, hnet⟩ : ∃ net, net = idealNet.run (sessionMachine idealSuite)
      [.send .alice (idealInput 2)] := ⟨_, rfl⟩
  obtain ⟨e, hget, hec, hpq, hepoch⟩ := (play_start (fun _ => True)).exists_last .alice 2
    (n := 0) rfl hnet
  obtain ⟨root, root', hplay⟩ := hsent.deliver .bob 3 (i := 0) rfl (by simp [boardOf, bobStart])
    SkippedKeys.find_new (by simp [boardOf, bobStart]) (Nat.zero_le _) (fun _ _ _ => rfl)
  have hplay := @hplay (boardOf (aliceStart.sends idealSuite aliceBase 0 1)
    (bobStart.ratchet idealSuite (constRng 3) 0 (idealKey 1) 0 0 root root')) rfl rfl
  have hkeys : [idealKey 0, idealKey 3].Nodup := by
    have hne : idealKey 0 ≠ idealKey 3 := idealKey_injective.ne (by decide)
    simpa using hne
  have horderly := hplay.orderly
    (Net.forall_side .alice List.nodup_nil (List.nodup_singleton 0))
    (Net.forall_side .alice (List.nodup_singleton _) hkeys)
  have hnumber : e.number = 0 := congrArg (fun label => label.2.2.1) hec
  have hroom : Net.Along (sessionMachine idealSuite) (Room idealSuite)
      (sessionNet idealSuite (constRng 1) 0 idealSecret)
      ([.send .alice (idealInput 2)] ++ [.deliver .bob 0 (idealInput 3)]) :=
    Net.along_mono (fun net a h s => h s trivial) _ _ hplay.room
  have hreach : (net.node .bob).EcReach e.header := by
    rw [hnet]
    refine (hsent.shows .bob).ec.ecReach (by simp [boardOf, bobStart])
      (by simp [boardOf, bobStart]) ?_
    exact hnumber.trans_le (Nat.zero_le _)
  have hgap : ∀ c, (net.node .bob).spqr.recvChain (e.header.braidMsg.epoch - 1) = some c →
      e.header.pqMessageNumber ≤ c.n ∨ c.Reaches e.header.pqMessageNumber := by
    intro c _
    have hle : e.header.pqMessageNumber ≤ 1 := hpq
    exact c.passed_or_reaches (hle.trans (Nat.le_add_left _ _))
  have hdone := end_to_end_delivery (C := idealSuite) idealPrims_correct Ideal.x25519_commutes
    Ideal.xchacha_correct Ideal.postcard_correct (constRng 1) 0 idealSecret (fun _ => [])
    [.send .alice (idealInput 2)] hsent.proper .bob 0 (idealInput 3) hroom horderly net hnet e hget
    hreach hgap hepoch
  exact ⟨net, e, hnet, hget, hdone⟩

/-! ### A full store at the other end -/

/-- A message of the chain that is being sent. -/
lemma getElem?_sends {v : Standing ℕ} {b n k j len : ℕ} (hj : j < k)
    (hlen : v.sealed.length = len) :
    (v.sends idealSuite b n k).sealed[len + j]? = some (idealSuite.x25519.publicKey v.dhSelf,
      v.previous, n + j, ecKey Ideal.hash b (n + j)) := by
  rw [Standing.sends, List.getElem?_append_right (hlen.trans_le (Nat.le_add_right _ _)), hlen,
    Nat.add_sub_cancel_left, List.getElem?_map, List.getElem?_range hj]
  rfl

/-- Bob sends the first message of his chain and Alice steps on its key. -/
lemma Play.reply {as : List (Action SessionInput RatchetMessage)} {alice bob : Standing ℕ}
    (h : Play (fun s => s = .alice) as (boardOf alice bob)) (x y : UInt8) {base : ℕ}
    (hself : bob.dhSelf = (constRng x).fill 32) (hsending : bob.sending = some (base, 0))
    (hne : alice.dhRemote ≠ some (idealKey x)) (hstore : alice.store = .new)
    (hprevious : ∀ base r, alice.receiving = some (base, r) → bob.previous ≤ r) :
    ∃ root root', Play (fun s => s = .alice) (as ++ [.send .bob (idealInput 2)] ++
        [.deliver .alice bob.sealed.length (idealInput y)])
      (boardOf (alice.ratchet idealSuite (constRng y) bob.sealed.length (idealKey x) bob.previous 0
        root root') (bob.sends idealSuite base 0 1)) := by
  have hsent : Play (fun s => s = .alice) _ (boardOf alice (bob.sends idealSuite base 0 1)) :=
    h.send .bob 2 hsending rfl rfl
  have hget : (bob.sends idealSuite base 0 1).sealed[bob.sealed.length + 0]? =
      some (idealKey x, bob.previous, 0, ecKey Ideal.hash base 0) := by
    rw [getElem?_sends Nat.zero_lt_one rfl, hself]
    rfl
  have hnone : alice.store.find (idealKey x) 0 = none := by
    rw [hstore]
    exact SkippedKeys.find_new
  have hempty : ∀ root root', (alice.toEcView.ratchet idealSuite (constRng y) (idealKey x)
      bob.previous 0 root root').store = .new := by
    intro root root'
    show alice.toEcView.skip idealSuite bob.previous = .new
    rw [EcView.skip]
    rcases hr : alice.receiving with - | ⟨base', r⟩
    · exact hstore
    · dsimp only
      rw [Nat.sub_eq_zero_of_le (hprevious base' r hr)]
      exact hstore
  obtain ⟨root, root', hplay⟩ := hsent.deliver .alice y hget hne hnone
    (fun base' r hr => (hprevious base' r hr).trans (Nat.le_add_right _ _)) (Nat.zero_le _)
    (fun _ => hempty)
  exact ⟨root, root', hplay rfl rfl⟩

/-- A reply, after which Alice sends `k` messages of her new chain. -/
lemma Play.turn {as : List (Action SessionInput RatchetMessage)} {alice bob : Standing ℕ}
    (h : Play (fun s => s = .alice) as (boardOf alice bob)) (x y : UInt8) (k : ℕ) {base : ℕ}
    (hself : bob.dhSelf = (constRng x).fill 32) (hsending : bob.sending = some (base, 0))
    (hne : alice.dhRemote ≠ some (idealKey x)) (hstore : alice.store = .new)
    (hprevious : ∀ base r, alice.receiving = some (base, r) → bob.previous ≤ r) :
    ∃ as' root root', Play (fun s => s = .alice) as' (boardOf
      ((alice.ratchet idealSuite (constRng y) bob.sealed.length (idealKey x) bob.previous 0 root
        root').sends idealSuite (idealSuite.hash.kdfRk root' (idealSuite.x25519.diffieHellman
          ((constRng y).fill 32) (idealKey x))).chainKey 0 k)
      (bob.sends idealSuite base 0 1)) := by
  obtain ⟨root, root', hreply⟩ := h.reply x y hself hsending hne hstore hprevious
  exact ⟨_, root, root', hreply.sends .alice 2 rfl k rfl rfl⟩

/-- A message under another key arrives at Bob, whose store is full. -/
lemma Play.overflow {as : List (Action SessionInput RatchetMessage)} {alice bob : Standing ℕ}
    (h : Play (fun s => s = .alice) as (boardOf alice bob)) (y : UInt8) {i previous n dh key : ℕ}
    (hi : alice.sealed[i]? = some (dh, previous, n, key)) (hne : bob.dhRemote ≠ some dh)
    (hnone : bob.store.find dh n = none)
    (hgap : ∀ base r, bob.receiving = some (base, r) → previous ≤ r + maxSkip) (hn : n ≤ maxSkip) :
    ∃ as' root root', Play (fun s => s = .alice) as' (boardOf alice
      (bob.ratchet idealSuite (constRng y) i dh previous n root root')) := by
  obtain ⟨root, root', hplay⟩ := h.deliver .bob y hi hne hnone hgap hn (by simp)
  exact ⟨_, root, root', hplay rfl rfl⟩

/-- Alice sends more than Bob can store, and only the last of it arrives. -/
lemma exists_full_store : ∃ (as : List (Action SessionInput RatchetMessage))
    (alice bob : Standing ℕ), Play (fun s => s = .alice) as (boardOf alice bob) ∧
    (alice.dhRemote = some (idealKey 0) ∧ alice.receiving = none ∧
      (∃ base, alice.sending = some (base, maxSkip + 1)) ∧ alice.store = .new ∧
      alice.sealed.length = maxSkip + 1 ∧ alice.got = [] ∧ alice.keys = [idealKey 1]) ∧
    (bob.dhSelf = (constRng 3).fill 32 ∧ bob.dhRemote = some (idealKey 1) ∧
      (∃ base, bob.receiving = some (base, maxSkip + 1)) ∧ (∃ base, bob.sending = some (base, 0)) ∧
      bob.previous = 0 ∧ bob.sealed = [] ∧ bob.got = [maxSkip] ∧
      bob.keys = [idealKey 0, idealKey 3]) ∧
    maxSkip ≤ bob.store.len ∧ ∀ d i, d ≠ idealKey 1 → bob.store.find d i = none := by
  have h : Play (fun s => s = .alice) _
      (boardOf (aliceStart.sends idealSuite aliceBase 0 (maxSkip + 1)) bobStart) :=
    (play_start _).sends .alice 2 rfl (maxSkip + 1) rfl rfl
  have hget : (aliceStart.sends idealSuite aliceBase 0 (maxSkip + 1)).sealed[0 + maxSkip]? =
      some (idealKey 1, 0, 0 + maxSkip, ecKey Ideal.hash aliceBase (0 + maxSkip)) :=
    getElem?_sends maxSkip.lt_succ_self rfl
  rw [Nat.zero_add] at hget
  have hlen : (aliceStart.sends idealSuite aliceBase 0 (maxSkip + 1)).sealed.length =
      maxSkip + 1 := by
    show ([] ++ (List.range (maxSkip + 1)).map _).length = maxSkip + 1
    rw [List.nil_append, List.length_map, List.length_range]
  obtain ⟨as, r, r', h'⟩ := h.overflow 3 hget (by simp [bobStart]) SkippedKeys.find_new
    (by simp [bobStart]) le_rfl
  have hstore := EcView.ratchet_store_of_new (C := idealSuite) (x := bobStart.toEcView) rfl rfl
    (constRng 3) (idealKey 1) 0 maxSkip r r'
  refine ⟨as, _, _, h', ⟨rfl, rfl, ⟨_, rfl⟩, rfl, hlen, rfl, rfl⟩,
    ⟨rfl, rfl, ⟨_, rfl⟩, ⟨_, rfl⟩, rfl, rfl, rfl, rfl⟩, ?_⟩
  show maxSkip ≤ (bobStart.toEcView.ratchet idealSuite (constRng 3) (idealKey 1) 0 maxSkip
      r r').store.len ∧
    ∀ d i, d ≠ idealKey 1 → (bobStart.toEcView.ratchet idealSuite (constRng 3) (idealKey 1) 0
      maxSkip r r').store.find d i = none
  rw [hstore]
  exact SkippedKeys.insertRange_new_full _ _ _

lemma forall_of_eq_some {o : Option (ℕ × ℕ)} {base n : ℕ} (h : o = some (base, n)) {p : ℕ → Prop}
    (hp : p n) : ∀ base' r, o = some (base', r) → p r := by
  intro base' r hr
  obtain ⟨-, rfl⟩ := Prod.mk.inj (Option.some.inj (h.symm.trans hr))
  exact hp

lemma diffieHellman_idealKey (b : UInt8) (dh : ℕ) :
    idealSuite.x25519.diffieHellman ((constRng b).fill 32) dh = idealKey b + dh := rfl

lemma some_idealKey_ne {b b' : UInt8} (h : b ≠ b') : some (idealKey b) ≠ some (idealKey b') := by
  intro heq
  exact h (idealKey_injective (Option.some.inj heq))

/-- A turn later, the second message under Alice's new key arrives, and the key of the first finds
no room in Bob's store. -/
lemma exists_dropped_key : ∃ (as : List (Action SessionInput RatchetMessage))
    (alice bob : Standing ℕ), Play (fun s => s = .alice) as (boardOf alice bob) ∧
    (alice.dhRemote = some (idealKey 3) ∧ (∃ base, alice.receiving = some (base, 1)) ∧
      (∃ base, alice.sending = some (base, 2)) ∧ alice.store = .new ∧
      alice.sealed.length = maxSkip + 3 ∧
      (∃ key, alice.sealed[maxSkip + 1]? = some (idealKey 4, maxSkip + 1, 0, key)) ∧
      alice.got = [0] ∧ alice.keys = [idealKey 1, idealKey 4]) ∧
    (bob.dhSelf = (constRng 5).fill 32 ∧ bob.dhRemote = some (idealKey 4) ∧
      (∃ base, bob.receiving = some (base, 2)) ∧ (∃ base, bob.sending = some (base, 0)) ∧
      bob.previous = 1 ∧ bob.sealed.length = 1 ∧ bob.got = [maxSkip, maxSkip + 2] ∧
      bob.keys = [idealKey 0, idealKey 3, idealKey 5]) ∧
    maxSkip ≤ bob.store.len ∧ ∀ d i, d ≠ idealKey 1 → bob.store.find d i = none := by
  obtain ⟨as, alice, bob, h, ⟨haRemote, haReceiving, ⟨baseA, haSending⟩, haStore, haSealed, haGot,
    haKeys⟩, ⟨hbSelf, hbRemote, ⟨baseR, hbReceiving⟩, ⟨baseB, hbSending⟩, hbPrevious, hbSealed,
    hbGot, hbKeys⟩, hfull, hfind⟩ := exists_full_store
  have hprevious : (alice.sending.map Prod.snd).getD 0 = maxSkip + 1 := by
    rw [haSending]
    rfl
  obtain ⟨as₁, r, r', h₁⟩ := h.turn 3 4 2 hbSelf hbSending
    (haRemote.trans_ne (some_idealKey_ne (by decide))) haStore
    (fun _ _ hr => absurd (haReceiving.symm.trans hr) (by simp))
  rw [hbSealed, hbPrevious, List.length_nil] at h₁
  have hget : ∀ j < 2, _ := fun j hj =>
    getElem?_sends (v := alice.ratchet idealSuite (constRng 4) 0 (idealKey 3) 0 0 r r')
      (b := (idealSuite.hash.kdfRk r' (idealSuite.x25519.diffieHellman ((constRng 4).fill 32)
        (idealKey 3))).chainKey) (n := 0) hj haSealed
  obtain ⟨as₂, r₂, r₂', h₂⟩ := h₁.overflow 5 (hget 1 (by decide))
    (hbRemote.trans_ne (some_idealKey_ne (by decide)))
    (hfind _ _ (idealKey_injective.ne (by decide)))
    (forall_of_eq_some hbReceiving (hprevious.trans_le (Nat.le_add_right _ _))) (by decide)
  have hstore : _ = bob.store := EcView.ratchet_store_of_full (C := idealSuite)
    (x := (bob.sends idealSuite baseB 0 1).toEcView) hfull (constRng 5) (idealKey 4)
    ((alice.sending.map Prod.snd).getD 0) 1 r₂ r₂'
  rw [← hstore] at hfull hfind
  have hfirst := hget 0 (by decide)
  rw [show (alice.ratchet idealSuite (constRng 4) 0 (idealKey 3) 0 0 r r').previous = maxSkip + 1
    from hprevious] at hfirst
  refine ⟨as₂, _, _, h₂, ⟨rfl, ⟨_, rfl⟩, ⟨_, rfl⟩, h₂.store .alice rfl, ?_, ⟨_, hfirst⟩, ?_, ?_⟩,
    ⟨rfl, rfl, ⟨_, rfl⟩, ⟨_, rfl⟩, rfl, ?_, ?_, ?_⟩, hfull, hfind⟩
  · show (alice.sealed ++ _).length = maxSkip + 3
    rw [List.length_append, haSealed]
    rfl
  · show alice.got ++ [0] = [0]
    rw [haGot, List.nil_append]
  · show alice.keys ++ [idealKey 4] = _
    rw [haKeys]
    rfl
  · show (bob.sealed ++ _).length = 1
    rw [hbSealed]
    rfl
  · show bob.got ++ [maxSkip + 1 + 1] = _
    rw [hbGot]
    rfl
  · show bob.keys ++ [idealKey 5] = _
    rw [hbKeys]
    rfl

/-- Two turns later, with Bob's store still full: a message under Alice's second key, whose key
found no room in the store, has sent Bob back to that key while Alice sends under her third. -/
lemma exists_turned_back : ∃ (as : List (Action SessionInput RatchetMessage))
    (alice bob : Standing ℕ) (root : ℕ), Play (fun s => s = .alice) as (boardOf alice bob) ∧
    (alice.dhSelf = (constRng 6).fill 32 ∧ alice.dhRemote = some (idealKey 5) ∧
      (∃ base, alice.receiving = some (base, 1)) ∧ alice.store = .new ∧ alice.got = [0, 1] ∧
      alice.keys = [idealKey 1, idealKey 4, idealKey 6]) ∧
    bob.dhSelf = (constRng 8).fill 32 ∧
      bob.sending = some ((idealSuite.hash.kdfRk root (idealSuite.x25519.diffieHellman
        ((constRng 8).fill 32) (idealKey 4))).chainKey, 0) ∧
      bob.previous = 0 ∧ bob.sealed.length = 2 ∧
      bob.got = [maxSkip, maxSkip + 2, maxSkip + 3, maxSkip + 1] ∧
      bob.keys = [idealKey 0, idealKey 3, idealKey 5, idealKey 7, idealKey 8] := by
  obtain ⟨as, alice, bob, h, ⟨haRemote, ⟨baseR, haReceiving⟩, ⟨baseA, haSending⟩, haStore, haSealed,
    ⟨key, hkey⟩, haGot, haKeys⟩, ⟨hbSelf, hbRemote, ⟨baseS, hbReceiving⟩, ⟨baseB, hbSending⟩,
    hbPrevious, hbSealed, hbGot, hbKeys⟩, hfull, hfind⟩ := exists_dropped_key
  -- the first message under Alice's third key arrives
  obtain ⟨as₁, r, r', h₁⟩ := h.turn 5 6 1 hbSelf hbSending
    (haRemote.trans_ne (some_idealKey_ne (by decide))) haStore
    (forall_of_eq_some haReceiving hbPrevious.le)
  rw [hbSealed, hbPrevious] at h₁
  have hget := getElem?_sends (v := alice.ratchet idealSuite (constRng 6) 1 (idealKey 5) 1 0 r r')
    (b := (idealSuite.hash.kdfRk r' (idealSuite.x25519.diffieHellman ((constRng 6).fill 32)
      (idealKey 5))).chainKey) (n := 0) (k := 1) (j := 0) (by decide) haSealed
  have hprevious : (alice.sending.map Prod.snd).getD 0 = 2 := by
    rw [haSending]
    rfl
  obtain ⟨as₂, r₂, r₂', h₂⟩ := h₁.overflow 7 hget
    (hbRemote.trans_ne (some_idealKey_ne (by decide)))
    (hfind _ _ (idealKey_injective.ne (by decide)))
    (forall_of_eq_some hbReceiving (hprevious.trans_le (by decide))) (by decide)
  have hstore : _ = bob.store := EcView.ratchet_store_of_full (C := idealSuite)
    (x := (bob.sends idealSuite baseB 0 1).toEcView) hfull (constRng 7) (idealKey 6)
    ((alice.sending.map Prod.snd).getD 0) 0 r₂ r₂'
  rw [← hstore] at hfind
  -- and then the message whose key was dropped
  have hlate : ((alice.ratchet idealSuite (constRng 6) 1 (idealKey 5) 1 0 r r').sends idealSuite
      (idealSuite.hash.kdfRk r' (idealSuite.x25519.diffieHellman ((constRng 6).fill 32)
        (idealKey 5))).chainKey 0 1).sealed[maxSkip + 1]? =
          some (idealKey 4, maxSkip + 1, 0, key) := by
    show (alice.sealed ++ _)[maxSkip + 1]? = _
    rw [List.getElem?_append_left (by rw [haSealed]; decide), hkey]
  obtain ⟨as₃, r₃, r₃', h₃⟩ := h₂.overflow 8 hlate (some_idealKey_ne (by decide))
    (hfind _ _ (idealKey_injective.ne (by decide))) (forall_of_eq_some rfl (by decide)) (by decide)
  refine ⟨as₃, _, _, r₃', h₃, ⟨rfl, rfl, ⟨_, rfl⟩, h₃.store .alice rfl, ?_, ?_⟩, rfl, rfl, rfl,
    ?_, ?_, ?_⟩
  · show alice.got ++ [1] = [0, 1]
    rw [haGot]
    rfl
  · show alice.keys ++ [idealKey 6] = _
    rw [haKeys]
    rfl
  · show (bob.sealed ++ _).length = 2
    rw [List.length_append, hbSealed]
    rfl
  · show bob.got ++ [maxSkip + 3 + 0] ++ [maxSkip + 1] = _
    rw [hbGot]
    rfl
  · show bob.keys ++ [idealKey 7] ++ [idealKey 8] = _
    rw [hbKeys]
    rfl

/-- **A full store at the other end breaks delivery.**  Alice's store stays empty all the time.
Bob's fills up with the keys of her first messages, so the key of a later one is dropped; when that
message arrives after all, it looks like one under a new ratchet key, and Bob steps on a key that
Alice has left behind.  His next message then arrives without a gap and in the same epoch, and Alice
refuses it. -/
theorem full_store_at_sender_breaks_delivery :
    ∃ (as : List (Action SessionInput RatchetMessage)) (net : SessionNet ℕ) (e : SealedMessage ℕ),
      (∀ a ∈ as, Proper (fun _ => []) a) ∧
      Net.Along (sessionMachine idealSuite) (fun net a =>
          ((net.step (sessionMachine idealSuite) a).node .alice).skipped.len < maxSkip)
        (sessionNet idealSuite (constRng 1) 0 idealSecret)
        (as ++ [.deliver .alice 2 (idealInput 9)]) ∧
      Orderly (firstKeys idealSuite (constRng 1) 0 idealSecret)
        ((sessionNet idealSuite (constRng 1) 0 idealSecret).run (sessionMachine idealSuite)
          (as ++ [.deliver .alice 2 (idealInput 9)])) ∧
      net = (sessionNet idealSuite (constRng 1) 0 idealSecret).run (sessionMachine idealSuite) as ∧
      (sealedMessages (net.log .bob))[2]? = some e ∧
      (net.node .alice).EcReach e.header ∧
      (∀ c, (net.node .alice).spqr.recvChain (e.header.braidMsg.epoch - 1) = some c →
        e.header.pqMessageNumber ≤ c.n ∨ c.Reaches e.header.pqMessageNumber) ∧
      (net.node .alice).spqr.braid.state.epoch ≤ e.header.braidMsg.epoch + 1 ∧
      ∃ err s', (net.node .alice).decrypt idealSuite (constRng 9) e.message [] [] =
        (.error err, s') := by
  obtain ⟨as, alice, bob, root, h, ⟨haSelf, haRemote, ⟨base, haReceiving⟩, haStore, haGot, haKeys⟩,
    hbSelf, hbSending, hbPrevious, hbSealed, hbGot, hbKeys⟩ := exists_turned_back
  obtain ⟨net, hnet⟩ : ∃ net, net = idealNet.run (sessionMachine idealSuite)
      (as ++ [.send .bob (idealInput 2)]) := ⟨_, rfl⟩
  obtain ⟨e, hget, hec, hpq, hepoch⟩ := h.exists_last .bob 2 hbSending hnet
  have hsent : Play (fun s => s = .alice) (as ++ [.send .bob (idealInput 2)])
      (boardOf alice (bob.sends idealSuite _ 0 1)) := h.send .bob 2 hbSending rfl rfl
  obtain ⟨r, r', hreply⟩ := h.reply 8 9 hbSelf hbSending
    (haRemote.trans_ne (some_idealKey_ne (by decide))) haStore
    (forall_of_eq_some haReceiving (hbPrevious.trans_le (Nat.zero_le _)))
  rw [hbSealed] at hreply
  replace hget : (sealedMessages (net.log .bob))[2]? = some e := by
    rw [← hbSealed]
    exact hget
  have horderly := hreply.orderly
    (Net.forall_side .alice
      (show (alice.got ++ [2]).Nodup by rw [haGot]; decide)
      (show bob.got.Nodup by rw [hbGot]; decide))
    (Net.forall_side .alice
      (show (alice.keys ++ [idealKey 9]).Nodup by
        rw [haKeys]; exact List.Nodup.map idealKey_injective (l := [1, 4, 6, 9]) (by decide))
      (show bob.keys.Nodup by
        rw [hbKeys]; exact List.Nodup.map idealKey_injective (l := [0, 3, 5, 7, 8]) (by decide)))
  -- the header of Bob's message, as Alice reads it
  have hdh : e.header.dhPublicKey = idealKey 8 :=
    (congrArg Prod.fst hec).trans (congrArg idealSuite.x25519.publicKey hbSelf)
  have hprevious : e.header.previousChainLength = 0 :=
    (congrArg (fun label => label.2.1) hec).trans hbPrevious
  have hnumber : e.header.messageNumber = 0 := congrArg (fun label => label.2.2.1) hec
  have hecMk : e.ecMk = ecKey Ideal.hash
    (idealSuite.hash.kdfRk root (idealSuite.x25519.diffieHellman
      ((constRng 8).fill 32) (idealKey 4))).chainKey 0 := congrArg (fun label => label.2.2.2) hec
  have hview : alice.toEcView.Of idealSuite (net.node .alice) := by
    rw [hnet]
    exact (hsent.shows .alice).ec
  have hne : alice.dhRemote ≠ some e.header.dhPublicKey := by
    rw [hdh, haRemote]
    exact some_idealKey_ne (by decide)
  have hnone : alice.store.find e.header.dhPublicKey e.header.messageNumber = none := by
    rw [haStore]
    exact SkippedKeys.find_new
  have hgap : ∀ base n, alice.receiving = some (base, n) →
      e.header.previousChainLength ≤ n + maxSkip := by
    intro _ n _
    rw [hprevious]
    exact Nat.zero_le _
  have hn : e.header.messageNumber ≤ maxSkip := hnumber.trans_le (Nat.zero_le _)
  obtain ⟨r₁, r₁', σ, hkey, -⟩ := hview.resolve (constRng 9) hne hnone hgap hn
  -- Bob's key comes from Alice's second key, hers from the third
  have hdiffer : e.ecMk ≠ ecKey idealSuite.hash (idealSuite.hash.kdfRk r₁
      (idealSuite.x25519.diffieHellman alice.dhSelf e.header.dhPublicKey)).chainKey
        e.header.messageNumber := by
    rw [hecMk, hnumber, hdh, haSelf]
    intro heq
    have hagree := Ideal.eq_of_chainKey (Ideal.ecKey_zero_injective heq)
    rw [diffieHellman_idealKey, diffieHellman_idealKey, Nat.add_comm] at hagree
    exact idealKey_injective.ne (by decide) (Nat.add_right_cancel hagree)
  have hfor := hsent.traffic.sealedFor .bob e (by rw [← hnet]; exact List.mem_of_getElem? hget)
  refine ⟨as ++ [Action.send Side.bob (idealInput 2)], net, e, hsent.proper,
    Net.along_mono (fun _ _ hroom => hroom .alice rfl) _ _ hreply.room, horderly, hnet, hget,
    hview.ecReach hne hgap hn, ?_, hepoch, exists_error_of_ecMk_ne hfor hkey hdiffer [] []⟩
  intro c _
  have hle : e.header.pqMessageNumber ≤ bob.sealed.length + 1 := hpq
  rw [hbSealed] at hle
  exact c.passed_or_reaches (hle.trans (by decide))

end Hushwire
