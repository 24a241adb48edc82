import Hushwire.Ratchet.PqForwardSecrecy

/-!
# Healing

Both halves of a session recover from a theft by mixing in a secret that the thief does not have:
the post-quantum half with every epoch of the braid, the EC half with every Diffie-Hellman step.

* `pq_healing`: a thief gets everything a session holds.  From the first epoch on whose KEM secret
  it cannot compute, no AEAD key can be computed.
* `ec_healing`: a session makes a Diffie-Hellman step whose output an attacker cannot compute.  No
  AEAD key of a message that is sealed from then on can be computed, nor that of a message received
  under a ratchet key that is new to the session.

The two are independent: the first says nothing of the EC keys and the second nothing of the PQ
keys, which may all be known.
-/

namespace Hushwire

open Duplex Secrecy

variable {Key : Type}

/-! ## Keys from an epoch on -/

/-- A key that comes, through the post-quantum ratchet, from the epoch secret `x`. -/
def Hash.EpochKey (H : Hash Key) (x k : Key) : Prop :=
  ∃ rk base, (base = (H.kdfSckaRk rk x).rootKey ∨ base = (H.kdfSckaRk rk x).chainKey0 ∨
    base = (H.kdfSckaRk rk x).chainKey1) ∧ H.PqKey base k

namespace PqPosition

variable {H : Hash Key} {x : Key} {secrets : List Key} {i : ℕ}

/-- The secret `x` of epoch `i + 1` with the KEM secret it is made of, and the keys of that epoch
and of all later ones. -/
def epochKeys (H : Hash Key) (sk raw x : Key) (secrets : List Key) (i : ℕ) : Set Key :=
  {k | k = raw ∨ k = x ∨ ∃ p : PqPosition, i + 1 ≤ p.epoch ∧ p.epoch ≤ secrets.length ∧
    k = p.key H sk secrets}

variable (H) (sk : Key)

/-- The first keys of an epoch come from its secret. -/
lemma key_of_first {p : PqPosition} (hx : secrets[i]? = some x)
    (hp : p = root (i + 1) ∨ ∃ t, p = chain t (i + 1) 0) :
    ∃ rk, p.key H sk secrets = (H.kdfSckaRk rk x).rootKey ∨
      p.key H sk secrets = (H.kdfSckaRk rk x).chainKey0 ∨
      p.key H sk secrets = (H.kdfSckaRk rk x).chainKey1 := by
  refine ⟨(epochChains H sk (secrets.take i)).rootKey, ?_⟩
  rw [← epochChains_succ hx]
  rcases hp with rfl | ⟨t, rfl⟩
  · exact .inl rfl
  · cases t
    · exact .inr (.inl rfl)
    · exact .inr (.inr rfl)

/-- A place of a later epoch is one of its first, or its parent is of such an epoch too. -/
lemma first_or_parent {p : PqPosition} (hi : i + 1 ≤ p.epoch) :
    (p = root (i + 1) ∨ ∃ t, p = chain t (i + 1) 0) ∨
      ∃ q, p.parent = some q ∧ i + 1 ≤ q.epoch := by
  cases hpp : p.parent with
  | none =>
      rcases p with (_ | e) | ⟨t, _ | e, _ | n⟩ | ⟨t, e, n⟩ <;> simp [parent, epoch] at hpp hi
  | some q =>
      rcases epoch_parent hpp with heq | ⟨heq, hfirst⟩
      · exact .inr ⟨q, rfl, heq ▸ hi⟩
      · rcases Nat.lt_or_ge i q.epoch with hlt | hge
        · exact .inr ⟨q, rfl, hlt⟩
        · have hepoch : p.epoch = i + 1 := by omega
          rw [hepoch] at hfirst
          exact .inl hfirst

/-- Every key of that epoch and of all later ones comes from its secret. -/
lemma epochKey_key (hx : secrets[i]? = some x) : ∀ {p : PqPosition}, i + 1 ≤ p.epoch →
    p.epoch ≤ secrets.length → H.EpochKey x (p.key H sk secrets) := by
  intro p hi hp
  rcases first_or_parent hi with hfirst | ⟨q, hpp, hq⟩
  · obtain ⟨rk, hrk⟩ := key_of_first H sk hx hfirst
    exact ⟨rk, _, hrk, .refl⟩
  · obtain ⟨rk, base, hbase, hkey⟩ := epochKey_key hx hq ((epoch_parent_le hpp).trans hp)
    have hparent := pqParent_key H sk hp
    rw [hpp] at hparent
    exact ⟨rk, base, hbase, hkey.tail hparent⟩
termination_by p => p.depth
decreasing_by exact depth_parent hpp

/-- **The keys from an epoch on are guarded**, with the secrets they come from. -/
theorem guarded_epochKeys {bytes : Set Bytes} {raw : Key} {e : ℕ} (hH : H.Free)
    (hraw : ∀ inputs, ¬ H.Computes bytes inputs raw)
    (hx : secrets[i]? = some (Auth.kdfOk H raw e)) :
    Guarded (H.Computes bytes) (epochKeys H sk raw (Auth.kdfOk H raw e) secrets i) := by
  refine guarded_of_needs ?_
  rintro k (rfl | rfl | ⟨p, hi, hp, rfl⟩)
  · exact .inl hraw
  · exact .inr ⟨raw, .inl rfl, hH.needs_ikm⟩
  · refine .inr ?_
    rcases first_or_parent hi with hfirst | ⟨q, hpp, hq⟩
    · refine ⟨Auth.kdfOk H raw e, .inr (.inl rfl), ?_⟩
      obtain ⟨rk, hrk | hrk | hrk⟩ := key_of_first H sk hx hfirst <;>
        rw [hrk] <;> exact hH.needs_ikm
    · have hparent := pqParent_key H sk hp
      rw [hpp] at hparent
      exact ⟨_, .inr (.inr ⟨q, hq, (epoch_parent_le hpp).trans hp, rfl⟩), hparent.needs hH⟩

/-- Later epochs do not change the keys of earlier ones. -/
lemma key_append {p : PqPosition} (hp : p.epoch ≤ secrets.length) (more : List Key) :
    p.key H sk (secrets ++ more) = p.key H sk secrets := by
  cases p with
  | root e =>
      rw [epoch] at hp
      rw [key, key, List.take_append_of_le_length hp]
  | chain t e n =>
      rw [epoch] at hp
      rw [key, key, sendBase, sendBase, chainBases_append hp]
  | message t e n =>
      rw [epoch] at hp
      rw [key, key, sendBase, sendBase, chainBases_append hp]

end PqPosition

/-- What comes from the KEM secret `raw` of an epoch, and what messages make of it. -/
def Hash.OfEpochSecret (H : Hash Key) (raw : Key) (e : ℕ) (k : Key) : Prop :=
  ∃ pq, (pq = raw ∨ pq = Auth.kdfOk H raw e ∨ H.EpochKey (Auth.kdfOk H raw e) pq) ∧
    (k = pq ∨ ∃ ecMk, k = H.kdfHybrid ecMk pq ∨ k = H.aeadKey ecMk pq)

lemma Hash.ofEpochSecret_of_mem {H : Hash Key} {sk raw k : Key} {e i : ℕ} {secrets : List Key}
    (hx : secrets[i]? = some (Auth.kdfOk H raw e))
    (hk : k ∈ PqPosition.epochKeys H sk raw (Auth.kdfOk H raw e) secrets i ∪
      messageKeys H (PqPosition.epochKeys H sk raw (Auth.kdfOk H raw e) secrets i)) :
    H.OfEpochSecret raw e k := by
  have hof : ∀ pq ∈ PqPosition.epochKeys H sk raw (Auth.kdfOk H raw e) secrets i,
      pq = raw ∨ pq = Auth.kdfOk H raw e ∨ H.EpochKey (Auth.kdfOk H raw e) pq := by
    rintro pq (rfl | rfl | ⟨q, hq, hq', rfl⟩)
    · exact .inl rfl
    · exact .inr (.inl rfl)
    · exact .inr (.inr (PqPosition.epochKey_key H sk hx hq hq'))
  rcases hk with hk | ⟨pq, hpq, ecMk, hk⟩
  · exact ⟨k, hof k hk, .inl rfl⟩
  · exact ⟨pq, hof pq hpq, .inr ⟨ecMk, hk⟩⟩

/-- The info string of an epoch secret. -/
def kdfOkInfo (e : ℕ) : Bytes := Auth.protocolInfo ++ ascii ":SCKA Key" ++ Auth.epochBytes e

/-- It is neither one of the authenticator nor one of a chain. -/
lemma kdfOkInfo_ne (e e' : ℕ) (f : PqPosition.Kdf) :
    kdfOkInfo e ≠ Auth.protocolInfo ++ ascii ":Authenticator Update" ++ Auth.epochBytes e' ∧
      kdfOkInfo e ≠ f.info ∧ kdfOkInfo e ≠ ascii "HushwireRatchet" := by
  have htake : ∀ label bytes : Bytes, 8 ≤ label.length →
      (Auth.protocolInfo ++ label ++ bytes).take (Auth.protocolInfo.length + 8) =
        Auth.protocolInfo ++ label.take 8 := by
    intro label bytes hlabel
    rw [List.append_assoc, List.take_length_add_append, List.take_append_of_le_length hlabel]
  have hne : ∀ other : Bytes, Auth.protocolInfo ++ (ascii ":SCKA Key").take 8 ≠
      other.take (Auth.protocolInfo.length + 8) → kdfOkInfo e ≠ other := by
    intro other hother heq
    refine hother ?_
    rw [← heq, kdfOkInfo, htake _ _ (by decide)]
  refine ⟨hne _ ?_, hne _ ?_, hne _ (by decide)⟩
  · rw [htake _ _ (by decide)]
    decide
  · cases f <;> decide

/-- **What a state holds does not come from a later epoch.** -/
theorem SpqrHolding.notMem_epochKeys {P : Prims Key} {sharedSecret raw k : Key} {side : Side}
    {st : SpqrState Key} {log : List (SpqrEvent Key)} {bytes : Set Bytes} {e i : ℕ}
    (hH : P.hash.Free)
    (hbytes : ∀ n, beBytes 4 n ∈ bytes) (hraw : ∀ inputs, ¬ P.hash.Computes bytes inputs raw)
    (h : SpqrHolding P sharedSecret side st log) (hk : st.Holds k) (hi : st.epoch ≤ i)
    (more : List Key) :
    k ∉ PqPosition.epochKeys P.hash (braidAuthSeed P.hash sharedSecret) raw
      (Auth.kdfOk P.hash raw e) (secretsIn (braidLog log) ++ more) i := by
  have hepoch := h.1.chains.epochs.epoch_eq
  -- it is a key of the authenticator or has a place
  have hcases : (∃ (old : Authenticator Key) (epoch : ℕ) (key : Key),
      k = (old.update P.hash epoch key).rootKey ∨ k = (old.update P.hash epoch key).macKey) ∨
      ∃ p : PqPosition, p.epoch ≤ (secretsIn (braidLog log)).length ∧
        k = p.key P.hash (braidAuthSeed P.hash sharedSecret) (secretsIn (braidLog log)) := by
    by_cases hauth : ∃ auth, st.braid.state.auth? = some auth ∧ (k = auth.rootKey ∨ k = auth.macKey)
    · obtain ⟨auth, ha, hk'⟩ := hauth
      obtain ⟨old, epoch, key, rfl⟩ := h.2 auth ha
      exact .inl ⟨old, epoch, key, hk'⟩
    · obtain ⟨p, hp, hkey, -⟩ := h.1.chains.exists_place hk (fun auth ha =>
        ⟨fun heq => hauth ⟨auth, ha, .inl heq⟩, fun heq => hauth ⟨auth, ha, .inr heq⟩⟩)
      exact .inr ⟨p, hp, hkey⟩
  rintro (rfl | rfl | ⟨q, hq, hq', rfl⟩)
  · obtain ⟨ikm, salt, info, len, j, rfl, hikm, -⟩ := h.pqShaped hk
    refine hraw _ (.hkdf ikm salt info len j fun b hb => ?_)
    obtain ⟨n, rfl⟩ := hikm b hb
    exact hbytes n
  · rcases hcases with ⟨old, epoch, key, heq | heq⟩ | ⟨p, hp, heq⟩
    · exact hH.hkdf_ne (kdfOkInfo_ne e epoch .start).1 heq
    · exact hH.hkdf_ne (kdfOkInfo_ne e epoch .start).1 heq
    · obtain ⟨ikm, salt, len, hkey, -⟩ := PqPosition.key_eq P.hash
        (braidAuthSeed P.hash sharedSecret) hp
      exact hH.hkdf_ne (kdfOkInfo_ne e 0 p.kdf).2.1 (heq.trans hkey)
  · rcases hcases with ⟨old, epoch, key, heq⟩ | ⟨p, hp, heq⟩
    · exact heq.elim (update_ne_key hH old epoch key hq').1 (update_ne_key hH old epoch key hq').2
    · rw [← PqPosition.key_append _ _ hp more] at heq
      have hpq := PqPosition.key_inj hH hq' (hp.trans (by simp)) heq
      subst hpq
      omega

section PqHealing

variable [DecidableEq Key] {C : Suite Key} {sharedSecret : Key}

/-- **A new epoch secret heals the post-quantum ratchet.**  A thief gets everything a session holds
after some calls, in both halves, and every key of the world that does not come from the KEM secret
`raw`.  The session goes on, with calls on messages of anyone's making, and at some point `raw`
becomes the secret of epoch `i + 1`, later than the theft.  Then from that epoch on no AEAD key can
be computed, of any message for which the SPQR state inside hands out the key, for sending or for
receiving, whatever the EC key of the message is. -/
theorem pq_healing (hH : C.hash.Free) {bytes : Set Bytes} (hbytes : ∀ n, beBytes 4 n ∈ bytes)
    (hss : ∀ inputs, ¬ C.hash.Computes bytes inputs sharedSecret) {raw : Key}
    (hraw : ∀ inputs, ¬ C.hash.Computes bytes inputs raw) (hne : raw ≠ sharedSecret) {side : Side}
    {start : RatchetSession Key} (hstart : RatchetSession.Starts C sharedSecret side start)
    (before after : List (Call SessionInput RatchetMessage)) {i e : ℕ}
    (hi : ((sessionMachine C).exec (start, []) before).1.spqr.epoch ≤ i)
    (hx : (secretsIn (braidLog (spqrLog ((sessionMachine C).exec (start, [])
      (before ++ after)).2)))[i]? = some (Auth.kdfOk C.hash raw e)) {world : Set Key}
    (hworld : ∀ k ∈ world, ¬ C.hash.OfEpochSecret raw e k) :
    ∀ m n pqMk,
      (.sent m n pqMk ∈ spqrLog ((sessionMachine C).exec (start, []) (before ++ after)).2 ∨
        .received m n pqMk ∈ spqrLog ((sessionMachine C).exec (start, []) (before ++ after)).2) →
      i + 1 ≤ m.epoch - 1 → ∀ ecMk, ¬ Derives (C.hash.Computes bytes)
        (((sessionMachine C).exec (start, []) before).1.secrets ∪ world)
        (C.hash.aeadKey ecMk pqMk) := by
  intro m n pqMk hmem hm ecMk
  have hthen := hstart.spqrHolding before
  have hec := hstart.ecBooks hH (ecTree hH (fun p hp => (hp.computes bytes).elim hss)) before
  have hchains := (hstart.spqrHolding (before ++ after)).1.chains
  have hexact := hstart.receivedExact (before ++ after)
  -- the secrets of the earlier epochs stay as they are
  obtain ⟨more, hmore⟩ : ∃ more, secretsIn (braidLog (spqrLog ((sessionMachine C).exec (start, [])
      (before ++ after)).2)) = secretsIn (braidLog (spqrLog ((sessionMachine C).exec (start, [])
        before).2)) ++ more := by
    obtain ⟨evs, hevs⟩ := (sessionMachine C).prefix_exec
      ((sessionMachine C).exec (start, []) before) after
    refine ⟨secretsIn (braidLog (spqrLog evs)), ?_⟩
    rw [Machine.exec_append, ← hevs, spqrLog_append, braidLog_append, secretsIn,
      List.filterMap_append, List.map_append]
    rfl
  generalize (sessionMachine C).exec (start, []) (before ++ after) = out at *
  generalize (sessionMachine C).exec (start, []) before = stolen at *
  have hepoch := hchains.epochs.epoch_eq
  have hguarded := guarded_messageKeys hH (PqPosition.guarded_epochKeys C.hash
    (braidAuthSeed C.hash sharedSecret) hH hraw hx)
  -- the PQ key is at a place of an epoch that late
  obtain ⟨p, hp, hp', rfl⟩ : ∃ p : PqPosition, i + 1 ≤ p.epoch ∧ p.epoch ≤ out.1.spqr.epoch ∧
      pqMk = p.key C.hash (braidAuthSeed C.hash sharedSecret)
        (secretsIn (braidLog (spqrLog out.2))) := by
    rcases hmem with hmem | hmem
    · have hsent : ((m.epoch - 1, n), pqMk) ∈ sentKeys (spqrLog out.2) :=
        List.mem_filterMap.mpr ⟨_, hmem, rfl⟩
      obtain ⟨-, rfl⟩ := hchains.sending.key_eq _ _ _ hsent
      exact ⟨.message side _ _, hm, (hchains.sending.le _ _ _ hsent).1.trans
        hchains.sending.low_le, rfl⟩
    · obtain ⟨-, rfl⟩ := hexact m n pqMk hmem
      refine ⟨.message side.other (m.epoch - 1) (n - 1), hm,
        (hchains.receiving.spent _ n (mem_acceptedPairs hmem)).1, ?_⟩
      rw [recvBase_eq]
      rfl
  refine hguarded.not_derives ?_ (.inr ⟨_, .inr (.inr ⟨p, hp, hepoch ▸ hp', rfl⟩), ecMk, .inr rfl⟩)
  rintro k ((⟨slot, hslot⟩ | hpq) | hk) hmem
  · obtain ⟨erased, hfrontier, -⟩ := hec
    have hkey : C.hash.EcKey sharedSecret k := hfrontier.descends k (.inl ⟨slot, hslot⟩)
    rcases hmem with (rfl | rfl | ⟨q, -, -, rfl⟩) | ⟨pq, -, ecMk', hk⟩
    · rcases hkey.cases with heq | ⟨p, hp⟩
      · exact hne heq
      · exact (hp.computes bytes).elim hraw
    · exact hkey.ne_hkdf hH hss (by simp) (kdfOkInfo_ne e 0 .start).2.2.symm rfl
    · exact (PqPosition.pqShaped_key q).not_ofEcRatchet hH hss hbytes ⟨_, hkey, .inl rfl⟩
    · have hne := hkey.ne_message hH hss ecMk' pq
      exact hk.elim hne.1 hne.2
  · rcases hmem with hmem | hmem
    · rw [hmore] at hmem
      exact hthen.notMem_epochKeys hH hbytes hraw hpq hi more hmem
    · exact (hthen.pqShaped hpq).notMem_messageKeys hH _ hmem
  · exact hworld k hk (Hash.ofEpochSecret_of_mem hx hmem)

end PqHealing

/-! ## The EC half -/

/-- A key that comes, through the EC ratchet, from the Diffie-Hellman output `d`. -/
def Hash.StepKey (H : Hash Key) (d k : Key) : Prop :=
  ∃ rk base, (base = (H.kdfRk rk d).rootKey ∨ base = (H.kdfRk rk d).chainKey) ∧ H.EcKey base k

lemma Hash.StepKey.child {H : Hash Key} {d k c : Key} (h : H.StepKey d k) (hc : H.EcParent k c) :
    H.StepKey d c := by
  obtain ⟨rk, base, hbase, hk⟩ := h
  exact ⟨rk, base, hbase, hk.tail hc⟩

/-- Every EC key that was taken and is not for one of the ratchet keys in `old` comes from `d`. -/
structure HealedLog (H : Hash Key) (d : Key) (old : Set Key) (log : List (SessionEvent Key)) :
    Prop where
  sealed : ∀ header ecMk pqMk plaintext message, .sealed header ecMk pqMk plaintext message ∈ log →
    H.StepKey d ecMk
  handedOut : ∀ dh n ecMk, .handedOut dh n ecMk ∈ log → H.StepKey d ecMk ∨ dh ∈ old

lemma HealedLog.append {H : Hash Key} {d : Key} {old : Set Key} {log evs : List (SessionEvent Key)}
    (h : HealedLog H d old log) (h' : HealedLog H d old evs) : HealedLog H d old (log ++ evs) where
  sealed _ _ _ _ _ hmem := (List.mem_append.mp hmem).elim (h.sealed _ _ _ _ _) (h'.sealed _ _ _ _ _)
  handedOut _ _ _ hmem := (List.mem_append.mp hmem).elim (h.handedOut _ _ _) (h'.handedOut _ _ _)

section Healed

variable [DecidableEq Key]

/-- The ratchet keys of the peer that a session has keys for. -/
def RatchetSession.ratchetKeys (s : RatchetSession Key) : Set Key :=
  {dh | s.dhRemote = some dh ∨ ∃ n k, s.skipped.find dh n = some k}

/-- Every slot of the EC half that is not left from one of the ratchet keys in `old` holds a key
that comes from `d`. -/
structure HealedSlots (H : Hash Key) (d : Key) (old : Set Key) (s : RatchetSession Key) : Prop where
  root : H.StepKey d s.rootKey
  sending : ∀ c, s.sendingChain = some c → H.StepKey d c.chainKey
  receiving : ∀ c, s.receivingChain = some c →
    H.StepKey d c.chainKey ∨ ∃ dh ∈ old, s.dhRemote = some dh
  skipped : ∀ dh n k, s.skipped.find dh n = some k → H.StepKey d k ∨ dh ∈ old

variable {C : Suite Key} {H : Hash Key} {d : Key} {old : Set Key} {s s' : RatchetSession Key}

namespace HealedSlots

/-- The slots do not depend on the post-quantum half. -/
lemma setSpqr (h : HealedSlots H d old s) (spqr : SpqrState Key) :
    HealedSlots H d old { s with spqr } := ⟨h.root, h.sending, h.receiving, h.skipped⟩

lemma sendKeys (h : HealedSlots C.hash d old s) (rng : Rng) :
    HealedSlots C.hash d old (s.sendKeys C rng).2 ∧
      ∀ header ecMk pqMk, (s.sendKeys C rng).1 = .ok (header, ecMk, pqMk) →
        C.hash.StepKey d ecMk := by
  obtain ⟨r, spqr, -, ⟨⟨e, hkeys⟩, -⟩ | ⟨m, pqN, pqMk, chain, -, hc, hkeys⟩⟩ :=
    RatchetSession.sendKeys_eq C rng s
  · rw [hkeys]
    exact ⟨h.setSpqr spqr, fun _ _ _ hok => by cases hok⟩
  · rw [hkeys]
    have hchain := h.sending chain hc
    refine ⟨⟨h.root, ?_, h.receiving, h.skipped⟩, ?_⟩
    · intro c hc'
      obtain rfl := Option.some.inj hc'
      exact hchain.child .chain
    · intro header ecMk pqMk' hok
      obtain ⟨-, hparts⟩ := Prod.mk.inj (Except.ok.inj hok)
      rw [← (Prod.mk.inj hparts).1]
      exact hchain.child .message

/-- The loop of `skip_receiving_messages`, on a chain that comes from `d` unless `Q` holds, which
makes its ratchet key an old one. -/
lemma skipKeys {Q : Prop} {dh : Key} (hQ : Q → dh ∈ old) (k : ℕ) :
    ∀ (chain : ChainState Key) (store : SkippedKeys Key), (H.StepKey d chain.chainKey ∨ Q) →
      (∀ dh n k, store.find dh n = some k → H.StepKey d k ∨ dh ∈ old) →
      (H.StepKey d (RatchetSession.skipKeys H dh k chain store).1.chainKey ∨ Q) ∧
        ∀ dh' n' k', (RatchetSession.skipKeys H dh k chain store).2.find dh' n' = some k' →
          H.StepKey d k' ∨ dh' ∈ old := by
  induction k with
  | zero => exact fun chain store hchain hstore => ⟨hchain, hstore⟩
  | succ k ih =>
      intro chain store hchain hstore
      refine ih _ _ (hchain.imp_left fun h => h.child .chain) ?_
      intro dh' n' k' hfind
      rcases lt_or_ge store.len maxSkip with hroom | hfull
      · rw [SkippedKeys.find_insert hroom] at hfind
        split at hfind
        · rename_i hthis
          rw [← Option.some.inj hfind, hthis.1]
          exact hchain.imp (fun h => h.child .message) hQ
        · exact hstore dh' n' k' hfind
      · rw [SkippedKeys.insert_of_full hfull] at hfind
        exact hstore dh' n' k' hfind

lemma skips (h : HealedSlots H d old s) {upTo : ℕ} {r : Result Unit}
    (hskip : RatchetSession.Skips H upTo s r s') : HealedSlots H d old s' := by
  cases hskip with
  | noChain _ => exact h
  | passed _ _ => exact h
  | tooFar _ _ => exact h
  | @stored c hc _ _ =>
      have hold : (∃ dh ∈ old, s.dhRemote = some dh) → s.dhRemote.getD H.zero ∈ old := by
        rintro ⟨dh, hdh, hremote⟩
        rwa [hremote]
      obtain ⟨hchain, hstore⟩ := skipKeys hold (upTo - c.messageNumber) c s.skipped
        (h.receiving c hc) h.skipped
      refine ⟨h.root, h.sending, ?_, hstore⟩
      intro c' hc'
      obtain rfl := Option.some.inj hc'
      exact hchain

lemma performDhRatchetStep (h : HealedSlots C.hash d old s) (rng : Rng)
    (header : MessageHeader Key) :
    HealedSlots C.hash d old (s.performDhRatchetStep C rng header) where
  root := (h.root.child (.root _)).child (.root _)
  sending c hc := by
    obtain rfl := Option.some.inj hc
    exact (h.root.child (.root _)).child (.base _)
  receiving c hc := by
    obtain rfl := Option.some.inj hc
    exact .inl (h.root.child (.base _))
  skipped := h.skipped

lemma ratchets (h : HealedSlots C.hash d old s) {rng : Rng} {header : MessageHeader Key}
    {r : Result Unit} (hratchet : RatchetSession.Ratchets C rng header s r s') :
    HealedSlots C.hash d old s' := by
  cases hratchet with
  | same _ => exact h
  | refused _ hskip => exact h.skips hskip
  | stepped _ hskip => exact (h.skips hskip).performDhRatchetStep rng header

/-- **The EC half of a delivery**: the key it takes comes from `d`, or is for an old ratchet key. -/
theorem resolves (h : HealedSlots C.hash d old s) {rng : Rng} {header : MessageHeader Key}
    {r : Result Key} (hresolves : RatchetSession.Resolves C rng header s r s') :
    HealedSlots C.hash d old s' ∧
      ∀ key, r = .ok key → C.hash.StepKey d key ∨ header.dhPublicKey ∈ old := by
  cases hresolves with
  | stored hkey =>
      refine ⟨⟨h.root, h.sending, h.receiving, ?_⟩, ?_⟩
      · intro dh n k hfind
        have hfind' : (s.skipped.remove header.dhPublicKey header.messageNumber).find dh n =
            some k := hfind
        rw [SkippedKeys.find_remove] at hfind'
        split at hfind'
        · cases hfind'
        · exact h.skipped dh n k hfind'
      · intro key hok
        obtain rfl := Except.ok.inj hok
        exact h.skipped _ _ _ hkey
  | refused _ hratchet => exact ⟨h.ratchets hratchet, fun _ hok => by cases hok⟩
  | tooFar _ hratchet hskip =>
      exact ⟨(h.ratchets hratchet).skips hskip, fun _ hok => by cases hok⟩
  | noChain _ hratchet hskip _ =>
      exact ⟨(h.ratchets hratchet).skips hskip, fun _ hok => by cases hok⟩
  | @advanced s₁ s' c _ hratchet hskip hc =>
      have h' := (h.ratchets hratchet).skips hskip
      have hremote : s'.dhRemote = some header.dhPublicKey := by
        rw [hskip.dhRemote]
        cases hratchet with
        | same hdh => exact hdh
        | stepped _ _ => rfl
      have hchain := h'.receiving c hc
      refine ⟨⟨h'.root, h'.sending, ?_, h'.skipped⟩, ?_⟩
      · intro c' hc'
        obtain rfl := Option.some.inj hc'
        exact hchain.imp_left fun hk => hk.child .chain
      · intro key hok
        obtain rfl := Except.ok.inj hok
        rcases hchain with hk | ⟨dh, hdh, hdh'⟩
        · exact .inl (hk.child .message)
        · rw [hremote] at hdh'
          exact .inr (Option.some.inj hdh' ▸ hdh)

end HealedSlots

/-- The Diffie-Hellman part of a session after a step to the ratchet key `dh`. -/
structure HealedRoot (H : Hash Key) (d dh : Key) (s : RatchetSession Key) : Prop where
  root : H.StepKey d s.rootKey
  sending : ∀ c, s.sendingChain = some c → H.StepKey d c.chainKey
  dhRemote : s.dhRemote = some dh

namespace HealedRoot

variable {rng : Rng} {header : MessageHeader Key} {dh : Key}

lemma skips (h : HealedRoot H d dh s) {upTo : ℕ} {r : Result Unit}
    (hskip : RatchetSession.Skips H upTo s r s') : HealedRoot H d dh s' := by
  cases hskip <;> exact ⟨h.root, h.sending, h.dhRemote⟩

/-- A step with `d` in either half. -/
lemma of_ratchets {r : Result Unit} (hratchet : RatchetSession.Ratchets C rng header s r s')
    (hstep : s'.dhRemote ≠ s.dhRemote)
    (hd : d = C.x25519.diffieHellman s.dhSelf header.dhPublicKey ∨
      d = C.x25519.diffieHellman (rng.fill 32) header.dhPublicKey) :
    HealedRoot C.hash d header.dhPublicKey s' := by
  cases hratchet with
  | same _ => exact absurd rfl hstep
  | refused _ hskip => exact absurd hskip.dhRemote hstep
  | @stepped s₁ _ hskip =>
      rw [← hskip.root.2] at hd
      refine ⟨?_, ?_, rfl⟩
      · rcases hd with rfl | rfl
        · exact ⟨_, _, .inl rfl, .single (.root _)⟩
        · exact ⟨_, _, .inl rfl, .refl⟩
      · intro c hc
        obtain rfl := Option.some.inj hc
        rcases hd with rfl | rfl
        · exact ⟨_, _, .inl rfl, .single (.base _)⟩
        · exact ⟨_, _, .inr rfl, .refl⟩

lemma of_resolves {r : Result Key} (hresolves : RatchetSession.Resolves C rng header s r s')
    (hstep : s'.dhRemote ≠ s.dhRemote)
    (hd : d = C.x25519.diffieHellman s.dhSelf header.dhPublicKey ∨
      d = C.x25519.diffieHellman (rng.fill 32) header.dhPublicKey) :
    HealedRoot C.hash d header.dhPublicKey s' := by
  cases hresolves with
  | stored _ => exact absurd rfl hstep
  | refused _ hratchet => exact of_ratchets hratchet hstep hd
  | tooFar _ hratchet hskip | noChain _ hratchet hskip _ =>
      exact (of_ratchets hratchet (hskip.dhRemote ▸ hstep) hd).skips hskip
  | @advanced s₁ s₂ c _ hratchet hskip _ =>
      have hstep' : s₂.dhRemote ≠ s.dhRemote := hstep
      have h := (of_ratchets hratchet (hskip.dhRemote ▸ hstep') hd).skips hskip
      exact ⟨h.root, h.sending, h.dhRemote⟩

/-- Old are the ratchet keys that the session has keys for after the step. -/
lemma healedSlots (h : HealedRoot H d dh s) : HealedSlots H d s.ratchetKeys s where
  root := h.root
  sending := h.sending
  receiving _ _ := .inr ⟨dh, .inl h.dhRemote, h.dhRemote⟩
  skipped _ n k hfind := .inr (.inr ⟨n, k, hfind⟩)

end HealedRoot

/-- **A session that has healed stays so**, whatever it is called with. -/
theorem healed_inductive (C : Suite Key) (d : Key) (old : Set Key) :
    (sessionMachine C).Inductive
      (fun s log => HealedSlots C.hash d old s ∧ HealedLog C.hash d old log) where
  send s log input h := by
    cases hpending : s.pendingPrekey with
    | some initial =>
        rw [sessionMachine_send_pending input (by rw [hpending]; rfl), List.append_nil]
        exact h
    | none =>
        obtain ⟨om, own, hcall, hown⟩ := sessionMachine_send (C := C) input hpending
        obtain ⟨hslots, hkey⟩ := h.1.sendKeys input.rng
        rw [hcall]
        refine ⟨hslots, h.2.append ⟨?_, ?_⟩⟩
        · intro header ecMk pqMk plaintext message hmem
          rcases hown with ⟨-, rfl⟩ | ⟨header', ecMk', pqMk', ciphertext, hkeys, -, -, rfl⟩
          · simp at hmem
          · obtain ⟨rfl, rfl, rfl⟩ : header = header' ∧ ecMk = ecMk' ∧ pqMk = pqMk' := by
              simp at hmem
              exact ⟨hmem.1, hmem.2.1, hmem.2.2.1⟩
            exact hkey _ _ _ hkeys
        · intro dh n ecMk hmem
          rcases hown with ⟨-, rfl⟩ | ⟨_, _, _, _, -, -, -, rfl⟩ <;> simp at hmem
  recv s log message input h := by
    have hratchet : ∀ header remote own,
        HealedLog C.hash d old (ratchetEvents C header s remote own) := by
      intro header remote own
      unfold ratchetEvents
      split <;> exact ⟨by simp, by simp⟩
    rcases sessionMachine_recv (C := C) (s := s) message input with ⟨-, hcall⟩ | ⟨header, -,
      ⟨e, s', hec, hcall⟩ | ⟨ecMk, s₁, own, hec, hcall, hown⟩⟩
    · rw [hcall, List.append_nil]
      exact h
    · rw [hcall]
      exact ⟨(h.1.resolves (.of_eq hec)).1, h.2.append (hratchet _ _ _)⟩
    · obtain ⟨hslots, hkey⟩ := h.1.resolves (.of_eq hec)
      rw [hcall]
      refine ⟨hslots.setSpqr _, h.2.append ((hratchet _ _ _).append ⟨?_, ?_⟩)⟩
      · intro header' ecMk' pqMk plaintext message' hmem
        rcases hown with rfl | ⟨_, _, _, -, rfl⟩ <;> simp at hmem
      · intro dh n ecMk' hmem
        obtain ⟨rfl, rfl, rfl⟩ : dh = header.dhPublicKey ∧ n = header.messageNumber ∧
            ecMk' = ecMk := by
          rcases hown with rfl | ⟨_, _, _, -, rfl⟩ <;> simpa using hmem
        exact hkey _ rfl

end Healed

/-- What comes from the Diffie-Hellman output `d`, and what messages make of it. -/
def Hash.OfDhOutput (H : Hash Key) (d k : Key) : Prop :=
  k = d ∨ ∃ ec, H.StepKey d ec ∧ (k = ec ∨ ∃ pqMk, k = H.kdfHybrid ec pqMk ∨ k = H.aeadKey ec pqMk)

/-- A Diffie-Hellman output that cannot be computed guards all that comes from it. -/
lemma Hash.Free.guarded_ofDhOutput {H : Hash Key} (hH : H.Free) {bytes : Set Bytes} {d : Key}
    (hd : ∀ inputs, ¬ H.Computes bytes inputs d) :
    Guarded (H.Computes bytes) {k | H.OfDhOutput d k} := by
  refine guarded_of_needs ?_
  rintro k (rfl | ⟨ec, hec, rfl | ⟨pqMk, rfl | rfl⟩⟩)
  · exact .inl hd
  · obtain ⟨rk, base, hbase, hk⟩ := hec
    refine .inr ?_
    rcases Relation.ReflTransGen.cases_tail hk with rfl | ⟨p, hp, hparent⟩
    · refine ⟨d, .inl rfl, ?_⟩
      rcases hbase with rfl | rfl <;> exact hH.needs_ikm
    · exact ⟨p, .inr ⟨p, ⟨rk, base, hbase, hp⟩, .inl rfl⟩, hparent.needs hH⟩
  · exact .inr ⟨ec, .inr ⟨ec, hec, .inl rfl⟩, hH.needs_ikm⟩
  · exact .inr ⟨H.kdfHybrid ec pqMk, .inr ⟨ec, hec, .inr ⟨pqMk, .inl rfl⟩⟩, hH.needs_ikm⟩

/-- **A Diffie-Hellman step heals the EC ratchet.**  A session in any state is handed a message and
makes a Diffie-Hellman step, whatever becomes of the message.  An attacker may know everything, all
that the session held included, but nothing that comes from the Diffie-Hellman output `d` of one
half of the step, and cannot compute `d`.  Then it cannot compute the AEAD key of any message that
the session seals in any calls from then on, nor that of a message that it receives under a ratchet
key for which it had no keys at the time of the step.  All PQ keys may be known. -/
theorem ec_healing [DecidableEq Key] {C : Suite Key} (hH : C.hash.Free)
    {bytes : Set Bytes} {d : Key}
    (hd : ∀ inputs, ¬ C.hash.Computes bytes inputs d) {s : RatchetSession Key}
    {message : RatchetMessage} {input : SessionInput} {dhRemote chainKey dhSelfPublic : Key}
    (hstep : .ratcheted dhRemote chainKey dhSelfPublic ∈
      ((sessionMachine C).recv s message input).2)
    (hdh : d = C.x25519.diffieHellman s.dhSelf dhRemote ∨
      d = C.x25519.diffieHellman (input.rng.fill 32) dhRemote)
    (calls : List (Call SessionInput RatchetMessage)) {known : Set Key}
    (hknown : ∀ k ∈ known, ¬ C.hash.OfDhOutput d k) :
    let healed := ((sessionMachine C).recv s message input).1
    let log := ((sessionMachine C).exec (healed, []) calls).2
    (∀ header ecMk pqMk plaintext message', .sealed header ecMk pqMk plaintext message' ∈ log →
      ¬ Derives (C.hash.Computes bytes) known (C.hash.aeadKey ecMk pqMk)) ∧
    ∀ dh n ecMk pqMk, .handedOut dh n ecMk ∈ log → dh ∉ healed.ratchetKeys →
      ¬ Derives (C.hash.Computes bytes) known (C.hash.aeadKey ecMk pqMk) := by
  intro healed log
  have hslots : HealedSlots C.hash d healed.ratchetKeys healed := by
    have hevents : ∀ {header : MessageHeader Key} {remote : Option Key} {own : Key},
        .ratcheted dhRemote chainKey dhSelfPublic ∈ ratchetEvents C header s remote own →
          remote ≠ s.dhRemote ∧ header.dhPublicKey = dhRemote := by
      intro header remote own hmem
      unfold ratchetEvents at hmem
      split at hmem
      · cases hmem
      · rename_i hne
        simp at hmem
        exact ⟨hne, hmem.1.symm⟩
    rcases sessionMachine_recv (C := C) (s := s) message input with ⟨-, hcall⟩ | ⟨header, -,
      ⟨e, s', hec, hcall⟩ | ⟨ecMk, s₁, own, hec, hcall, hown⟩⟩
    · rw [hcall] at hstep
      cases hstep
    · rw [hcall] at hstep
      obtain ⟨hne, rfl⟩ := hevents hstep
      have hhealed : healed = s' := congrArg Prod.fst hcall
      rw [hhealed]
      exact (HealedRoot.of_resolves (.of_eq hec) hne hdh).healedSlots
    · have hmem : .ratcheted dhRemote chainKey dhSelfPublic ∈
          ratchetEvents C header s s₁.dhRemote s₁.dhSelfPublic := by
        rw [hcall] at hstep
        rcases hown with rfl | ⟨_, _, _, -, rfl⟩ <;> simpa using hstep
      obtain ⟨hne, rfl⟩ := hevents hmem
      have hhealed : healed = { s₁ with spqr := ((spqrMachine C.toPrims).recv s.spqr
          (header.braidMsg, header.pqMessageNumber) input.rng).1 } := congrArg Prod.fst hcall
      rw [hhealed]
      exact (HealedRoot.of_resolves (.of_eq hec) hne hdh).healedSlots.setSpqr _
  have hlog : HealedLog C.hash d healed.ratchetKeys log :=
    ((healed_inductive C d _).exec calls (healed, []) ⟨hslots, ⟨by simp, by simp⟩⟩).2
  have hguarded := hH.guarded_ofDhOutput hd
  constructor
  · intro header ecMk pqMk plaintext message' hmem
    exact hguarded.not_derives hknown
      (.inr ⟨ecMk, hlog.sealed _ _ _ _ _ hmem, .inr ⟨pqMk, .inr rfl⟩⟩)
  · intro dh n ecMk pqMk hmem hnew
    exact hguarded.not_derives hknown
      (.inr ⟨ecMk, (hlog.handedOut _ _ _ hmem).resolve_right hnew, .inr ⟨pqMk, .inr rfl⟩⟩)

/-! ## Instances -/

section Instances

/-- A KEM with the same secret every time. -/
def Ideal.fixedKem (ss : ℕ) : Libcrux ℕ :=
  { kem with
    encapsulate1 := fun _ r => .ok (fit ct1Len r, [], ss)
    decapsulateIncrementalKey := fun _ _ _ => .ok ss
    encapsulate1_length := by
      intro pk r ct1 st ss' h
      cases h
      exact ⟨length_fit _ _, rfl⟩ }

lemma Ideal.fixedKem_correct (ss : ℕ) : (fixedKem ss).Correct where
  validate_ok seed h := kem_correct.validate_ok seed h
  encapsulate1_ok seed r _ _ := ⟨_, rfl⟩
  decapsulate_ok seed r ct1 st ss' _ _ h := by
    cases h
    rfl

/-- The ideal suite with KDFs whose outputs are all distinct, and with a KEM secret and a
Diffie-Hellman output that are not among them. -/
noncomputable def guardedSuite : Suite ℕ :=
  { freeSuite with
    kem := Ideal.fixedKem 1
    x25519 := { Ideal.x25519 with diffieHellman := fun _ _ => 1 } }

lemma guardedSuite_correct : guardedSuite.toPrims.Correct :=
  ⟨Ideal.fixedKem_correct 1, Ideal.codec_correct⟩

/-- Bob's session under it. -/
noncomputable def guardedBob : RatchetSession ℕ :=
  .initializeBob guardedSuite 0 (idealSecret, guardedSuite.x25519.publicKey idealSecret)

/-- A header with a new ratchet key gets an EC key, whoever made it. -/
lemma exists_ecMessageKey [DecidableEq Key] (C : Suite Key) (s : RatchetSession Key) (rng : Rng)
    {dh : Key} (hdh : s.dhRemote ≠ some dh) (m : Message) :
    ∃ ecMk s', s.ecMessageKey C rng ⟨dh, 0, 0, m, 0⟩ = (.ok ecMk, s') := by
  have hresolves := RatchetSession.resolves_ecMessageKey C rng ⟨dh, 0, 0, m, 0⟩ s
  generalize s.ecMessageKey C rng ⟨dh, 0, 0, m, 0⟩ = out at hresolves ⊢
  obtain ⟨r, s'⟩ := out
  -- nothing is skipped, so no skip is refused
  cases hresolves with
  | stored _ | advanced _ _ _ _ => exact ⟨_, _, rfl⟩
  | refused _ hratchet =>
      cases hratchet with
      | refused _ hskip => cases hskip with | tooFar _ h => exact absurd h (Nat.not_lt_zero _)
  | tooFar _ hratchet hskip => cases hskip with | tooFar _ h => exact absurd h (Nat.not_lt_zero _)
  | noChain _ hratchet hskip hc =>
      cases hratchet with
      | same h => exact absurd h hdh
      | stepped _ _ =>
          cases hskip with
          | noChain hnone => cases hnone
          | passed hsome _ => exact absurd (hc.symm.trans hsome) (by simp)
          | stored _ _ _ => cases hc

/-- Every call on the braid inside a session is made by some call on the session. -/
lemma exists_driving_call {C : Suite ℕ} (hW : C.postcard.Correct) {sharedSecret : ℕ} {side : Side}
    {s : RatchetSession ℕ} {log : List (SpqrEvent ℕ)} (hpending : s.pendingPrekey = none)
    (h : SpqrLocal C.toPrims sharedSecret side s.spqr log) (c : Call Rng Message) :
    ∃ call, ((sessionMachine C).call s call).1.pendingPrekey = none ∧
      ((sessionMachine C).call s call).1.spqr.braid =
        ((braidMachine C.toPrims).call s.spqr.braid c).1 ∧
      braidLog (spqrLog ((sessionMachine C).call s call).2) =
        ((braidMachine C.toPrims).call s.spqr.braid c).2 := by
  cases c with
  | send rng =>
      refine ⟨.send ⟨rng, [], [], []⟩, ?_⟩
      obtain ⟨om, own, hcall, -⟩ := sessionMachine_send (C := C) ⟨rng, [], [], []⟩ hpending
      obtain ⟨st', om', own', hsend, hbraid, -, hown', -⟩ := h.send rng
      have hlog := spqrLog_send (C := C) ⟨rng, [], [], []⟩ hpending
      rw [Machine.call_send, hlog, hcall]
      refine ⟨?_, ?_, ?_⟩
      · obtain ⟨r, spqr, -, ⟨⟨e, hkeys⟩, -⟩ | ⟨m, pqN, pqMk, chain, -, hc, hkeys⟩⟩ :=
          RatchetSession.sendKeys_eq C rng s
        · rw [hkeys]
          exact hpending
        · rw [hkeys]
          exact hpending
      · rw [RatchetSession.sendKeys_spqr, ← spqrMachine_send_fst, hsend]
        exact hbraid
      · rw [hsend, braidLog_append, braidLog_map, hown', List.append_nil]
        rfl
  | recv m rng =>
      obtain ⟨dh, hdh⟩ : ∃ dh, s.dhRemote ≠ some dh := by
        cases hremote : s.dhRemote with
        | none => exact ⟨0, by simp⟩
        | some dh => exact ⟨dh + 1, by simp⟩
      obtain ⟨ecMk, s₁, hec⟩ := exists_ecMessageKey C s rng hdh m
      obtain ⟨st', own', hrecv, hbraid, hown', -⟩ := h.recv (m, 0) rng
      refine ⟨.recv ⟨(⟨dh, 0, 0, m, 0⟩ : MessageHeader ℕ).serialize C.postcard, []⟩
        ⟨rng, [], [], []⟩, ?_⟩
      rcases sessionMachine_recv (C := C) (s := s)
        ⟨(⟨dh, 0, 0, m, 0⟩ : MessageHeader ℕ).serialize C.postcard, []⟩ ⟨rng, [], [], []⟩ with
        ⟨⟨e, hbad⟩, -⟩ | ⟨header, hheader, hcases⟩
      · rw [MessageHeader.deserialize_serialize hW] at hbad
        cases hbad
      · rw [MessageHeader.deserialize_serialize hW] at hheader
        obtain rfl := Except.ok.inj hheader
        rcases hcases with ⟨e, s', hbad, -⟩ | ⟨ecMk', s₁', own, hec', hcall, hown⟩
        · exact absurd (hec.symm.trans hbad) (by simp)
        · obtain ⟨-, rfl⟩ := Prod.mk.inj (hec.symm.trans hec')
          have hquiet : spqrLog own = [] := by
            rcases hown with rfl | ⟨_, _, _, -, rfl⟩ <;> rfl
          simp only [Machine.call, hcall]
          refine ⟨(RatchetSession.Resolves.of_eq hec).spqr.2.trans hpending, ?_, ?_⟩
          · rw [hrecv]
            exact hbraid
          · rw [spqrLog_keyed _ _ _ _ _ _ _ hquiet, hrecv, braidLog_append, braidLog_map, hown',
              List.append_nil]

/-- So the braid inside a session can be driven through any calls, without a key. -/
lemma exists_driving_calls {C : Suite ℕ} (hW : C.postcard.Correct) {sharedSecret : ℕ} {side : Side}
    (cs : List (Call Rng Message)) : ∀ (s : RatchetSession ℕ) (log : List (SessionEvent ℕ)),
      s.pendingPrekey = none → SpqrLocal C.toPrims sharedSecret side s.spqr (spqrLog log) →
      ∃ calls, ((sessionMachine C).exec (s, log) calls).1.pendingPrekey = none ∧
        ((sessionMachine C).exec (s, log) calls).1.spqr.braid =
          ((braidMachine C.toPrims).exec (s.spqr.braid, braidLog (spqrLog log)) cs).1 := by
  induction cs with
  | nil => exact fun s log hpending _ => ⟨[], hpending, rfl⟩
  | cons c cs ih =>
      intro s log hpending h
      obtain ⟨call, hpending', hbraid, hlog⟩ := exists_driving_call hW hpending h c
      have h' := (sessionMachine_inductive (spqrLocal_inductive C.toPrims sharedSecret side)).call
        h call
      obtain ⟨calls, hcalls, hdriven⟩ := ih _ _ hpending' h'
      refine ⟨call :: calls, hcalls, hdriven.trans ?_⟩
      rw [hbraid, spqrLog_append, braidLog_append, hlog]
      rfl

lemma State.Sends.secret_of_fixedKem {P : Prims ℕ} {ss : ℕ} (hkem : P.kem = Ideal.fixedKem ss)
    {rng : Rng} {st st' : State ℕ} {m : Message} {o : Option (EpochSecret ℕ)}
    (h : State.Sends P rng st st' m o) :
    ∀ y ∈ o.toList, y.secret = Auth.kdfOk P.hash ss y.epoch := by
  cases h with
  | encapsulate hencaps _ =>
      rw [hkem] at hencaps
      cases hencaps
      simp
  | _ => simp

lemma State.Receives.secret_of_fixedKem {P : Prims ℕ} {ss : ℕ} (hkem : P.kem = Ideal.fixedKem ss)
    {st st' : State ℕ} {m : Message} {o : Option (EpochSecret ℕ)}
    (h : State.Receives P m st st' o) :
    ∀ y ∈ o.toList, y.secret = Auth.kdfOk P.hash ss y.epoch := by
  cases h with
  | ct2Accept _ _ _ _ hdecaps _ =>
      rw [hkem, Kem.decapsulate] at hdecaps
      split_ifs at hdecaps
      cases hdecaps
      simp
  | _ => simp

/-- With one KEM secret for all, every epoch has the secret made of it. -/
lemma secret_of_fixedKem {P : Prims ℕ} {ss : ℕ} (hkem : P.kem = Ideal.fixedKem ss) :
    (braidMachine P).Inductive (fun _ log => ∀ y ∈ log.filterMap Event.secret?,
      y.secret = Auth.kdfOk P.hash ss y.epoch) where
  send b log rng h := by
    cases hs : b.state.send P rng with
    | error e =>
        rw [braidMachine_send_of_error hs, List.filterMap_append, filterMap_secret_tag,
          List.append_nil]
        exact h
    | ok out =>
        rw [braidMachine_send_of_ok hs, (filterMap_call _ _ _ _ (fun _ => rfl) (fun _ => rfl)).1]
        exact List.forall_mem_append.mpr ⟨h, (State.Sends.of_send hs).secret_of_fixedKem hkem⟩
  recv b log m rng h := by
    cases hr : b.state.receive P m with
    | error e =>
        rw [braidMachine_recv_of_error rng hr, List.filterMap_append, filterMap_secret_tag,
          List.append_nil]
        exact h
    | ok out =>
        rw [braidMachine_recv_of_ok rng hr,
          (filterMap_call _ _ _ _ (fun _ => rfl) (fun _ => rfl)).1]
        exact List.forall_mem_append.mpr ⟨h, (State.Receives.of_receive hr).secret_of_fixedKem hkem⟩

section FirstEpoch

variable {C : Suite ℕ} {ss : ℕ}

/-- The secret of the first epoch, once it is completed. -/
lemma RatchetSession.Starts.first_secret {sharedSecret : ℕ} {side : Side} {start : RatchetSession ℕ}
    (hstart : RatchetSession.Starts C sharedSecret side start) (hkem : C.kem = Ideal.fixedKem ss)
    {calls : List (Call SessionInput RatchetMessage)}
    (hdone : 1 ≤ ((sessionMachine C).exec (start, []) calls).1.spqr.braid.state.completed) :
    (secretsIn (braidLog (spqrLog ((sessionMachine C).exec (start, []) calls).2)))[0]? =
      some (Auth.kdfOk C.hash ss 1) := by
  obtain ⟨hlocal, hsecret⟩ := (sessionMachine_inductive (SpqrLocal.inner_inductive
    (secret_of_fixedKem (P := C.toPrims) hkem))).exec calls (start, [])
      ⟨(hstart.spqrHolding []).1, List.forall_mem_nil _⟩
  have hepochs := hlocal.braid.epochs
  generalize (sessionMachine C).exec (start, []) calls = out at *
  obtain ⟨n, hn⟩ := Nat.exists_eq_add_of_le' hdone
  rw [hn, List.range'_succ] at hepochs
  obtain ⟨y, ys, hlist, hone, -⟩ := List.map_eq_cons_iff.mp hepochs
  have hy := hsecret y (hlist ▸ List.mem_cons_self)
  rw [secretsIn, hlist, List.map_cons, List.getElem?_cons_zero, hy, hone]

/-- Bob can be led through two epochs, and then sends a message of the next. -/
lemma exists_healed_message (hP : C.toPrims.Correct) (hW : C.postcard.Correct)
    (hkem : C.kem = Ideal.fixedKem ss) (sharedSecret : ℕ) (bobDhKeypair : Bytes × ℕ) :
    let bob := RatchetSession.initializeBob C sharedSecret bobDhKeypair
    ∃ calls m n pqMk, .sent m n pqMk ∈ spqrLog ((sessionMachine C).exec (bob, []) calls).2 ∧
      1 ≤ m.epoch - 1 ∧
      (secretsIn (braidLog (spqrLog ((sessionMachine C).exec (bob, []) calls).2)))[0]? =
        some (Auth.kdfOk C.hash ss 1) := by
  intro bob
  have hstart : RatchetSession.Starts C sharedSecret .bob bob := .bob _
  obtain ⟨as, has, hdone⟩ := exists_completed hP (braidAuthSeed C.hash sharedSecret) 2
  obtain ⟨cs, hcs⟩ := Net.exists_exec (A := braidMachine C.toPrims) as
    (braidNet C.toPrims (braidAuthSeed C.hash sharedSecret)) .bob
  obtain ⟨calls, hpending, hbraid⟩ := exists_driving_calls hW cs bob [] rfl
    (hstart.spqrHolding []).1
  have hnode : ((sessionMachine C).exec (bob, []) calls).1.spqr.braid =
      ((braidNet C.toPrims (braidAuthSeed C.hash sharedSecret)).run (braidMachine C.toPrims)
        as).node .bob := hbraid.trans (congrArg Prod.fst hcs)
  have hlocal := (hstart.spqrHolding calls).1
  have htwo : 2 ≤ ((sessionMachine C).exec (bob, []) calls).1.spqr.braid.state.completed := by
    obtain ⟨y, hy, hepoch⟩ := hdone .bob 2 (by decide) le_rfl
    have hmem := List.mem_map_of_mem (f := EpochSecret.epoch) hy
    have hepochs := (local_run C.toPrims (braidAuthSeed C.hash sharedSecret) as .bob).epochs
    rw [secretsOf, hepochs, ← hnode, hepoch, List.mem_range'_1] at hmem
    omega
  have hfirst := hstart.first_secret hkem (one_le_two.trans htwo)
  -- the braid can send, and so can the ratchet
  obtain ⟨b', m, o, hsend, -⟩ := (joint_run hP _ as has).send hP .bob zeroRng
  have hsend' : ((sessionMachine C).exec (bob, []) calls).1.spqr.braid.state.send C.toPrims
      zeroRng = .ok (b', m, o) := by
    rw [hnode]
    exact hsend
  obtain ⟨n, pqMk, st', hkey, -⟩ := hlocal.chains.ratchetSendKey hlocal.braid hsend'
  obtain ⟨om, own, hcall, -⟩ := sessionMachine_send (C := C) ⟨zeroRng, [], [], []⟩ hpending
  have hepoch := (State.Sends.of_send hsend').epoch_eq.2
  have hcompleted := ((sessionMachine C).exec (bob, []) calls).1.spqr.braid.state.completed_le_epoch
  refine ⟨calls ++ [.send ⟨zeroRng, [], [], []⟩], m, n, pqMk, ?_⟩
  rw [Machine.exec_append]
  generalize (sessionMachine C).exec (bob, []) calls = out at *
  obtain ⟨s, log⟩ := out
  rw [Machine.exec_cons, Machine.exec_nil, Machine.call_send, hcall]
  refine ⟨?_, by omega, ?_⟩
  · simp only [spqrMachine, hkey, spqrLog_append, spqrLog_map]
    simp
  · rw [spqrLog_append, braidLog_append, secretsIn, List.filterMap_append, List.map_append]
    exact (List.getElem?_append_left (List.getElem?_eq_some_iff.mp hfirst).1).trans hfirst

end FirstEpoch

/-- A thief takes Bob's session right after the handshake, with the shared secret in it.  The first
epoch heals it: Bob sends a message of a later one. -/
theorem pq_healing_first_epoch : ∃ calls m n pqMk,
    .sent m n pqMk ∈ spqrLog ((sessionMachine guardedSuite).exec (guardedBob, []) calls).2 ∧
      1 ≤ m.epoch - 1 ∧ ∀ ecMk, ¬ Derives (guardedSuite.hash.Computes Set.univ)
        (guardedBob.secrets ∪ ∅) (guardedSuite.hash.aeadKey ecMk pqMk) := by
  obtain ⟨calls, m, n, pqMk, hsent, hepoch, hx⟩ := exists_healed_message guardedSuite_correct
    Ideal.postcard_correct rfl 0 (idealSecret, guardedSuite.x25519.publicKey idealSecret)
  refine ⟨calls, m, n, pqMk, hsent, hepoch, ?_⟩
  have hstart : RatchetSession.Starts guardedSuite 0 .bob guardedBob := .bob _
  exact pq_healing Ideal.freeHash_free (fun _ => Set.mem_univ _)
    (Ideal.freeHash_not_computes Nat.two_pos Set.univ)
    (Ideal.freeHash_not_computes Nat.one_lt_two Set.univ) one_ne_zero hstart [] calls le_rfl hx
    (fun k hk => absurd hk (Set.notMem_empty k)) m n pqMk (.inl hsent) hepoch

/-- Whatever comes from a Diffie-Hellman output is the output of a KDF. -/
lemma Hash.OfDhOutput.computes {H : Hash Key} {d k : Key} (h : H.OfDhOutput d k) (hne : k ≠ d)
    (bytes : Set Bytes) : ∃ inputs, H.Computes bytes inputs k := by
  have hhkdf : ∀ (ikm : Key) (salt : Option Key) (info : Bytes) (len i : ℕ),
      ∃ inputs, H.Computes bytes inputs (H.hkdf (.inl ikm) salt info len i) :=
    fun _ _ _ _ _ => ⟨_, .hkdf _ _ _ _ _ (by simp)⟩
  rcases h with rfl | ⟨ec, ⟨rk, base, hbase, hk⟩, rfl | ⟨pqMk, rfl | rfl⟩⟩
  · exact absurd rfl hne
  · rcases Relation.ReflTransGen.cases_tail hk with rfl | ⟨p, -, hp⟩
    · rcases hbase with rfl | rfl <;> exact hhkdf _ _ _ _ _
    · exact hp.computes bytes
  · exact hhkdf _ _ _ _ _
  · exact hhkdf _ _ _ _ _

/-- The first message that reaches Bob heals his session from whoever knows the shared secret. -/
theorem ec_healing_first_message :
    (.ratcheted 7 (guardedSuite.hash.kdfRk 0 1).chainKey (guardedSuite.x25519.publicKey
        ((constRng 2).fill 32)) ∈ ((sessionMachine guardedSuite).recv guardedBob
          (headerOnly ⟨7, 0, 0, .idle 1, 1⟩) ⟨constRng 2, [], [], []⟩).2) ∧
    let healed := ((sessionMachine guardedSuite).recv guardedBob
      (headerOnly ⟨7, 0, 0, .idle 1, 1⟩) ⟨constRng 2, [], [], []⟩).1
    let log := ((sessionMachine guardedSuite).exec (healed, []) [.send idleInput]).2
    (∀ header ecMk pqMk plaintext message', .sealed header ecMk pqMk plaintext message' ∈ log →
      ¬ Derives (guardedSuite.hash.Computes Set.univ) {0} (guardedSuite.hash.aeadKey ecMk pqMk)) ∧
    ∀ dh n ecMk pqMk, .handedOut dh n ecMk ∈ log → dh ∉ healed.ratchetKeys →
      ¬ Derives (guardedSuite.hash.Computes Set.univ) {0}
        (guardedSuite.hash.aeadKey ecMk pqMk) := by
  obtain ⟨ecMk, s₁, hec, hremote, hpublic⟩ : ∃ ecMk s₁, guardedBob.ecMessageKey guardedSuite
      (constRng 2) ⟨7, 0, 0, .idle 1, 1⟩ = (.ok ecMk, s₁) ∧ s₁.dhRemote = some 7 ∧
        s₁.dhSelfPublic = guardedSuite.x25519.publicKey ((constRng 2).fill 32) :=
    ⟨_, _, RatchetSession.ecMessageKey_of_new (constRng 2) SkippedKeys.find_new
      (by simp [guardedBob, RatchetSession.initializeBob])
      (RatchetSession.skipReceivingMessages_of_none rfl) (Nat.zero_le _) rfl, rfl, rfl⟩
  have hstep : .ratcheted 7 (guardedSuite.hash.kdfRk 0 1).chainKey (guardedSuite.x25519.publicKey
      ((constRng 2).fill 32)) ∈ ((sessionMachine guardedSuite).recv guardedBob
        (headerOnly ⟨7, 0, 0, .idle 1, 1⟩) ⟨constRng 2, [], [], []⟩).2 := by
    obtain ⟨spqr, own, hcall, -⟩ := sessionMachine_recv_of_ok (C := guardedSuite)
      ⟨constRng 2, [], [], []⟩ (deserialize_headerOnly ⟨7, 0, 0, .idle 1, 1⟩) hec
    rw [hcall, hremote, hpublic]
    refine List.mem_append_left _ ?_
    rw [ratchetEvents, if_neg (by simp [guardedBob, RatchetSession.initializeBob])]
    exact List.mem_singleton_self _
  refine ⟨hstep, ec_healing Ideal.freeHash_free
    (Ideal.freeHash_not_computes Nat.one_lt_two Set.univ) hstep (.inl rfl) _ ?_⟩
  rintro k rfl hk
  obtain ⟨inputs, hcomp⟩ := hk.computes zero_ne_one Set.univ
  exact Ideal.freeHash_not_computes Nat.two_pos Set.univ inputs hcomp

end Instances

end Hushwire
