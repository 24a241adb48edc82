import Hushwire.Ratchet.SpqrChains

/-!
# One ratchet against the whole network

`spqrMachine` is `SpqrState` as a party of the network.  Its messages are the pairs of a braid
message and a PQ counter, and its observations are those of the braid inside it together with
the keys it hands out.  `SpqrLocal` puts the invariants of the braid and of the chains together:
what the chains are supposed to be is read off the observations.  It holds after any sequence of
calls, on messages of anyone's making.

Two results about such sequences follow.  No pair of a receiving epoch and a counter is accepted
twice (`accepted_nodup`), and the epochs retained after a send are exactly known, which settles
for which sending epochs they stay within a window of four (`retained_window_iff`).
-/

namespace Hushwire

open Duplex

variable {Key : Type}

/-- What a call on the ratchet shows to the outside. -/
inductive SpqrEvent (Key : Type)
  | braid (e : Event Key)
  | sent (m : Message) (pqN : ℕ) (key : Key)
  | received (m : Message) (pqN : ℕ) (key : Key)

namespace SpqrEvent

/-- The braid's part. -/
def braid? : SpqrEvent Key → Option (Event Key)
  | braid e => some e
  | _ => none

/-- The epoch, the number and the key of a message that was sent. -/
def sent? : SpqrEvent Key → Option ((ℕ × ℕ) × Key)
  | sent m pqN key => some ((m.epoch - 1, pqN), key)
  | _ => none

/-- The receiving epoch and the number of a message that was accepted. -/
def accepted? : SpqrEvent Key → Option (ℕ × ℕ)
  | received m pqN _ => some (m.epoch - 1, pqN)
  | _ => none

end SpqrEvent

/-- The observations of the braid inside. -/
def braidLog (log : List (SpqrEvent Key)) : List (Event Key) := log.filterMap SpqrEvent.braid?

/-- The epoch secrets a braid's log reports. -/
def secretsIn (blog : List (Event Key)) : List Key :=
  (blog.filterMap Event.secret?).map EpochSecret.secret

/-- The epochs, numbers and keys of the messages sent. -/
def sentKeys (log : List (SpqrEvent Key)) : List ((ℕ × ℕ) × Key) :=
  log.filterMap SpqrEvent.sent?

/-- The pairs accepted. -/
def acceptedPairs (log : List (SpqrEvent Key)) : List (ℕ × ℕ) :=
  log.filterMap SpqrEvent.accepted?

/-- A ratchet as a party of the network. -/
def spqrMachine (P : Prims Key) : Machine (SpqrState Key) Rng (Message × ℕ) (SpqrEvent Key) where
  send st rng :=
    let events := ((braidMachine P).send st.braid rng).2.2.map SpqrEvent.braid
    match st.ratchetSendKey P rng with
    | (.ok (m, pqN, key), st') => (st', some (m, pqN), events ++ [.sent m pqN key])
    | (.error _, st') => (st', none, events)
  recv st m rng :=
    let events := ((braidMachine P).recv st.braid m.1 rng).2.map SpqrEvent.braid
    match st.ratchetReceiveKey P m.1 m.2 with
    | (.ok key, st') => (st', events ++ [.received m.1 m.2 key])
    | (.error _, st') => (st', events)

/-- A network of two ratchets. -/
abbrev SpqrNet (Key : Type) := Net (SpqrState Key) (Message × ℕ) (SpqrEvent Key)

/-- Both parties right after `new_sender` and `new_receiver` with one secret. -/
def spqrNet (P : Prims Key) (sharedSecret : Key) : SpqrNet Key :=
  Net.init (fun s => SpqrState.init P sharedSecret (directionOf s))

/-! ## The methods on the invariant of the chains -/

section Methods

variable {P : Prims Key} {sk : Key} {s : Side} {st : SpqrState Key} {blog : List (Event Key)}
  {accepted : List (ℕ × ℕ)} {sent : List ((ℕ × ℕ) × Key)} {rng : Rng} {b' : State Key}
  {m : Message} {o : Option (EpochSecret Key)}

lemma State.completed_le_epoch (st : State Key) : st.completed ≤ st.epoch := by
  cases st <;> simp [State.completed, State.epoch]

/-- A message carries the epoch of the state it leaves behind, which a send does not change. -/
lemma State.Sends.epoch_eq {st st' : State Key} (h : State.Sends P rng st st' m o) :
    st'.epoch = st.epoch ∧ m.epoch = st.epoch := by
  cases h <;> exact ⟨rfl, rfl⟩

lemma Local.length_secretsIn {b : State Key} (h : Local P s b blog) :
    (secretsIn blog).length = b.completed := by
  have := congrArg List.length h.epochs
  simpa [secretsIn] using this

/-- What a send incorporates, and the epoch it drops for it. -/
lemma Chains.incorporateSend (hlocal : Local P s st.braid.state blog)
    (h : Chains P.hash sk s (secretsIn blog) (st.braid.state.epoch - 1) accepted sent st)
    (hsend : State.Sends P rng st.braid.state b' m o) :
    ∃ st₁ st₂, { st with braid := ⟨b'⟩ }.incorporate P.hash o = (.ok (), st₁) ∧
      (if o.isSome then st₁.clearOldEpochs (b'.epoch - 1) else st₁) = st₂ ∧ st₂.braid = ⟨b'⟩ ∧
      Chains P.hash sk s (secretsIn blog ++ o.toList.map EpochSecret.secret) (b'.epoch - 1)
        accepted sent st₂ := by
  obtain ⟨hepoch, -⟩ := hsend.epoch_eq
  rcases hsend.shape with ⟨rfl, -⟩ | ⟨x, auth, rfl, howns, -, -, hcompleted, -, -⟩
  · refine ⟨_, _, rfl, rfl, rfl, ?_⟩
    rw [hepoch]
    simpa using h.setBraid ⟨b'⟩
  · -- the secret is that of the epoch after the last one incorporated, and not ours to own
    have hnext : st.braid.state.epoch = st.epoch + 1 := by
      have := hlocal.epoch_pos
      rw [h.epochs.epoch_eq, hlocal.length_secretsIn, hcompleted]
      omega
    have howner : ownerOf (st.epoch + 1) ≠ s := by
      have hrole := hlocal.role
      rw [howns, hnext] at hrole
      rw [hrole]
      exact Side.ne_other _
    obtain ⟨st₁, hadd, hb₁, -, -, hext⟩ :=
      addEpoch_eq (H := P.hash) (s := s) { st with braid := ⟨b'⟩ } x
    refine ⟨st₁, _, ?_, rfl, ?_, ?_⟩
    · rw [hnext]
      exact hadd
    · unfold SpqrState.clearOldEpochs
      split_ifs <;> exact hb₁
    · have hlow : st.epoch = b'.epoch - 1 := by omega
      rw [Option.isSome_some, if_pos rfl, ← hlow]
      refine (hext howner).extend ?_ ?_
      · rw [hnext, Nat.add_sub_cancel] at h
        exact h.setBraid ⟨b'⟩
      · intro _
        exact Nat.lt_add_of_pos_right Nat.two_pos

/-- **A send of the braid is a send of the ratchet**: what comes after it cannot fail, and hands
out the next key of the sending epoch. -/
theorem Chains.ratchetSendKey (hlocal : Local P s st.braid.state blog)
    (h : Chains P.hash sk s (secretsIn blog) (st.braid.state.epoch - 1) accepted sent st)
    (hsend : st.braid.state.send P rng = .ok (b', m, o)) :
    ∃ n key st', st.ratchetSendKey P rng = (.ok (m, n, key), st') ∧ st'.braid = ⟨b'⟩ ∧
      Chains P.hash sk s (secretsIn blog ++ o.toList.map EpochSecret.secret) (b'.epoch - 1)
        accepted (sent ++ [((m.epoch - 1, n), key)]) st' := by
  have hshape := State.Sends.of_send hsend
  obtain ⟨st₁, st₂, hinc, hclear, hb₂, h₂⟩ := h.incorporateSend hlocal hshape
  obtain ⟨j, hchain, h'⟩ := h₂.dropSend.advanceSend
  have hmsg : m.epoch = b'.epoch := hshape.epoch_eq.2.trans hshape.epoch_eq.1.symm
  rw [hmsg]
  refine ⟨j + 1, _, _, ?_, ?_, h'⟩
  · have hbraid : st.braid.send P rng = (.ok ⟨m, b'.epoch - 1, o⟩, ⟨b'⟩) :=
      BraidState.send_of_ok hsend
    simp only [SpqrState.ratchetSendKey, hbraid, hinc, hclear, hchain, SckaChain.advance_at]
  · exact (SpqrState.sameCore_modifyChains _).braid.trans
      ((SpqrState.dropSend_spec _).1.braid.trans hb₂)

/-- What a receive incorporates. -/
lemma Chains.incorporateReceive (hlocal : Local P s st.braid.state blog)
    (h : Chains P.hash sk s (secretsIn blog) (st.braid.state.epoch - 1) accepted sent st)
    (hrecv : State.Receives P m st.braid.state b' o) :
    ∃ st₁, { st with braid := ⟨b'⟩ }.incorporate P.hash o = (.ok (), st₁) ∧ st₁.braid = ⟨b'⟩ ∧
      (o = none → st₁ = { st with braid := ⟨b'⟩ }) ∧
      (∀ e ≤ st.epoch, st₁.recvChain e = st.recvChain e) ∧
      Chains P.hash sk s (secretsIn blog ++ o.toList.map EpochSecret.secret) (b'.epoch - 1)
        accepted sent st₁ := by
  have hcompleted : st.epoch = st.braid.state.completed :=
    h.epochs.epoch_eq.trans hlocal.length_secretsIn
  rcases hrecv.shape with ⟨rfl, hsh⟩ | ⟨x, rfl, howns, -, hepoch', hcompleted₀, -⟩ |
    ⟨rfl, -, -, hepoch', hcompleted₀, -⟩
  · refine ⟨_, rfl, rfl, fun _ => rfl, fun _ _ => rfl, ?_⟩
    rw [hsh.epoch_eq]
    simpa using h.setBraid ⟨b'⟩
  · have hpos := hlocal.epoch_pos
    have hnext : st.braid.state.epoch = st.epoch + 1 := by omega
    have howner : ownerOf (st.epoch + 1) = s := by
      have hrole := hlocal.role
      rw [howns, hnext] at hrole
      exact hrole.symm
    obtain ⟨st₁, hadd, hb₁, hepoch₁, hext, -⟩ :=
      addEpoch_eq (H := P.hash) (s := s) { st with braid := ⟨b'⟩ } x
    refine ⟨st₁, ?_, hb₁, by simp, ?_, ?_⟩
    · rw [hnext]
      exact hadd
    · intro e he
      have hne : e ≠ st.epoch + 1 := by omega
      have hlookup := (hext howner).chains e
      rw [if_neg hne, if_neg (fun hdrop => hdrop.2 howner)] at hlookup
      rw [SpqrState.recvChain, hlookup]
      rfl
    · refine Chains.mono ((hext howner).extend (h.setBraid ⟨b'⟩) (absurd howner)) _ ?_ ?_
      · omega
      · simp only at hepoch₁
        omega
  · -- the next epoch begins
    refine ⟨_, rfl, rfl, fun _ => rfl, fun _ _ => rfl, ?_⟩
    have hmono := (h.setBraid ⟨b'⟩).mono (b'.epoch - 1) (by omega)
      (by simp only; omega)
    simpa using hmono

/-- **A receive of the braid, then a key for the message.** -/
theorem Chains.ratchetReceiveKey (hlocal : Local P s st.braid.state blog)
    (h : Chains P.hash sk s (secretsIn blog) (st.braid.state.epoch - 1) accepted sent st)
    (hrecv : st.braid.state.receive P m = .ok (b', o)) (n : ℕ) :
    ∃ st₁, st.ratchetReceiveKey P m n = st₁.deriveKey P.hash (m.epoch - 1) n ∧
      st₁.braid = ⟨b'⟩ ∧ (o = none → st₁ = { st with braid := ⟨b'⟩ }) ∧
      (∀ e ≤ st.epoch, st₁.recvChain e = st.recvChain e) ∧
      Chains P.hash sk s (secretsIn blog ++ o.toList.map EpochSecret.secret) (b'.epoch - 1)
        accepted sent st₁ := by
  obtain ⟨st₁, hinc, hb₁, hnone, hkeep, h₁⟩ := h.incorporateReceive hlocal (.of_receive hrecv)
  have hbraid : st.braid.receive P m = (.ok ⟨m.epoch - 1, o⟩, ⟨b'⟩) :=
    BraidState.receive_of_ok hrecv
  refine ⟨st₁, ?_, hb₁, hnone, hkeep, h₁⟩
  simp only [SpqrState.ratchetReceiveKey, hbraid, hinc]

end Methods

/-! ## The invariant of a ratchet -/

section Logs

variable (log log' : List (SpqrEvent Key)) (blog : List (Event Key))

@[simp] lemma braidLog_append : braidLog (log ++ log') = braidLog log ++ braidLog log' :=
  List.filterMap_append

@[simp] lemma sentKeys_append : sentKeys (log ++ log') = sentKeys log ++ sentKeys log' :=
  List.filterMap_append

@[simp] lemma acceptedPairs_append :
    acceptedPairs (log ++ log') = acceptedPairs log ++ acceptedPairs log' :=
  List.filterMap_append

@[simp] lemma braidLog_map : braidLog (blog.map SpqrEvent.braid) = blog := by
  rw [braidLog, List.filterMap_map]
  exact List.filterMap_some

@[simp] lemma sentKeys_map : sentKeys (blog.map SpqrEvent.braid) = [] := by
  simp [sentKeys, SpqrEvent.sent?]

@[simp] lemma acceptedPairs_map : acceptedPairs (blog.map SpqrEvent.braid) = [] := by
  simp [acceptedPairs, SpqrEvent.accepted?]

end Logs

lemma spqrMachine_send_fst (P : Prims Key) (st : SpqrState Key) (rng : Rng) :
    ((spqrMachine P).send st rng).1 = (st.ratchetSendKey P rng).2 := by
  simp only [spqrMachine]
  split <;> rename_i h <;> rw [h]

lemma spqrMachine_recv_fst (P : Prims Key) (st : SpqrState Key) (m : Message × ℕ) (rng : Rng) :
    ((spqrMachine P).recv st m rng).1 = (st.ratchetReceiveKey P m.1 m.2).2 := by
  simp only [spqrMachine]
  split <;> rename_i h <;> rw [h]

/-- A send accepts nothing. -/
lemma acceptedPairs_send (P : Prims Key) (st : SpqrState Key) (rng : Rng) :
    acceptedPairs ((spqrMachine P).send st rng).2.2 = [] := by
  simp only [spqrMachine]
  split <;> simp [acceptedPairs, SpqrEvent.accepted?]

/-- A receive accepts its pair exactly if it hands out a key. -/
lemma acceptedPairs_recv (P : Prims Key) (st : SpqrState Key) (m : Message × ℕ) (rng : Rng) :
    acceptedPairs ((spqrMachine P).recv st m rng).2 =
      match (st.ratchetReceiveKey P m.1 m.2).1 with
      | .ok _ => [(m.1.epoch - 1, m.2)]
      | .error _ => [] := by
  simp only [spqrMachine]
  rcases st.ratchetReceiveKey P m.1 m.2 with ⟨_ | key, st'⟩
  · exact acceptedPairs_map _
  · rw [acceptedPairs_append, acceptedPairs_map]
    rfl

/-- **One ratchet's invariant**, whatever calls were made on it. -/
structure SpqrLocal (P : Prims Key) (sharedSecret : Key) (s : Side) (st : SpqrState Key)
    (log : List (SpqrEvent Key)) : Prop where
  braid : Local P s st.braid.state (braidLog log)
  chains : Chains P.hash (braidAuthSeed P.hash sharedSecret) s (secretsIn (braidLog log))
    (st.braid.state.epoch - 1) (acceptedPairs log) (sentKeys log) st

section Inductive

variable {P : Prims Key} {sharedSecret : Key} {s : Side} {st : SpqrState Key}
  {log : List (SpqrEvent Key)}

lemma secretsIn_call (blog : List (Event Key)) (ts : List (MacQuery Key))
    (o : Option (EpochSecret Key)) (f : EpochSecret Key → Event Key)
    (hsecret : ∀ x, (f x).secret? = some x) (htag : ∀ x, (f x).tag? = none) :
    secretsIn (blog ++ (ts.map Event.tag ++ o.toList.map f)) =
      secretsIn blog ++ o.toList.map EpochSecret.secret := by
  rw [secretsIn, (filterMap_call blog ts o f hsecret htag).1, List.map_append]
  rfl

lemma secretsIn_tags (blog : List (Event Key)) (ts : List (MacQuery Key)) :
    secretsIn (blog ++ ts.map Event.tag) = secretsIn blog := by
  rw [secretsIn, List.filterMap_append, filterMap_secret_tag, List.append_nil]
  rfl

/-- A call adds the observations of the braid's call and at most one of its own. -/
lemma SpqrLocal.of_call {st' : SpqrState Key} {evs : List (Event Key)}
    {own : List (SpqrEvent Key)} (hown : braidLog own = [])
    (hlocal : Local P s st'.braid.state (braidLog log ++ evs)) {accepted : List (ℕ × ℕ)}
    (haccepted : acceptedPairs log ++ acceptedPairs own = accepted) {sent : List ((ℕ × ℕ) × Key)}
    (hsent : sentKeys log ++ sentKeys own = sent)
    (hchains : Chains P.hash (braidAuthSeed P.hash sharedSecret) s
      (secretsIn (braidLog log ++ evs)) (st'.braid.state.epoch - 1) accepted sent st') :
    SpqrLocal P sharedSecret s st' (log ++ (evs.map SpqrEvent.braid ++ own)) := by
  have hblog : braidLog (log ++ (evs.map SpqrEvent.braid ++ own)) = braidLog log ++ evs := by
    rw [braidLog_append, braidLog_append, braidLog_map, hown, List.append_nil]
  refine ⟨by rwa [hblog], ?_⟩
  rw [hblog, acceptedPairs_append, acceptedPairs_append, acceptedPairs_map, sentKeys_append,
    sentKeys_append, sentKeys_map, List.nil_append, List.nil_append, haccepted, hsent]
  exact hchains

/-- **A send is a send of the braid inside and keeps the invariant.**  The ratchet sends whenever
its braid does. -/
theorem SpqrLocal.send (h : SpqrLocal P sharedSecret s st log) (rng : Rng) :
    ∃ st' om own, (spqrMachine P).send st rng =
        (st', om, ((braidMachine P).send st.braid rng).2.2.map SpqrEvent.braid ++ own) ∧
      st'.braid = ((braidMachine P).send st.braid rng).1 ∧
      om.map Prod.fst = ((braidMachine P).send st.braid rng).2.1 ∧ braidLog own = [] ∧
      SpqrLocal P sharedSecret s st'
        (log ++ (((braidMachine P).send st.braid rng).2.2.map SpqrEvent.braid ++ own)) := by
  have hlocal := (local_inductive P s).send st.braid (braidLog log) rng h.braid
  cases hs : st.braid.state.send P rng with
  | error e =>
      have hbraid := braidMachine_send_of_error hs
      have hsend : st.braid.send P rng = (.error e, st.braid) := BraidState.send_of_error hs
      rw [hbraid] at hlocal ⊢
      refine ⟨st, none, [], ?_, rfl, rfl, rfl, ?_⟩
      · simp only [spqrMachine, SpqrState.ratchetSendKey, hsend, hbraid, List.append_nil]
      · refine .of_call rfl hlocal (List.append_nil _) (List.append_nil _) ?_
        rw [secretsIn_tags]
        exact h.chains
  | ok out =>
      obtain ⟨b', m, o⟩ := out
      have hbraid := braidMachine_send_of_ok hs
      obtain ⟨n, key, st', hsend, hb', h'⟩ := h.chains.ratchetSendKey h.braid hs
      rw [hbraid] at hlocal ⊢
      refine ⟨st', some (m, n), [.sent m n key], ?_, hb', rfl, rfl, ?_⟩
      · simp only [spqrMachine, hsend, hbraid]
      · refine .of_call rfl (by rwa [hb']) (List.append_nil _) rfl ?_
        rw [secretsIn_call _ _ _ _ (fun _ => rfl) (fun _ => rfl), hb']
        exact h'

/-- **A receive is a receive of the braid inside and keeps the invariant**, whoever made the
message. -/
theorem SpqrLocal.recv (h : SpqrLocal P sharedSecret s st log) (m : Message × ℕ) (rng : Rng) :
    ∃ st' own, (spqrMachine P).recv st m rng =
        (st', ((braidMachine P).recv st.braid m.1 rng).2.map SpqrEvent.braid ++ own) ∧
      st'.braid = ((braidMachine P).recv st.braid m.1 rng).1 ∧ braidLog own = [] ∧
      SpqrLocal P sharedSecret s st'
        (log ++ (((braidMachine P).recv st.braid m.1 rng).2.map SpqrEvent.braid ++ own)) := by
  have hlocal := (local_inductive P s).recv st.braid (braidLog log) m.1 rng h.braid
  cases hr : st.braid.state.receive P m.1 with
  | error e =>
      have hbraid := braidMachine_recv_of_error rng hr
      have hrecv : st.braid.receive P m.1 = (.error e, st.braid) := BraidState.receive_of_error hr
      rw [hbraid] at hlocal ⊢
      refine ⟨st, [], ?_, rfl, rfl, ?_⟩
      · simp only [spqrMachine, SpqrState.ratchetReceiveKey, hrecv, hbraid, List.append_nil]
      · refine .of_call rfl hlocal (List.append_nil _) (List.append_nil _) ?_
        rw [secretsIn_tags]
        exact h.chains
  | ok out =>
      obtain ⟨b', o⟩ := out
      have hbraid := braidMachine_recv_of_ok rng hr
      obtain ⟨st₁, hrecv, hb₁, -, -, h₁⟩ := h.chains.ratchetReceiveKey h.braid hr m.2
      rw [hbraid] at hlocal ⊢
      rcases h₁.derive (m.1.epoch - 1) m.2 with ⟨st', hok, -, hb', h'⟩ | ⟨⟨err, herr⟩, -, -⟩
      · generalize sckaKey _ _ _ = key at hok
        refine ⟨st', [.received m.1 m.2 key], ?_, hb'.trans hb₁, rfl, ?_⟩
        · simp only [spqrMachine, hrecv, hok, hbraid]
        · refine .of_call rfl (by rwa [hb', hb₁]) rfl (List.append_nil _) ?_
          rw [secretsIn_call _ _ _ _ (fun _ => rfl) (fun _ => rfl), hb', hb₁]
          exact h'
      · refine ⟨st₁, [], ?_, hb₁, rfl, ?_⟩
        · simp only [spqrMachine, hrecv, herr, hbraid, List.append_nil]
        · refine .of_call rfl (by rwa [hb₁]) (List.append_nil _) (List.append_nil _) ?_
          rw [secretsIn_call _ _ _ _ (fun _ => rfl) (fun _ => rfl), hb₁]
          exact h₁

lemma spqrLocal_inductive (P : Prims Key) (sharedSecret : Key) (s : Side) :
    (spqrMachine P).Inductive (SpqrLocal P sharedSecret s) where
  send st log rng h := by
    obtain ⟨st', om, own, hcall, -, -, -, h'⟩ := h.send rng
    rw [hcall]
    exact h'
  recv st log m rng h := by
    obtain ⟨st', own, hcall, -, -, h'⟩ := h.recv m rng
    rw [hcall]
    exact h'

lemma spqrLocal_init (P : Prims Key) (sharedSecret : Key) (s : Side) :
    SpqrLocal P sharedSecret s (SpqrState.init P sharedSecret (directionOf s)) [] := by
  have hlocal := local_braidNet P (braidAuthSeed P.hash sharedSecret) s
  have hchains := chains_init P sharedSecret s
  cases s with
  | alice => exact ⟨hlocal, hchains⟩
  | bob => exact ⟨hlocal, hchains⟩

/-- **The invariant holds of both parties in every run.** -/
theorem spqrLocal_run (P : Prims Key) (sharedSecret : Key) (as : List (Action Rng (Message × ℕ)))
    (s : Side) : SpqrLocal P sharedSecret s
      (((spqrNet P sharedSecret).run (spqrMachine P) as).node s)
      (((spqrNet P sharedSecret).run (spqrMachine P) as).log s) :=
  Net.inductive_run (P := SpqrLocal P sharedSecret) (spqrLocal_inductive P sharedSecret) as _
    (spqrLocal_init P sharedSecret) s

/-- The pairs a ratchet has accepted after any list of calls are pairwise distinct. -/
lemma accepted_nodup (P : Prims Key) (sharedSecret : Key) (s : Side)
    (cs : List (Call Rng (Message × ℕ))) :
    (acceptedPairs ((spqrMachine P).exec
      (SpqrState.init P sharedSecret (directionOf s), []) cs).2).Nodup :=
  ((spqrLocal_inductive P sharedSecret s).exec cs _
    (spqrLocal_init P sharedSecret s)).chains.receiving.nodup

end Inductive

/-! ## The braids inside -/

section Braids

variable {P : Prims Key} {sharedSecret : Key}

/-- The network of the two braids. -/
def braidNetOf (net : SpqrNet Key) : BraidNet Key :=
  net.map SpqrState.braid Prod.fst SpqrEvent.braid?

lemma spqr_contains_braid (P : Prims Key) (sharedSecret : Key) :
    Net.Contains (spqrMachine P) (braidMachine P) SpqrState.braid Prod.fst SpqrEvent.braid?
      (SpqrLocal P sharedSecret) where
  send s st log rng h := by
    obtain ⟨st', om, own, hcall, hb', hom, hown, -⟩ := h.send rng
    have hlog : braidLog (((braidMachine P).send st.braid rng).2.2.map SpqrEvent.braid ++ own) =
        ((braidMachine P).send st.braid rng).2.2 := by
      rw [braidLog_append, braidLog_map, hown, List.append_nil]
    rw [hcall]
    exact Prod.ext hb'.symm (Prod.ext hom.symm hlog.symm)
  recv s st log m rng h := by
    obtain ⟨st', own, hcall, hb', hown, -⟩ := h.recv m rng
    have hlog : braidLog (((braidMachine P).recv st.braid m.1 rng).2.map SpqrEvent.braid ++ own) =
        ((braidMachine P).recv st.braid m.1 rng).2 := by
      rw [braidLog_append, braidLog_map, hown, List.append_nil]
    rw [hcall]
    exact Prod.ext hb'.symm hlog.symm

lemma braidNetOf_spqrNet (P : Prims Key) (sharedSecret : Key) :
    braidNetOf (spqrNet P sharedSecret) = braidNet P (braidAuthSeed P.hash sharedSecret) := by
  unfold braidNetOf Net.map spqrNet braidNet Net.init
  congr 1
  funext s
  cases s <;> rfl

/-- **A run of two ratchets is a run of the two braids inside them.** -/
theorem braidNetOf_run (P : Prims Key) (sharedSecret : Key)
    (as : List (Action Rng (Message × ℕ))) :
    braidNetOf ((spqrNet P sharedSecret).run (spqrMachine P) as) =
      (braidNet P (braidAuthSeed P.hash sharedSecret)).run (braidMachine P)
        (as.map (Action.map Prod.fst)) := by
  rw [← braidNetOf_spqrNet]
  exact Net.map_run (spqr_contains_braid P sharedSecret) (spqrLocal_inductive P sharedSecret) as _
    (spqrLocal_init P sharedSecret)

/-- The ratchets of an honest run have braids in step. -/
lemma joint_braidNetOf (hP : P.Correct) (sharedSecret : Key) {as : List (Action Rng (Message × ℕ))}
    (has : ∀ a ∈ as, a.Honest) :
    Joint P (Decoder.Genuine P.rs)
      (braidsOf (braidNetOf ((spqrNet P sharedSecret).run (spqrMachine P) as))) := by
  rw [braidNetOf_run]
  exact joint_run hP _ _ (forall_honest_map _ has)

end Braids

/-! ## The epochs that are retained -/

section Retained

variable {P : Prims Key} {sharedSecret : Key} {s : Side} {st : SpqrState Key}
  {log : List (SpqrEvent Key)}

/-- Alice owns the odd epochs, so what she encapsulates never takes an even epoch with it. -/
lemma Epochs.even_retained {H : Hash Key} {sk : Key} {secrets : List Key}
    (h : Epochs H sk .alice secrets st) {i : ℕ} (hi : 2 * i ≤ st.epoch) : 2 * i ∈ st.kdfchains := by
  refine (h.retained _).mpr ⟨hi, ?_⟩
  rintro ⟨-, howner⟩
  have hodd : (2 * i + 3) % 2 = 1 := by omega
  exact howner (if_pos hodd)

/-- More than half of Alice's epochs are still there. -/
lemma Epochs.lt_len {H : Hash Key} {sk : Key} {secrets : List Key}
    (h : Epochs H sk .alice secrets st) : st.epoch / 2 < Map.len st.kdfchains := by
  have hsub : (Finset.range (st.epoch / 2 + 1)).image (fun i => 2 * i) ⊆ st.kdfchains.keys := by
    intro e he
    obtain ⟨i, hi, rfl⟩ := Finset.mem_image.mp he
    have := Finset.mem_range.mp hi
    exact Finmap.mem_keys.mpr (h.even_retained (by omega))
  have hcard := Finset.card_le_card hsub
  have hinj : Function.Injective (fun i : ℕ => 2 * i) := fun i j hij => by
    simp only at hij
    omega
  rw [Finset.card_image_of_injective _ hinj, Finset.card_range] at hcard
  exact hcard

/-- The window in any state that calls can lead to. -/
lemma SpqrLocal.window_iff (h : SpqrLocal P sharedSecret s st log) :
    ((∀ e ∈ st.kdfchains, st.braid.state.epoch - 1 ≤ e + 3) ∧
        ∀ e ∈ st.mkskipped, st.braid.state.epoch - 1 ≤ e + 3) ↔
      st.braid.state.epoch - 1 ≤ 3 ∨ s = .bob ∧ st.braid.state.epoch - 1 = 4 := by
  have hle := h.chains.sending.low_le
  have hretained := h.chains.epochs.retained
  constructor
  · -- the first epoch that is never removed is 0 for Alice and 1 for Bob
    rintro ⟨hchains, -⟩
    cases s with
    | alice =>
        have hzero : 0 ∈ st.kdfchains := h.chains.epochs.even_retained (i := 0) (Nat.zero_le _)
        exact .inl (hchains 0 hzero)
    | bob =>
        by_cases hfour : st.braid.state.epoch - 1 ≤ 4
        · rcases hfour.lt_or_eq with hlt | heq
          · exact .inl (Nat.le_of_lt_succ hlt)
          · exact .inr ⟨rfl, heq⟩
        · have hone : 1 ∈ st.kdfchains := (hretained 1).mpr ⟨by omega, fun hdrop => hdrop.2 rfl⟩
          exact absurd (hchains 1 hone) hfour
  · intro hsmall
    have hchains : ∀ e ∈ st.kdfchains, st.braid.state.epoch - 1 ≤ e + 3 := by
      intro e he
      rcases hsmall with hthree | ⟨rfl, hfour⟩
      · omega
      · -- Bob has removed epoch 0 when he encapsulated epoch 3
        have hne : e ≠ 0 := by
          rintro rfl
          exact ((hretained 0).mp he).2 ⟨by omega, Side.noConfusion⟩
        omega
    exact ⟨hchains, fun e he => hchains e (h.chains.receiving.skipped_mem e he)⟩

/-- The state a successful send leaves. -/
lemma SpqrLocal.of_ratchetSendKey (h : SpqrLocal P sharedSecret s st log) {rng : Rng} {m : Message}
    {n : ℕ} {key : Key} {st' : SpqrState Key}
    (hsend : st.ratchetSendKey P rng = (.ok (m, n, key), st')) :
    ∃ log', SpqrLocal P sharedSecret s st' log' := by
  obtain ⟨st'', om, own, hcall, -, -, -, h'⟩ := h.send rng
  have hstate : ((spqrMachine P).send st rng).1 = st' := by rw [spqrMachine_send_fst, hsend]
  rw [hcall] at hstate
  obtain rfl := hstate
  exact ⟨_, h'⟩

/-- **Which epochs are left after a send.**  Take any run, with any messages injected, and a send
of side `s` that succeeds in it.  All epochs that are left in `kdfchains` and in `mkskipped` lie
within three of the sending epoch exactly as long as the sending epoch is at most 3, or 4 for
Bob: the epochs three behind those that `s` owns are never removed. -/
theorem retained_window_iff (P : Prims Key) (sharedSecret : Key)
    (as : List (Action Rng (Message × ℕ))) (s : Side) (rng : Rng) {m : Message} {n : ℕ} {key : Key}
    {st' : SpqrState Key}
    (hsend : (((spqrNet P sharedSecret).run (spqrMachine P) as).node s).ratchetSendKey P rng =
      (.ok (m, n, key), st')) :
    ((∀ e ∈ st'.kdfchains, st'.braid.state.epoch - 1 ≤ e + 3) ∧
        ∀ e ∈ st'.mkskipped, st'.braid.state.epoch - 1 ≤ e + 3) ↔
      st'.braid.state.epoch - 1 ≤ 3 ∨ s = .bob ∧ st'.braid.state.epoch - 1 = 4 := by
  obtain ⟨log', h'⟩ := (spqrLocal_run P sharedSecret as s).of_ratchetSendKey hsend
  exact h'.window_iff

/-- In step, a ratchet can always send. -/
lemma exists_ratchetSendKey (hP : P.Correct) (sharedSecret : Key)
    (as : List (Action Rng (Message × ℕ))) (has : ∀ a ∈ as, a.Honest) (s : Side) (rng : Rng) :
    ∃ m n key st', (((spqrNet P sharedSecret).run (spqrMachine P) as).node s).ratchetSendKey P rng =
        (.ok (m, n, key), st') ∧
      (((spqrNet P sharedSecret).run (spqrMachine P) as).node s).braid.state.epoch =
        st'.braid.state.epoch := by
  have h := spqrLocal_run P sharedSecret as s
  obtain ⟨b', m, o, hsend, -⟩ := (joint_braidNetOf hP sharedSecret has).send hP s rng
  obtain ⟨n, key, st', hkey, hb', -⟩ := h.chains.ratchetSendKey h.braid hsend
  refine ⟨m, n, key, st', hkey, ?_⟩
  rw [hb']
  exact (State.Sends.of_send hsend).epoch_eq.1.symm

/-- Some honest runs of the two ratchets complete as many epochs as one likes. -/
lemma exists_run_completed (hP : P.Correct) (sharedSecret : Key) (epoch : ℕ) :
    ∃ as : List (Action Rng (Message × ℕ)), (∀ a ∈ as, a.Honest) ∧ ∀ s, epoch ≤
      (((spqrNet P sharedSecret).run (spqrMachine P) as).node s).braid.state.completed := by
  obtain ⟨bs, hbs, hemitted⟩ := exists_completed hP (braidAuthSeed P.hash sharedSecret) epoch
  -- the run of the braids, played with the ratchets
  obtain ⟨as, has, rfl⟩ := exists_map_eq (Prod.fst : Message × ℕ → Message) bs hbs
  rw [← braidNetOf_run] at hemitted
  refine ⟨as, has, ?_⟩
  intro s
  rcases Nat.eq_zero_or_pos epoch with rfl | hpos
  · exact Nat.zero_le _
  obtain ⟨y, hy, hepoch⟩ := hemitted s epoch hpos le_rfl
  have hmem : y.epoch ∈ List.range' 1 (((spqrNet P sharedSecret).run (spqrMachine P) as).node
      s).braid.state.completed := by
    rw [← (spqrLocal_run P sharedSecret as s).braid.epochs]
    exact List.mem_map_of_mem hy
  have hlt := (List.mem_range'_1.mp hmem).2
  omega

/-- The window, after a run that has completed two epochs. -/
theorem retained_window_iff_two_epochs : ∃ as : List (Action Rng (Message × ℕ)),
    ∃ m n key st', (((spqrNet idealPrims 0).run (spqrMachine idealPrims) as).node
        .bob).ratchetSendKey idealPrims zeroRng = (.ok (m, n, key), st') ∧
      2 ≤ st'.braid.state.epoch ∧
      (((∀ e ∈ st'.kdfchains, st'.braid.state.epoch - 1 ≤ e + 3) ∧
          ∀ e ∈ st'.mkskipped, st'.braid.state.epoch - 1 ≤ e + 3) ↔
        st'.braid.state.epoch - 1 ≤ 3 ∨
          Side.bob = .bob ∧ st'.braid.state.epoch - 1 = 4) := by
  obtain ⟨as, has, hdone⟩ := exists_run_completed idealPrims_correct 0 2
  obtain ⟨m, n, key, st', hsend, hsame⟩ :=
    exists_ratchetSendKey idealPrims_correct 0 as has .bob zeroRng
  refine ⟨as, m, n, key, st', hsend, ?_, retained_window_iff idealPrims 0 as .bob zeroRng hsend⟩
  rw [← hsame]
  exact (hdone .bob).trans (State.completed_le_epoch _)

/-- **Alice's ratchet grows without bound** and never forgets epoch 0, however far the sending
epoch has moved on, in runs on a network that behaves. -/
theorem retained_epochs_unbounded :
    ∀ N : ℕ, ∃ as : List (Action Rng (Message × ℕ)), (∀ a ∈ as, a.Honest) ∧
      ∃ m n key st', (((spqrNet idealPrims 0).run (spqrMachine idealPrims) as).node
          .alice).ratchetSendKey idealPrims zeroRng = (.ok (m, n, key), st') ∧
        0 ∈ st'.kdfchains ∧ N + 3 < st'.braid.state.epoch - 1 ∧ N < Map.len st'.kdfchains := by
  intro N
  obtain ⟨as, has, hdone⟩ := exists_run_completed idealPrims_correct 0 (2 * N + 5)
  obtain ⟨m, n, key, st', hsend, hsame⟩ :=
    exists_ratchetSendKey idealPrims_correct 0 as has .alice zeroRng
  obtain ⟨log', h'⟩ := (spqrLocal_run idealPrims 0 as .alice).of_ratchetSendKey hsend
  have hepoch := (hdone .alice).trans (State.completed_le_epoch _)
  have hle := h'.chains.sending.low_le
  have hlen := h'.chains.epochs.lt_len
  refine ⟨as, has, m, n, key, st', hsend, ?_, by omega, by omega⟩
  exact h'.chains.epochs.even_retained (i := 0) (Nat.zero_le _)

/-- The window of four epochs is left behind. -/
theorem epoch_zero_outlives_window : ∃ as : List (Action Rng (Message × ℕ)), (∀ a ∈ as, a.Honest) ∧
    ∃ m n key st', (((spqrNet idealPrims 0).run (spqrMachine idealPrims) as).node
        .alice).ratchetSendKey idealPrims zeroRng = (.ok (m, n, key), st') ∧
      0 ∈ st'.kdfchains ∧ 7 < st'.braid.state.epoch - 1 ∧ 4 < Map.len st'.kdfchains :=
  retained_epochs_unbounded 4

end Retained

end Hushwire
