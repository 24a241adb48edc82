import Hushwire.Braid.Liveness

/-!
# One braid against the whole network

What holds of a single braid after any sequence of calls, on messages of anyone's making.
The epochs alternate: `ownerOf e` owns the keypair of epoch `e`, starting with Alice at
epoch 1.  `Local` says that a party emits the secrets of epochs `1, 2, 3, …` without a gap,
on the receive path for the epochs it owns and on the send path for the others, and that
every ciphertext tag it computes is keyed by a secret it emitted on the send path.

`no_divergence` combines the two ends: if MACs cannot be forged, the owner of an epoch only
ever emits a secret the encapsulator has emitted before, injected messages or not.
-/

namespace Hushwire

open Duplex

variable {Key : Type}

/-- The side that owns the keypair of an epoch. -/
def ownerOf (epoch : ℕ) : Side := if epoch % 2 = 1 then .alice else .bob

lemma ownerOf_succ (epoch : ℕ) : ownerOf (epoch + 1) = (ownerOf epoch).other := by
  unfold ownerOf
  by_cases h : epoch % 2 = 1
  · have h' : ¬ (epoch + 1) % 2 = 1 := by omega
    rw [if_pos h, if_neg h']
    rfl
  · have h' : (epoch + 1) % 2 = 1 := by omega
    rw [if_neg h, if_pos h']
    rfl

namespace State

/-- Whether the state is one of the keypair owner's. -/
def owns : State Key → Bool
  | keysUnsampled _ _ => true
  | keysSampled _ _ _ _ _ => true
  | headerSent _ _ _ _ _ => true
  | ct1Received _ _ _ _ _ => true
  | ekSentCt1Received _ _ _ _ _ => true
  | _ => false

/-- The last epoch whose secret a party in this state has emitted. -/
def completed : State Key → ℕ
  | ct1Sampled epoch _ _ _ _ _ _ => epoch
  | ekReceivedCt1Sampled epoch _ _ _ _ _ => epoch
  | ct1Acknowledged epoch _ _ _ _ _ => epoch
  | ct2Sampled epoch _ _ => epoch
  | st => st.epoch - 1

/-- The authenticator the state holds. -/
def auth? : State Key → Option (Authenticator Key)
  | keysUnsampled _ auth => some auth
  | keysSampled _ auth _ _ _ => some auth
  | headerSent _ auth _ _ _ => some auth
  | ct1Received _ auth _ _ _ => some auth
  | ekSentCt1Received _ auth _ _ _ => some auth
  | noHeaderReceived _ auth _ => some auth
  | headerReceived _ auth _ _ => some auth
  | ct1Sampled _ auth _ _ _ _ _ => some auth
  | ekReceivedCt1Sampled _ auth _ _ _ _ => some auth
  | ct1Acknowledged _ auth _ _ _ _ => some auth
  | ct2Sampled _ auth _ => some auth
  | poisoned => none

/-- The two states differ at most in what they stream and collect. -/
structure SameShape (st st' : State Key) : Prop where
  owns_eq : st'.owns = st.owns
  epoch_eq : st'.epoch = st.epoch
  completed_eq : st'.completed = st.completed
  auth_eq : st'.auth? = st.auth?

variable {P : Prims Key}

/-- A send either keeps the shape or completes the epoch as its encapsulator. -/
lemma Sends.shape {rng : Rng} {st st' : State Key} {m : Message}
    {o : Option (EpochSecret Key)} (h : Sends P rng st st' m o) :
    (o = none ∧ SameShape st st') ∨
    ∃ ss, ∃ auth : Authenticator Key, o = some ⟨st.epoch, ss⟩ ∧ st.owns = false ∧ st'.owns = false ∧
      st'.epoch = st.epoch ∧ st.completed = st.epoch - 1 ∧ st'.completed = st.epoch ∧
      st'.auth? = some (auth.update P.hash st.epoch ss) := by
  cases h with
  | encapsulate hkem henc => exact .inr ⟨_, _, rfl, rfl, rfl, rfl, rfl, rfl, rfl⟩
  | _ => exact .inl ⟨rfl, ⟨rfl, rfl, rfl, rfl⟩⟩

/-- A receive keeps the shape, completes the epoch as its owner, or starts the next one. -/
lemma Receives.shape {msg : Message} {st st' : State Key} {o : Option (EpochSecret Key)}
    (h : Receives P msg st st' o) :
    (o = none ∧ SameShape st st') ∨
    (∃ ss, o = some ⟨st.epoch, ss⟩ ∧ st.owns = true ∧ st'.owns = false ∧
      st'.epoch = st.epoch + 1 ∧ st.completed = st.epoch - 1 ∧ st'.completed = st.epoch) ∨
    (o = none ∧ st.owns = false ∧ st'.owns = true ∧ st'.epoch = st.epoch + 1 ∧
      st.completed = st.epoch ∧ st'.completed = st.epoch) := by
  cases h with
  | ct2Accept => exact .inr (.inl ⟨_, rfl, rfl, rfl, rfl, rfl, rfl⟩)
  | nextEpoch => exact .inr (.inr ⟨rfl, rfl, rfl, rfl, rfl, rfl⟩)
  | _ => exact .inl ⟨rfl, ⟨rfl, rfl, rfl, rfl⟩⟩

/-- Ciphertext tags are keyed by the state's own authenticator, after it has encapsulated. -/
lemma tagsOnReceive_spec {msg : Message} {st : State Key} {q : MacQuery Key}
    (h : q ∈ st.tagsOnReceive P msg) :
    q.epoch = st.epoch ∧ st.completed = st.epoch ∧ st.auth?.map Authenticator.macKey =
      some q.key := by
  have hct2 : ∀ {auth : Authenticator Key} {epoch : ℕ} {es ek ct1 : Bytes},
      q ∈ ct2Tags P auth epoch es ek ct1 → q.epoch = epoch ∧ auth.macKey = q.key := by
    intro auth epoch es ek ct1 hq
    unfold ct2Tags at hq
    split at hq
    · rw [List.mem_singleton.mp hq]
      exact ⟨rfl, rfl⟩
    · cases hq
  cases st with
  | ct1Sampled | ct1Acknowledged =>
      simp only [tagsOnReceive] at h
      split at h
      · split at h
        · exact ⟨(hct2 h).1, rfl, congrArg some (hct2 h).2⟩
        · cases h
      · cases h
  | ekReceivedCt1Sampled =>
      simp only [tagsOnReceive] at h
      split at h
      · exact ⟨(hct2 h).1, rfl, congrArg some (hct2 h).2⟩
      · cases h
  | _ => cases h

/-- The tags computed on the send path are header tags. -/
lemma label_of_mem_tagsOnSend {rng : Rng} {st : State Key} {q : MacQuery Key}
    (h : q ∈ st.tagsOnSend P rng) : q.label = Authenticator.hdrLabel := by
  cases st with
  | keysUnsampled =>
      simp only [tagsOnSend] at h
      split at h
      · rw [List.mem_singleton.mp h]
        rfl
      · cases h
  | _ => cases h

end State

/-- **One braid's invariant**, whatever calls were made on it: side `s` is in state `st` and
has shown the events `log`. -/
structure Local (P : Prims Key) (s : Side) (st : State Key) (log : List (Event Key)) : Prop where
  epoch_pos : 1 ≤ st.epoch
  role : s = if st.owns then ownerOf st.epoch else (ownerOf st.epoch).other
  epochs : (log.filterMap Event.secret?).map EpochSecret.epoch = List.range' 1 st.completed
  onSend_role : ∀ x, .onSend x ∈ log → s = (ownerOf x.epoch).other
  onReceive_role : ∀ x, .onReceive x ∈ log → s = ownerOf x.epoch
  encapsulated : st.completed = st.epoch → ∃ ss, ∃ auth : Authenticator Key,
    .onSend ⟨st.epoch, ss⟩ ∈ log ∧ st.auth? = some (auth.update P.hash st.epoch ss)
  tag_keyed : ∀ q, .tag q ∈ log → q.label = Authenticator.ctLabel →
    ∃ ss, ∃ auth : Authenticator Key, .onSend ⟨q.epoch, ss⟩ ∈ log ∧
      q.key = (auth.update P.hash q.epoch ss).macKey

namespace Local

variable {P : Prims Key} {s : Side} {st st' : State Key} {log : List (Event Key)}

/-- Events that report no ciphertext tag the log does not account for. -/
lemma tag_keyed_append (h : Local P s st log) {new : List (Event Key)}
    (hnew : ∀ q, .tag q ∈ new → q.label = Authenticator.ctLabel →
      ∃ ss, ∃ auth : Authenticator Key, .onSend ⟨q.epoch, ss⟩ ∈ log ∧
        q.key = (auth.update P.hash q.epoch ss).macKey) :
    ∀ q, .tag q ∈ log ++ new → q.label = Authenticator.ctLabel →
      ∃ ss, ∃ auth : Authenticator Key, .onSend ⟨q.epoch, ss⟩ ∈ log ++ new ∧
        q.key = (auth.update P.hash q.epoch ss).macKey := by
  intro q hq hlabel
  have hold : ∃ ss, ∃ auth : Authenticator Key, .onSend ⟨q.epoch, ss⟩ ∈ log ∧
      q.key = (auth.update P.hash q.epoch ss).macKey := by
    rcases List.mem_append.mp hq with hq | hq
    · exact h.tag_keyed q hq hlabel
    · exact hnew q hq hlabel
  obtain ⟨ss, auth, hmem, hkey⟩ := hold
  exact ⟨ss, auth, List.mem_append_left _ hmem, hkey⟩

/-- A call that emits nothing and keeps the shape. -/
lemma quiet (h : Local P s st log) (hsh : State.SameShape st st') {ts : List (MacQuery Key)}
    (hts : ∀ q ∈ ts, q.label = Authenticator.ctLabel →
      ∃ ss, ∃ auth : Authenticator Key, .onSend ⟨q.epoch, ss⟩ ∈ log ∧
        q.key = (auth.update P.hash q.epoch ss).macKey) :
    Local P s st' (log ++ ts.map Event.tag) where
  epoch_pos := hsh.epoch_eq ▸ h.epoch_pos
  role := by rw [hsh.owns_eq, hsh.epoch_eq]; exact h.role
  epochs := by
    rw [List.filterMap_append, filterMap_secret_tag, List.append_nil, hsh.completed_eq]
    exact h.epochs
  onSend_role x hx := h.onSend_role x (by simpa using hx)
  onReceive_role x hx := h.onReceive_role x (by simpa using hx)
  encapsulated := by
    rw [hsh.completed_eq, hsh.epoch_eq, hsh.auth_eq]
    intro hc
    obtain ⟨ss, auth, hmem, hauth⟩ := h.encapsulated hc
    exact ⟨ss, auth, List.mem_append_left _ hmem, hauth⟩
  tag_keyed := h.tag_keyed_append (by simpa using hts)

/-- A party that completes its epoch has completed all up to it. -/
lemma epochs_succ (h : Local P s st log) (hcompleted : st.completed = st.epoch - 1) :
    (log.filterMap Event.secret?).map EpochSecret.epoch ++ [st.epoch] = List.range' 1 st.epoch := by
  obtain ⟨n, hn⟩ : ∃ n, st.epoch = n + 1 := ⟨st.epoch - 1, by have := h.epoch_pos; omega⟩
  rw [h.epochs, hcompleted, hn, Nat.add_sub_cancel, List.range'_1_concat, Nat.add_comm 1]

/-- The tags a send computes are header tags, so they need no account. -/
lemma tagsOnSend_accounted (rng : Rng) : ∀ q ∈ st.tagsOnSend P rng,
    q.label = Authenticator.ctLabel → ∃ ss, ∃ auth : Authenticator Key,
      .onSend ⟨q.epoch, ss⟩ ∈ log ∧ q.key = (auth.update P.hash q.epoch ss).macKey := by
  intro q hq hlabel
  rw [State.label_of_mem_tagsOnSend hq] at hlabel
  exact absurd hlabel MacQuery.hdrLabel_ne_ctLabel

/-- The tags a receive computes are keyed by the authenticator the encapsulation left. -/
lemma tagsOnReceive_accounted (h : Local P s st log) (msg : Message) :
    ∀ q ∈ st.tagsOnReceive P msg, q.label = Authenticator.ctLabel →
      ∃ ss, ∃ auth : Authenticator Key, .onSend ⟨q.epoch, ss⟩ ∈ log ∧
        q.key = (auth.update P.hash q.epoch ss).macKey := by
  intro q hq _
  obtain ⟨hepoch, hcompleted, hkey⟩ := State.tagsOnReceive_spec hq
  obtain ⟨ss, auth, hmem, hauth⟩ := h.encapsulated hcompleted
  rw [hauth] at hkey
  exact ⟨ss, auth, hepoch ▸ hmem, hepoch ▸ (Option.some.inj hkey).symm⟩

/-- **A send keeps the invariant.** -/
theorem send (h : Local P s st log) {rng : Rng} {m : Message} {o : Option (EpochSecret Key)}
    (hs : State.Sends P rng st st' m o) :
    Local P s st' (log ++ ((st.tagsOnSend P rng).map Event.tag ++ o.toList.map Event.onSend)) := by
  rcases hs.shape with ⟨rfl, hsh⟩ |
    ⟨ss, auth, rfl, howns, howns', hepoch, hcompleted, hcompleted', hauth⟩
  · simpa using h.quiet hsh (tagsOnSend_accounted rng)
  · -- the encapsulator completes its epoch
    have hrole := h.role
    rw [howns] at hrole
    refine ⟨hepoch ▸ h.epoch_pos, ?_, ?_, ?_, ?_, ?_, ?_⟩
    · rw [howns', hepoch]
      exact hrole
    · rw [(filterMap_call _ _ _ _ (fun _ => rfl) (fun _ => rfl)).1, List.map_append, hcompleted']
      exact h.epochs_succ hcompleted
    · intro x hx
      simp only [List.mem_append, List.mem_map, reduceCtorEq, and_false, exists_false, false_or,
        Option.toList_some, List.map_cons, List.map_nil, List.mem_singleton, Event.onSend.injEq]
        at hx
      rcases hx with hx | rfl
      · exact h.onSend_role x hx
      · exact hrole
    · intro x hx
      exact h.onReceive_role x (by simpa using hx)
    · intro _
      rw [hepoch]
      exact ⟨ss, auth, by simp, hauth⟩
    · refine h.tag_keyed_append ?_
      intro q hq
      exact tagsOnSend_accounted rng q (by simpa using hq)

/-- **A receive keeps the invariant**, whoever made the message. -/
theorem recv (h : Local P s st log) {msg : Message} {o : Option (EpochSecret Key)}
    (hr : State.Receives P msg st st' o) :
    Local P s st'
      (log ++ ((st.tagsOnReceive P msg).map Event.tag ++ o.toList.map Event.onReceive)) := by
  rcases hr.shape with ⟨rfl, hsh⟩ | ⟨ss, rfl, howns, howns', hepoch, hcompleted, hcompleted'⟩ |
    ⟨rfl, howns, howns', hepoch, hcompleted, hcompleted'⟩
  · simpa using h.quiet hsh (h.tagsOnReceive_accounted msg)
  · -- the owner completes its epoch and waits for the next header
    have hrole := h.role
    rw [howns] at hrole
    refine ⟨by omega, ?_, ?_, ?_, ?_, by omega, ?_⟩
    · rw [howns', hepoch, ownerOf_succ, Side.other_other]
      exact hrole
    · rw [(filterMap_call _ _ _ _ (fun _ => rfl) (fun _ => rfl)).1, List.map_append, hcompleted']
      exact h.epochs_succ hcompleted
    · intro x hx
      exact h.onSend_role x (by simpa using hx)
    · intro x hx
      simp only [List.mem_append, List.mem_map, reduceCtorEq, and_false, exists_false, false_or,
        Option.toList_some, List.map_cons, List.map_nil, List.mem_singleton,
        Event.onReceive.injEq] at hx
      rcases hx with hx | rfl
      · exact h.onReceive_role x hx
      · exact hrole
    · refine h.tag_keyed_append ?_
      intro q hq
      exact h.tagsOnReceive_accounted msg q (by simpa using hq)
  · -- the encapsulator moves on to the next epoch, which it owns
    have hrole := h.role
    rw [howns] at hrole
    refine ⟨by omega, ?_, ?_, ?_, ?_, by omega, ?_⟩
    · rw [howns', hepoch, ownerOf_succ]
      exact hrole
    · rw [(filterMap_call _ _ _ _ (fun _ => rfl) (fun _ => rfl)).1, hcompleted', ← hcompleted]
      simpa using h.epochs
    · intro x hx
      exact h.onSend_role x (by simpa using hx)
    · intro x hx
      exact h.onReceive_role x (by simpa using hx)
    · refine h.tag_keyed_append ?_
      intro q hq
      exact h.tagsOnReceive_accounted msg q (by simpa using hq)

end Local

/-! ## Over the network -/

section Network

variable {P : Prims Key}

/-- The invariant survives every call, failed ones included. -/
lemma local_inductive (P : Prims Key) (s : Side) :
    (braidMachine P).Inductive (fun b log => Local P s b.state log) where
  send b log rng h := by
    cases hs : b.state.send P rng with
    | ok r =>
        obtain ⟨st', m, o⟩ := r
        rw [braidMachine_send_of_ok hs]
        exact h.send (.of_send hs)
    | error e =>
        rw [braidMachine_send_of_error hs]
        exact h.quiet ⟨rfl, rfl, rfl, rfl⟩ (Local.tagsOnSend_accounted rng)
  recv b log m rng h := by
    cases hr : b.state.receive P m with
    | ok r =>
        obtain ⟨st', o⟩ := r
        rw [braidMachine_recv_of_ok rng hr]
        exact h.recv (.of_receive hr)
    | error e =>
        rw [braidMachine_recv_of_error rng hr]
        exact h.quiet ⟨rfl, rfl, rfl, rfl⟩ (h.tagsOnReceive_accounted m)

lemma local_braidNet (P : Prims Key) (authSeed : Key) (s : Side) :
    Local P s ((braidNet P authSeed).node s).state ((braidNet P authSeed).log s) := by
  cases s <;> exact ⟨le_rfl, rfl, rfl, by simp [braidNet], by simp [braidNet],
    by simp [braidNet, BraidState.initSender, BraidState.initReceiver, State.completed,
      State.epoch, initialEpoch], by simp [braidNet]⟩

/-- **Each party's invariant holds in every run**, injections included. -/
theorem local_run (P : Prims Key) (authSeed : Key) (as : List (Action Rng Message)) (s : Side) :
    Local P s (((braidNet P authSeed).run (braidMachine P) as).node s).state
      (((braidNet P authSeed).run (braidMachine P) as).log s) :=
  Net.inductive_run (P := fun s (b : BraidState Key) log => Local P s b.state log)
    (local_inductive P) as _
    (local_braidNet P authSeed) s

/-- The owner of an exchange is in one of its five states, or through with the epoch. -/
lemma OwnerView.role {D : Bytes → Decoder → Prop} {x : Exchange Key} {po : ℕ} {st : State Key}
    (v : OwnerView P D x po st) :
    st.owns = true ∧ st.epoch = x.epoch ∨
      5 ≤ po ∧ ∃ auth hdrDec, st = .noHeaderReceived (x.epoch + 1) auth hdrDec := by
  cases v with
  | finished hdec => exact .inr ⟨le_rfl, _, _, rfl⟩
  | _ => exact .inl ⟨rfl, rfl⟩

/-- Its peer never leaves the epoch first. -/
lemma EncView.role {D : Bytes → Decoder → Prop} {x : Exchange Key} {pe : ℕ} {st : State Key}
    (v : EncView P D x pe st) : st.owns = false ∧ st.epoch = x.epoch := by
  cases v <;> exact ⟨rfl, rfl⟩

/-- **Roles and epochs of the two parties.**  In every run without injections neither party is
ever poisoned.  Either both are in the same epoch, one of them its owner and the other not, or
the former owner has moved on to wait for the next header while its peer still streams `ct2`. -/
theorem roles_in_step (hP : P.Correct) (authSeed : Key) (as : List (Action Rng Message))
    (has : ∀ a ∈ as, a.Honest) :
    let node := fun s => (((braidNet P authSeed).run (braidMachine P) as).node s).state
    (∀ s, node s ≠ .poisoned) ∧
      ((∃ s, (node s).epoch = (node s.other).epoch ∧ (node s).owns = true ∧
          (node s.other).owns = false) ∨
        ∃ s epoch auth hdrDec auth' ct2Enc, node s = .noHeaderReceived (epoch + 1) auth hdrDec ∧
          node s.other = .ct2Sampled epoch auth' ct2Enc) := by
  intro node
  constructor
  · intro s hpoisoned
    have hpos : 1 ≤ (node s).epoch := (local_run P authSeed as s).epoch_pos
    rw [hpoisoned] at hpos
    exact absurd hpos (Nat.not_succ_le_zero 0)
  · obtain ⟨owner, x, po, pe, base, h⟩ := joint_run hP authSeed as has
    have henc := h.enc_view.role
    rcases h.owner_view.role with ⟨howns, hepoch⟩ | ⟨hpo, auth, hdrDec, howner⟩
    · exact .inl ⟨owner, hepoch.trans henc.2.symm, howns, henc.1⟩
    · -- the owner has the ciphertext, so its peer has sent it and waits
      have hpe : 5 ≤ pe := h.order.ct2_after_ack (by omega)
      obtain rfl : pe = 5 := le_antisymm h.enc_view.phase_le hpe
      obtain ⟨ct2Enc, hct2⟩ := h.enc_view.eq_of_ct2Sampled
      exact .inr ⟨owner, x.epoch, auth, hdrDec, _, ct2Enc, howner, hct2⟩

/-- The roles after two epochs. -/
theorem roles_in_step_two_epochs : ∃ as : List (Action Rng Message), (∀ a ∈ as, a.Honest) ∧
    let node := fun s => (((braidNet idealPrims 0).run (braidMachine idealPrims) as).node s).state
    (∀ s, 2 ≤ (node s).completed ∧ node s ≠ .poisoned) ∧
      ((∃ s, (node s).epoch = (node s.other).epoch ∧ (node s).owns = true ∧
          (node s.other).owns = false) ∨
        ∃ s epoch auth hdrDec auth' ct2Enc, node s = .noHeaderReceived (epoch + 1) auth hdrDec ∧
          node s.other = .ct2Sampled epoch auth' ct2Enc) := by
  obtain ⟨as, has, hdone⟩ := exists_completed idealPrims_correct 0 2
  obtain ⟨hpoisoned, hroles⟩ := roles_in_step idealPrims_correct 0 as has
  refine ⟨as, has, fun s => ⟨?_, hpoisoned s⟩, hroles⟩
  -- the secret of epoch 2 is among those emitted, which end with the epoch completed last
  obtain ⟨y, hy, hepoch⟩ := hdone s 2 one_le_two le_rfl
  have hmem := List.mem_map_of_mem (f := EpochSecret.epoch) hy
  have hepochs : (secretsOf ((braidNet idealPrims 0).run (braidMachine idealPrims) as) s).map
      EpochSecret.epoch = _ := (local_run idealPrims 0 as s).epochs
  rw [hepochs, hepoch, List.mem_range'_1, Nat.add_comm] at hmem
  exact Nat.lt_succ_iff.mp hmem.2

/-- One of the two parties computed the tag. -/
def Computed (net : BraidNet Key) (q : MacQuery Key) : Prop := ∃ s, q ∈ tagsOf net s

/-- **Unforgeability**, as a condition on a step: a receive that verifies a tag verifies one
that a party has computed with that key, label, epoch and data. -/
def Unforgeable (P : Prims Key) (net : BraidNet Key) : Action Rng Message → Prop
  | .send _ _ => True
  | .deliver s i _ => ∀ m, (net.sent s.other)[i]? = some m →
      ∀ q, (net.node s).state.acceptedTag P m = some q → Computed net q
  | .inject s m _ => ∀ q, (net.node s).state.acceptedTag P m = some q → Computed net q

lemma mem_tagsOf {net : BraidNet Key} {s : Side} {q : MacQuery Key} :
    q ∈ tagsOf net s ↔ .tag q ∈ net.log s := by
  simp only [tagsOf, List.mem_filterMap]
  constructor
  · rintro ⟨e, he, hq⟩
    cases e with
    | tag q' => rwa [← Option.some.inj hq]
    | onSend x => cases hq
    | onReceive x => cases hq
  · intro h
    exact ⟨_, h, rfl⟩

/-- The tags of an exchange have been computed by the time they are accepted. -/
lemma Sync.computed_of_acceptsOnly {D : Bytes → Decoder → Prop} {b : Braids Key} {owner : Side}
    {x : Exchange Key} {po pe : ℕ} {base : List (EpochSecret Key)}
    (h : Sync P D b owner x po pe base) {s : Side} {m : Message}
    (hm : m ∈ b.sent s.other) (hacc : AcceptsOnly P x m (b.node s)) {q : MacQuery Key}
    (hq : (b.node s).acceptedTag P m = some q) : ∃ t, q ∈ b.tags t := by
  have hl : (b.node s).Listens m := by
    by_contra hl
    rw [acceptedTag_of_not_listens hl] at hq
    cases hq
  rcases Side.eq_or_eq_other owner s with rfl | rfl
  · -- the owner accepts tags in its last two phases only, and by then both are computed
    have hpo : 4 ≤ po := by
      cases hst : b.node s with
      | ekSentCt1Received | noHeaderReceived =>
          have hview := h.owner_view
          rw [hst] at hview
          cases hview
          omega
      | _ => rw [hst] at hq; cases hq
    rcases hacc q hq with rfl | rfl
    · exact ⟨_, h.header_tag (by omega)⟩
    · refine ⟨_, h.ct2_tag (le_antisymm h.enc_view.phase_le (h.order.ct2_after_ack hpo))⟩
  · -- the encapsulator accepts a header tag only, on a header codeword of the owner
    rw [Side.other_other] at hm
    cases hst : b.node owner.other with
    | noHeaderReceived epoch auth hdrDec =>
        rw [hst] at hq hacc hl
        have hheader := hacc.headerTag hq
        have hepoch := h.enc_view.epoch_eq
        rw [hst] at hepoch
        refine ⟨owner, hheader ▸ h.header_tag ?_⟩
        cases h.owner_sent m hm with
        | old hlt => exact absurd (hl.1.trans hepoch) hlt.ne
        | hdr hpo => exact hpo
        | _ => cases hl.2
    | ekSentCt1Received =>
        have hview := h.enc_view
        rw [hst] at hview
        cases hview
    | _ => rw [hst] at hq; cases hq

/-- **Honest networks forge nothing**: in a run without injections unforgeability is a
theorem. -/
theorem unforgeable_honest (hP : P.Correct) (authSeed : Key) (as : List (Action Rng Message))
    (has : ∀ a ∈ as, a.Honest) :
    Net.Along (braidMachine P) (Unforgeable P) (braidNet P authSeed) as := by
  refine Net.along_of_invariant (P := fun net => Joint P (Decoder.Genuine P.rs) (braidsOf net))
    (Q := fun _ a => a.Honest) (fun _ _ => joint_step hP) ?_ as _
    (joint_braidNet (tolerant_genuine hP) authSeed) (Net.along_of_forall as _ has)
  intro net a h ha
  cases a with
  | send s r => trivial
  | deliver s i r =>
      intro m hm q hq
      obtain ⟨owner, x, po, pe, base, h⟩ := h
      have hmem : m ∈ (braidsOf net).sent s.other := List.mem_of_getElem? hm
      exact h.computed_of_acceptsOnly hmem (h.acceptsOnly_genuine hP hmem) hq
  | inject s m r => exact ha.elim

/-- A secret emitted on receipt rests on an accepted ciphertext tag, keyed by that secret. -/
lemma acceptedTag_of_receives {msg : Message} {st st' : State Key} {x : EpochSecret Key}
    (h : State.Receives P msg st st' (some x)) :
    x.epoch = st.epoch ∧ st.owns = true ∧ ∃ q, ∃ auth : Authenticator Key,
      st.acceptedTag P msg = some q ∧ q.label = Authenticator.ctLabel ∧ q.epoch = x.epoch ∧
      q.key = (auth.update P.hash x.epoch x.secret).macKey := by
  cases h with
  | @ct2Accept epoch auth dk ct1 ct2Dec ct2Dec' ct2WithMac rawSs hepoch htype hadd hmsg hkem hvfy =>
      exact ⟨rfl, rfl, _, auth, State.acceptedTag_ct2 hepoch htype hadd hmsg hkem hvfy, rfl, rfl,
        rfl⟩

/-- The MAC key determines the secret it was derived from. -/
lemma secret_eq_of_macKey_eq (hinj : Auth.KdfAuthInjective P.hash) {auth auth' : Authenticator Key}
    {epoch : ℕ} {ss ss' : Key}
    (h : (auth.update P.hash epoch ss).macKey = (auth'.update P.hash epoch ss').macKey) :
    ss = ss' :=
  (hinj epoch h).2

/-- The owner's emission on receipt of `m`, traced back to the encapsulator. -/
lemma onSend_of_recv (hinj : Auth.KdfAuthInjective P.hash) {net : BraidNet Key} {s : Side}
    {m : Message} (hlocal : ∀ t, Local P t (net.node t).state (net.log t)) {st' : State Key}
    {x : EpochSecret Key} (hrecv : (net.node s).state.receive P m = .ok (st', some x))
    (hforge : ∀ q, (net.node s).state.acceptedTag P m = some q → Computed net q) :
    .onSend x ∈ net.log s.other := by
  obtain ⟨hepoch, howns, q, auth, hacc, hlabel, hqe, hkey⟩ :=
    acceptedTag_of_receives (.of_receive hrecv)
  obtain ⟨t, ht⟩ := hforge q hacc
  obtain ⟨ss, auth', hmem, hkey'⟩ := (hlocal t).tag_keyed q (mem_tagsOf.mp ht) hlabel
  have hss : ss = x.secret := by
    rw [hqe] at hkey'
    exact secret_eq_of_macKey_eq hinj (hkey'.symm.trans hkey)
  have hx : (⟨q.epoch, ss⟩ : EpochSecret Key) = x := by rw [hqe, hss]
  rw [hx] at hmem
  -- the party that emitted it on the send path is not the owner of the epoch
  have hown : s = ownerOf x.epoch := by
    have hrole := (hlocal s).role
    rwa [howns, ← hepoch] at hrole
  have ht' : t = s.other := by rw [(hlocal t).onSend_role x hmem, ← hown]
  rwa [← ht']

/-- **No divergence under active injection.**  Take any run, with any messages injected, in
which MACs are not forged, and any step of it in which the owner of an epoch emits the epoch's
secret: before that step the encapsulator had emitted that very secret on its send path. -/
theorem no_divergence (hinj : Auth.KdfAuthInjective P.hash) (authSeed : Key)
    (as : List (Action Rng Message)) (a : Action Rng Message)
    (hforge : Net.Along (braidMachine P) (Unforgeable P) (braidNet P authSeed) (as ++ [a]))
    {x : EpochSecret Key} {new : List (EpochSecret Key)}
    (hnew : secretsOf ((braidNet P authSeed).run (braidMachine P) (as ++ [a])) (ownerOf x.epoch) =
      secretsOf ((braidNet P authSeed).run (braidMachine P) as) (ownerOf x.epoch) ++ new)
    (hx : x ∈ new) :
    .onSend x ∈ ((braidNet P authSeed).run (braidMachine P) as).log (ownerOf x.epoch).other := by
  have hlocal := local_run P authSeed as
  have hlocal' := local_run P authSeed (as ++ [a])
  have hstep := ((Net.along_append as [a] _).mp hforge).2.1
  rw [Net.run_append, Net.run_cons, Net.run_nil] at hnew hlocal'
  generalize (braidNet P authSeed).run (braidMachine P) as = net at *
  cases a with
  | send s rng =>
      -- the owner of an epoch does not emit it on the send path
      obtain ⟨rfl, st', m, hsend⟩ := emits_of_sendAt hnew hx
      have hmem : .onSend x ∈ (net.sendAt (braidMachine P) (ownerOf x.epoch) rng).log
          (ownerOf x.epoch) := by
        simp [braidMachine_send_of_ok hsend]
      exact absurd ((hlocal' _).onSend_role x hmem) (Side.ne_other _)
  | deliver s i r =>
      cases hm : (net.sent s.other)[i]? with
      | none =>
          rw [Net.step_deliver_none r hm, List.self_eq_append_right] at hnew
          simp [hnew] at hx
      | some m =>
          rw [Net.step_deliver_some r hm] at hnew
          obtain ⟨rfl, st', hrecv⟩ := emits_of_recvAt (r := r) hnew hx
          exact onSend_of_recv hinj hlocal hrecv (hstep m hm)
  | inject s m r =>
      obtain ⟨rfl, st', hrecv⟩ := emits_of_recvAt hnew hx
      exact onSend_of_recv hinj hlocal hrecv hstep

/-- Alice finishes epoch 1 in some step of some honest run. -/
lemma exists_emission (hP : P.Correct) (authSeed : Key) :
    ∃ (as : List (Action Rng Message)) (a : Action Rng Message) (x : EpochSecret Key)
      (new : List (EpochSecret Key)), (∀ b ∈ as ++ [a], b.Honest) ∧ x.epoch = 1 ∧
      secretsOf ((braidNet P authSeed).run (braidMachine P) (as ++ [a])) .alice =
        secretsOf ((braidNet P authSeed).run (braidMachine P) as) .alice ++ new ∧ x ∈ new := by
  obtain ⟨bs, hbs, hdone⟩ := exists_completed hP authSeed 1
  have hlast := hdone .alice 1 le_rfl le_rfl
  -- the step before which she had not emitted it
  obtain ⟨pre, a, post, rfl, hbefore, x, hx, hepoch⟩ := Net.exists_step_of_run
    (p := fun net => ∃ y ∈ secretsOf net .alice, y.epoch = 1) bs (braidNet P authSeed)
    (by simp [secretsOf, braidNet]) hlast
  obtain ⟨new, hnew⟩ := (Net.grows_step (A := braidMachine P)
    ((braidNet P authSeed).run (braidMachine P) pre) a .alice).log
  have hsecrets : secretsOf ((braidNet P authSeed).run (braidMachine P) (pre ++ [a])) .alice =
      secretsOf ((braidNet P authSeed).run (braidMachine P) pre) .alice ++
        new.filterMap Event.secret? := by
    rw [Net.run_append, secretsOf, Net.run_cons, Net.run_nil, ← hnew, List.filterMap_append]
    rfl
  refine ⟨pre, a, x, _, ?_, hepoch, hsecrets, ?_⟩
  · intro b hb
    refine hbs b ?_
    simp only [List.mem_append, List.mem_cons, List.not_mem_nil, or_false] at hb ⊢
    rcases hb with hb | rfl
    · exact .inl hb
    · exact .inr (.inl rfl)
  · rw [hsecrets, List.mem_append] at hx
    exact hx.resolve_left (fun hmem => hbefore ⟨x, hmem, hepoch⟩)

theorem no_divergence_epoch_one :
    ∃ (as : List (Action Rng Message)) (a : Action Rng Message) (x : EpochSecret ℕ)
      (new : List (EpochSecret ℕ)), Auth.KdfAuthInjective idealPrims.hash ∧
      Net.Along (braidMachine idealPrims) (Unforgeable idealPrims) (braidNet idealPrims 0)
        (as ++ [a]) ∧
      secretsOf ((braidNet idealPrims 0).run (braidMachine idealPrims) (as ++ [a]))
          (ownerOf x.epoch) =
        secretsOf ((braidNet idealPrims 0).run (braidMachine idealPrims) as) (ownerOf x.epoch) ++
          new ∧
      x ∈ new ∧ .onSend x ∈ ((braidNet idealPrims 0).run (braidMachine idealPrims) as).log
        (ownerOf x.epoch).other := by
  obtain ⟨as, a, x, new, hhonest, hepoch, hnew, hx⟩ := exists_emission idealPrims_correct 0
  have hforge := unforgeable_honest idealPrims_correct 0 _ hhonest
  have howner : ownerOf x.epoch = .alice := by rw [hepoch]; rfl
  rw [← howner] at hnew
  have hinj : Auth.KdfAuthInjective idealPrims.hash := Ideal.hash_kdfAuthInjective
  exact ⟨as, a, x, new, hinj, hforge, hnew, hx, no_divergence hinj 0 as a hforge hnew hx⟩

end Network

end Hushwire
