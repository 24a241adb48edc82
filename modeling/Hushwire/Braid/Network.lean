import Hushwire.Braid.Agreement
import Hushwire.Braid.Ideal

/-!
# Two braids over an unreliable network

`braidMachine` is `BraidState` as a `Duplex.Machine`: its observations are the epoch secrets a
call emits, on the send path or on the receive path, and the tags it computes.  `braidNet` is
the connection right after both parties have initialised from one `auth_seed`.

The main result is `epoch_agreement`: whatever an honest network loses, delays, reorders or
duplicates, both parties emit the epochs' secrets one after the other and agree on each.
-/

namespace Hushwire

open Duplex

variable {Key : Type}

/-- What a braid call shows to the outside. -/
inductive Event (Key : Type)
  | onSend (s : EpochSecret Key)
  | onReceive (s : EpochSecret Key)
  | tag (q : MacQuery Key)
  deriving DecidableEq

namespace Event

/-- The epoch secret an event reports. -/
def secret? : Event Key → Option (EpochSecret Key)
  | onSend s => some s
  | onReceive s => some s
  | tag _ => none

/-- The tag an event reports. -/
def tag? : Event Key → Option (MacQuery Key)
  | tag q => some q
  | _ => none

end Event

namespace BraidState

variable {P : Prims Key} {st st' : State Key}

lemma send_of_ok {rng : Rng} {m : Message} {o : Option (EpochSecret Key)}
    (h : st.send P rng = .ok (st', m, o)) :
    send P rng ⟨st⟩ = (.ok ⟨m, st'.epoch - 1, o⟩, ⟨st'⟩) := by
  simp [send, transition, h]

lemma send_of_error {rng : Rng} {e : CryptoError} (h : st.send P rng = .error e) :
    send P rng ⟨st⟩ = (.error e, ⟨st⟩) := by
  simp [send, transition, h]

lemma receive_of_ok {m : Message} {o : Option (EpochSecret Key)}
    (h : st.receive P m = .ok (st', o)) :
    receive P m ⟨st⟩ = (.ok ⟨m.epoch - 1, o⟩, ⟨st'⟩) := by
  simp [receive, transition, h]

lemma receive_of_error {m : Message} {e : CryptoError} (h : st.receive P m = .error e) :
    receive P m ⟨st⟩ = (.error e, ⟨st⟩) := by
  simp [receive, transition, h]

end BraidState

/-- A braid as a party of the network. -/
def braidMachine (P : Prims Key) : Machine (BraidState Key) Rng Message (Event Key) where
  send b rng :=
    match b.send P rng with
    | (.ok out, b') => (b', some out.msg,
        (b.state.tagsOnSend P rng).map .tag ++ out.outputKey.toList.map .onSend)
    | (.error _, b') => (b', none, (b.state.tagsOnSend P rng).map .tag)
  recv b m _ :=
    match b.receive P m with
    | (.ok out, b') => (b',
        (b.state.tagsOnReceive P m).map .tag ++ out.outputKey.toList.map .onReceive)
    | (.error _, b') => (b', (b.state.tagsOnReceive P m).map .tag)

section Calls

variable {P : Prims Key} {st st' : State Key} {o : Option (EpochSecret Key)}

lemma braidMachine_send_of_ok {rng : Rng} {m : Message} (h : st.send P rng = .ok (st', m, o)) :
    (braidMachine P).send ⟨st⟩ rng = (⟨st'⟩, some m,
      (st.tagsOnSend P rng).map Event.tag ++ o.toList.map Event.onSend) := by
  simp [braidMachine, BraidState.send_of_ok h]

lemma braidMachine_send_of_error {rng : Rng} {e : CryptoError} (h : st.send P rng = .error e) :
    (braidMachine P).send ⟨st⟩ rng = (⟨st⟩, none, (st.tagsOnSend P rng).map Event.tag) := by
  simp [braidMachine, BraidState.send_of_error h]

lemma braidMachine_recv_of_ok {m : Message} (r : Rng) (h : st.receive P m = .ok (st', o)) :
    (braidMachine P).recv ⟨st⟩ m r = (⟨st'⟩,
      (st.tagsOnReceive P m).map Event.tag ++ o.toList.map Event.onReceive) := by
  simp [braidMachine, BraidState.receive_of_ok h]

lemma braidMachine_recv_of_error {m : Message} (r : Rng) {e : CryptoError}
    (h : st.receive P m = .error e) :
    (braidMachine P).recv ⟨st⟩ m r = (⟨st⟩, (st.tagsOnReceive P m).map Event.tag) := by
  simp [braidMachine, BraidState.receive_of_error h]

end Calls

/-- A braid network. -/
abbrev BraidNet (Key : Type) := Net (BraidState Key) Message (Event Key)

/-- Both parties right after `init_sender` and `init_receiver` with one seed. -/
def braidNet (P : Prims Key) (authSeed : Key) : BraidNet Key :=
  Net.init (fun s => match s with
    | .alice => BraidState.initSender P authSeed
    | .bob => BraidState.initReceiver P authSeed)

/-- The epoch secrets a side has emitted, oldest first. -/
def secretsOf (net : BraidNet Key) (s : Side) : List (EpochSecret Key) :=
  (net.log s).filterMap Event.secret?

/-- The tags a side has computed. -/
def tagsOf (net : BraidNet Key) (s : Side) : List (MacQuery Key) :=
  (net.log s).filterMap Event.tag?

/-- The part of the network the joint invariant speaks about. -/
def braidsOf (net : BraidNet Key) : Braids Key where
  node s := (net.node s).state
  out := secretsOf net
  sent := net.sent
  tags := tagsOf net

/-! ## A network step in terms of the two state machines -/

section Steps

variable {P : Prims Key} {net : BraidNet Key} {s : Side} {st' : State Key}
  {o : Option (EpochSecret Key)}

lemma filterMap_secret_tag (ts : List (MacQuery Key)) :
    (ts.map Event.tag).filterMap Event.secret? = [] := by
  simp [List.filterMap_eq_nil_iff, Event.secret?]

lemma filterMap_tag_tag (ts : List (MacQuery Key)) :
    (ts.map Event.tag).filterMap Event.tag? = ts := by
  induction ts with
  | nil => rfl
  | cons t ts ih => simp only [List.map_cons, List.filterMap_cons, Event.tag?, ih]

/-- A log grows by the tags a call computes and the secret it emits. -/
lemma filterMap_call (log : List (Event Key)) (ts : List (MacQuery Key))
    (o : Option (EpochSecret Key)) (f : EpochSecret Key → Event Key)
    (hsecret : ∀ x, (f x).secret? = some x) (htag : ∀ x, (f x).tag? = none) :
    (log ++ (ts.map Event.tag ++ o.toList.map f)).filterMap Event.secret? =
        log.filterMap Event.secret? ++ o.toList ∧
      (log ++ (ts.map Event.tag ++ o.toList.map f)).filterMap Event.tag? =
        log.filterMap Event.tag? ++ ts := by
  simp only [List.filterMap_append, filterMap_secret_tag, filterMap_tag_tag]
  cases o <;> simp [hsecret, htag]

/-- A successful send is a call in the sense of `Braids.put`. -/
lemma braids_sendAt {rng : Rng} {m : Message}
    (h : (net.node s).state.send P rng = .ok (st', m, o)) :
    braidsOf (net.sendAt (braidMachine P) s rng) =
      (braidsOf net).put s st' o.toList [m] ((net.node s).state.tagsOnSend P rng) := by
  have hcall := braidMachine_send_of_ok h
  have hlog := filterMap_call (net.log s) ((net.node s).state.tagsOnSend P rng) o Event.onSend
    (fun _ => rfl) (fun _ => rfl)
  unfold braidsOf Braids.put
  congr 1
  · funext t
    rcases Side.eq_or_eq_other s t with rfl | rfl <;> simp [hcall]
  · funext t
    rcases Side.eq_or_eq_other s t with rfl | rfl <;> simp [secretsOf, hcall, hlog]
  · simp [Net.sendAt, hcall]
  · funext t
    rcases Side.eq_or_eq_other s t with rfl | rfl <;> simp [tagsOf, hcall, hlog]

/-- So is a successful receive. -/
lemma braids_recvAt {m : Message} (r : Rng)
    (h : (net.node s).state.receive P m = .ok (st', o)) :
    braidsOf (net.recvAt (braidMachine P) s m r) =
      (braidsOf net).put s st' o.toList [] ((net.node s).state.tagsOnReceive P m) := by
  have hcall := braidMachine_recv_of_ok r h
  have hlog := filterMap_call (net.log s) ((net.node s).state.tagsOnReceive P m) o
    Event.onReceive (fun _ => rfl) (fun _ => rfl)
  unfold braidsOf Braids.put
  congr 1
  · funext t
    rcases Side.eq_or_eq_other s t with rfl | rfl <;> simp [hcall]
  · funext t
    rcases Side.eq_or_eq_other s t with rfl | rfl <;> simp [secretsOf, hcall, hlog]
  · simp
  · funext t
    rcases Side.eq_or_eq_other s t with rfl | rfl <;> simp [tagsOf, hcall, hlog]

/-- A failed call changes nothing but the tags computed on the way. -/
lemma secretsOf_sendAt_of_error {rng : Rng} {e : CryptoError} (t : Side)
    (h : (net.node s).state.send P rng = .error e) :
    secretsOf (net.sendAt (braidMachine P) s rng) t = secretsOf net t := by
  have hcall := braidMachine_send_of_error h
  rcases Side.eq_or_eq_other s t with rfl | rfl <;>
    simp [secretsOf, hcall, filterMap_secret_tag, -List.filterMap_map]

lemma secretsOf_recvAt_of_error {m : Message} (r : Rng) {e : CryptoError} (t : Side)
    (h : (net.node s).state.receive P m = .error e) :
    secretsOf (net.recvAt (braidMachine P) s m r) t = secretsOf net t := by
  have hcall := braidMachine_recv_of_error r h
  rcases Side.eq_or_eq_other s t with rfl | rfl <;>
    simp [secretsOf, hcall, filterMap_secret_tag, -List.filterMap_map]

lemma braids_sendAt_node_other (rng : Rng) :
    (braidsOf (net.sendAt (braidMachine P) s rng)).node s.other = (net.node s.other).state := by
  show ((net.sendAt (braidMachine P) s rng).node s.other).state = _
  rw [Net.sendAt_node_other]

/-- Only a send of the side itself adds to what it has emitted, and only what it emits. -/
lemma emits_of_sendAt {rng : Rng} {t : Side} {new : List (EpochSecret Key)}
    {x : EpochSecret Key}
    (h : secretsOf (net.sendAt (braidMachine P) s rng) t = secretsOf net t ++ new) (hx : x ∈ new) :
    s = t ∧ ∃ st' m, (net.node s).state.send P rng = .ok (st', m, some x) := by
  cases hs : (net.node s).state.send P rng with
  | error e =>
      rw [secretsOf_sendAt_of_error t hs, List.self_eq_append_right] at h
      simp [h] at hx
  | ok r =>
      obtain ⟨st', m, o⟩ := r
      have hout : secretsOf (net.sendAt (braidMachine P) s rng) t = _ :=
        congrArg (fun b => Braids.out b t) (braids_sendAt hs)
      obtain ⟨rfl, ho⟩ := Braids.mem_of_put_out (hout.symm.trans h) hx
      rw [Option.mem_toList] at ho
      exact ⟨rfl, st', m, by rw [ho]⟩

lemma emits_of_recvAt {m : Message} {r : Rng} {t : Side} {new : List (EpochSecret Key)}
    {x : EpochSecret Key}
    (h : secretsOf (net.recvAt (braidMachine P) s m r) t = secretsOf net t ++ new) (hx : x ∈ new) :
    s = t ∧ ∃ st', (net.node s).state.receive P m = .ok (st', some x) := by
  cases hr : (net.node s).state.receive P m with
  | error e =>
      rw [secretsOf_recvAt_of_error r t hr, List.self_eq_append_right] at h
      simp [h] at hx
  | ok p =>
      obtain ⟨st', o⟩ := p
      have hout : secretsOf (net.recvAt (braidMachine P) s m r) t = _ :=
        congrArg (fun b => Braids.out b t) (braids_recvAt r hr)
      obtain ⟨rfl, ho⟩ := Braids.mem_of_put_out (hout.symm.trans h) hx
      rw [Option.mem_toList] at ho
      exact ⟨rfl, st', by rw [ho]⟩

@[simp] lemma braids_deliverAt (i : ℕ) (m : Message) (r : Rng) :
    braidsOf (net.deliverAt (braidMachine P) s i m r) =
      braidsOf (net.recvAt (braidMachine P) s m r) := rfl

end Steps

/-! ## Agreement -/

section Agreement

variable {P : Prims Key}

/-- The parties start on the exchange of epoch 1, with Alice as its owner. -/
lemma joint_braidNet {D : Bytes → Decoder → Prop} (hD : Tolerant P D) (authSeed : Key) :
    Joint P D (braidsOf (braidNet P authSeed)) := by
  refine ⟨.alice, Exchange.fresh initialEpoch (Authenticator.init P.hash initialEpoch authSeed),
    0, 0, [], ?_, ?_, ?_, ?_, ?_, ?_, ?_, by omega, by omega, ?_, ?_, ?_, ?_⟩
  · exact .keysUnsampled
  · refine .noHeaderReceived ?_
    rw [← Exchange.length_headerWithMac]
    exact hD.fresh _
  · intro _ rng
    refine .noHeaderReceived ?_
    rw [← Exchange.length_headerWithMac]
    exact hD.fresh _
  · constructor <;> omega
  · intro m hm
    cases hm
  · intro m hm
    cases hm
  · intro s q hq
    cases s <;> cases hq
  · rfl
  · exact le_rfl
  · rfl
  · rfl

/-- An honest step keeps the parties in step. -/
lemma joint_step (hP : P.Correct) {net : BraidNet Key} {a : Action Rng Message}
    (h : Joint P (Decoder.Genuine P.rs) (braidsOf net)) (ha : a.Honest) :
    Joint P (Decoder.Genuine P.rs) (braidsOf (net.step (braidMachine P) a)) := by
  cases a with
  | send s rng =>
      obtain ⟨st', m, o, hsend, h'⟩ := h.send hP s rng
      rw [Net.step_send, braids_sendAt hsend]
      exact h'
  | deliver s i r =>
      cases hm : (net.sent s.other)[i]? with
      | none => rwa [Net.step_deliver_none r hm]
      | some m =>
          obtain ⟨st', o, hrecv, h'⟩ := h.recv hP s (List.mem_of_getElem? hm)
          rw [Net.step_deliver_some r hm, braids_deliverAt, braids_recvAt r hrecv]
          exact h'
  | inject s m r => exact ha.elim

/-- **Honest runs stay in step.** -/
theorem joint_run (hP : P.Correct) (authSeed : Key) (as : List (Action Rng Message))
    (has : ∀ a ∈ as, a.Honest) :
    Joint P (Decoder.Genuine P.rs) (braidsOf ((braidNet P authSeed).run (braidMachine P) as)) :=
  Net.run_invariant (P := fun net => Joint P (Decoder.Genuine P.rs) (braidsOf net))
    (Q := fun _ a => a.Honest) (fun _ _ => joint_step hP) as _
    (joint_braidNet (tolerant_genuine hP) authSeed) (Net.along_of_forall as _ has)

/-- **Braid epoch agreement.**  In every run in which the network loses, delays, reorders and
duplicates but does not forge, each party emits the secrets of epochs `1, 2, 3, …`
consecutively and once each, and two secrets of one epoch are equal. -/
theorem epoch_agreement (hP : P.Correct) (authSeed : Key) (as : List (Action Rng Message))
    (has : ∀ a ∈ as, a.Honest) :
    (∀ s, (secretsOf ((braidNet P authSeed).run (braidMachine P) as) s).map EpochSecret.epoch =
      List.range' 1 (secretsOf ((braidNet P authSeed).run (braidMachine P) as) s).length) ∧
    ∀ a ∈ secretsOf ((braidNet P authSeed).run (braidMachine P) as) .alice,
      ∀ b ∈ secretsOf ((braidNet P authSeed).run (braidMachine P) as) .bob,
        a.epoch = b.epoch → a.secret = b.secret := by
  have h := joint_run hP authSeed as has
  refine ⟨fun s => h.out_epochs s, ?_⟩
  intro a ha b hb hepoch
  exact congrArg EpochSecret.secret (h.out_agree ha hb hepoch)

end Agreement

end Hushwire
