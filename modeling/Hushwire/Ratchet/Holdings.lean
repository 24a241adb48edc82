import Hushwire.Primitives.Symbolic
import Hushwire.Ratchet.SessionNetwork
import Hushwire.Ratchet.SpqrEpochs

/-!
# What a session holds

The keys inside a session, for results about what a thief of the session learns.  `SpqrState.Holds`
lists those of the post-quantum half: the root key, the chain keys and the skipped keys of every
epoch, and the two keys of the braid's authenticator.  All of them are outputs of HKDF under an info
string of that half (`SpqrHolding.pqShaped`), in any state that calls can lead to.

Secret scalars and decapsulation keys are byte strings, and what is computed from them (a
Diffie-Hellman output, an epoch secret) is an input of the ratchets and not one of their keys.
-/

namespace Hushwire

open Duplex Secrecy

variable {Key : Type}

/-- A key inside an SPQR state. -/
inductive SpqrState.Holds (st : SpqrState Key) : Key → Prop
  | root : Holds st st.rk
  | sending {e : ℕ} {c : SckaChain Key} (h : st.sendChain e = some c) : Holds st c.ck
  | receiving {e : ℕ} {c : SckaChain Key} (h : st.recvChain e = some c) : Holds st c.ck
  | skipped {e n : ℕ} {k : Key} (h : st.skippedKey e n = some k) : Holds st k
  | authRoot {auth : Authenticator Key} (h : st.braid.state.auth? = some auth) :
      Holds st auth.rootKey
  | authMac {auth : Authenticator Key} (h : st.braid.state.auth? = some auth) : Holds st auth.macKey

/-- Where a session keeps keys of the EC ratchet. -/
inductive EcSlot (Key : Type)
  | root
  | sending
  | receiving
  | skipped (dh : Key) (n : ℕ)

/-- The key in a slot. -/
def RatchetSession.ecSlot [DecidableEq Key] (s : RatchetSession Key) : EcSlot Key → Option Key
  | .root => some s.rootKey
  | .sending => s.sendingChain.map ChainState.chainKey
  | .receiving => s.receivingChain.map ChainState.chainKey
  | .skipped dh n => s.skipped.find dh n

/-- All keys of a session, of both halves. -/
def RatchetSession.secrets [DecidableEq Key] (s : RatchetSession Key) : Set Key :=
  {k | (∃ slot, s.ecSlot slot = some k) ∨ s.spqr.Holds k}

/-! ## The authenticator -/

/-- The authenticator of a braid, if there is one, has been updated. -/
def State.AuthUpdated (H : Hash Key) (st : State Key) : Prop :=
  ∀ auth, st.auth? = some auth → ∃ (old : Authenticator Key) (epoch : ℕ) (key : Key),
    auth = old.update H epoch key

section Authenticator

variable {P : Prims Key} {st st' : State Key} {o : Option (EpochSecret Key)}

lemma State.Sends.authUpdated {rng : Rng} {m : Message} (hsend : State.Sends P rng st st' m o)
    (h : st.AuthUpdated P.hash) : st'.AuthUpdated P.hash := by
  rcases hsend.shape with ⟨-, hshape⟩ | ⟨ss, auth, -, -, -, -, -, -, hauth⟩
  · rwa [State.AuthUpdated, hshape.auth_eq]
  · intro auth' hauth'
    exact ⟨auth, st.epoch, ss, Option.some.inj (hauth'.symm.trans hauth)⟩

lemma State.Receives.authUpdated {m : Message} (hrecv : State.Receives P m st st' o)
    (h : st.AuthUpdated P.hash) : st'.AuthUpdated P.hash := by
  cases hrecv with
  | ct2Accept => exact fun auth hauth => ⟨_, _, _, (Option.some.inj hauth).symm⟩
  | _ => exact h

lemma authUpdated_inductive (P : Prims Key) :
    (braidMachine P).Inductive (fun b _ => b.state.AuthUpdated P.hash) where
  send b log rng h := by
    cases hs : b.state.send P rng with
    | error e =>
        rw [braidMachine_send_of_error hs]
        exact h
    | ok out =>
        rw [braidMachine_send_of_ok hs]
        exact (State.Sends.of_send hs).authUpdated h
  recv b log m rng h := by
    cases hr : b.state.receive P m with
    | error e =>
        rw [braidMachine_recv_of_error rng hr]
        exact h
    | ok out =>
        rw [braidMachine_recv_of_ok rng hr]
        exact (State.Receives.of_receive hr).authUpdated h

end Authenticator

/-! ## The post-quantum half -/

/-- What is known of an SPQR state after any calls, with the authenticator of its braid. -/
def SpqrHolding (P : Prims Key) (sharedSecret : Key) (side : Side) (st : SpqrState Key)
    (log : List (SpqrEvent Key)) : Prop :=
  SpqrLocal P sharedSecret side st log ∧ st.braid.state.AuthUpdated P.hash

/-- An output of HKDF under an info string of the post-quantum half.  Keying material that is no key
is a counter there. -/
def Hash.PqShaped (H : Hash Key) (k : Key) : Prop :=
  ∃ ikm salt info len i, k = H.hkdf ikm salt info len i ∧
    (∀ b, ikm = .inr b → ∃ n, b = beBytes 4 n) ∧
    (Hash.spqrProtocolInfo <+: info ∨ Auth.protocolInfo <+: info)

section Holding

variable {P : Prims Key} {sharedSecret : Key} {side : Side} {st : SpqrState Key}
  {log : List (SpqrEvent Key)}

lemma spqrHolding_inductive (P : Prims Key) (sharedSecret : Key) (side : Side) :
    (spqrMachine P).Inductive (SpqrHolding P sharedSecret side) :=
  SpqrLocal.inner_inductive (authUpdated_inductive P)

lemma spqrHolding_init (P : Prims Key) (sharedSecret : Key) (side : Side) :
    SpqrHolding P sharedSecret side (SpqrState.init P sharedSecret (directionOf side)) [] := by
  refine ⟨spqrLocal_init P sharedSecret side, ?_⟩
  cases side with
  | alice => exact fun auth hauth => ⟨_, _, _, (Option.some.inj hauth).symm⟩
  | bob => exact fun auth hauth => ⟨_, _, _, (Option.some.inj hauth).symm⟩

lemma epochChains_pqShaped (H : Hash Key) (sk : Key) (secrets : List Key) :
    H.PqShaped (epochChains H sk secrets).rootKey ∧
      H.PqShaped (epochChains H sk secrets).chainKey0 ∧
      H.PqShaped (epochChains H sk secrets).chainKey1 := by
  have hinfo : ∀ label, Hash.spqrProtocolInfo <+: Hash.spqrProtocolInfo ++ label :=
    fun label => List.prefix_append _ label
  rcases List.eq_nil_or_concat secrets with rfl | ⟨before, x, rfl⟩
  · exact ⟨⟨_, _, _, _, _, rfl, by simp, .inl (hinfo _)⟩,
      ⟨_, _, _, _, _, rfl, by simp, .inl (hinfo _)⟩,
      ⟨_, _, _, _, _, rfl, by simp, .inl (hinfo _)⟩⟩
  · rw [List.concat_eq_append, epochChains_concat]
    exact ⟨⟨_, _, _, _, _, rfl, by simp, .inl (hinfo _)⟩,
      ⟨_, _, _, _, _, rfl, by simp, .inl (hinfo _)⟩,
      ⟨_, _, _, _, _, rfl, by simp, .inl (hinfo _)⟩⟩

lemma chainBases_pqShaped (H : Hash Key) (sk : Key) (secrets : List Key) (side : Side) (e : ℕ) :
    H.PqShaped (sendBase H sk secrets side e) ∧ H.PqShaped (recvBase H sk secrets side e) := by
  obtain ⟨-, h₀, h₁⟩ := epochChains_pqShaped H sk (secrets.take e)
  cases side with
  | alice => exact ⟨h₀, h₁⟩
  | bob => exact ⟨h₁, h₀⟩

lemma sckaChain_at_pqShaped {H : Hash Key} {base : Key} (h : H.PqShaped base) (n : ℕ) :
    H.PqShaped (SckaChain.at H base n).ck := by
  cases n with
  | zero => exact h
  | succ n => exact ⟨_, _, _, _, _, rfl, by simp, .inl (List.prefix_append _ _)⟩

/-- **Every key of the post-quantum half comes from HKDF under an info string of its own.** -/
theorem SpqrHolding.pqShaped (h : SpqrHolding P sharedSecret side st log) {k : Key}
    (hk : st.Holds k) : P.hash.PqShaped k := by
  have hauthInfo : ∀ label more, Auth.protocolInfo <+: Auth.protocolInfo ++ label ++ more :=
    fun label more => by
      rw [List.append_assoc]
      exact List.prefix_append _ _
  cases hk with
  | root =>
      rw [h.1.chains.epochs.rk_eq]
      exact (epochChains_pqShaped _ _ _).1
  | sending hc =>
      obtain ⟨j, rfl⟩ := h.1.chains.sending.chain_at _ _ hc
      exact sckaChain_at_pqShaped (chainBases_pqShaped _ _ _ _ _).1 j
  | receiving hc =>
      obtain ⟨j, rfl⟩ := h.1.chains.receiving.recvChain_at hc
      exact sckaChain_at_pqShaped (chainBases_pqShaped _ _ _ _ _).2 j
  | skipped hkey =>
      rw [h.1.chains.receiving.skipped_key _ _ _ hkey]
      exact ⟨_, _, _, _, _, rfl, by simp, .inl (List.prefix_append _ _)⟩
  | authRoot hauth =>
      obtain ⟨old, epoch, key, rfl⟩ := h.2 _ hauth
      exact ⟨_, _, _, _, _, rfl, by simp, .inr (hauthInfo _ _)⟩
  | authMac hauth =>
      obtain ⟨old, epoch, key, rfl⟩ := h.2 _ hauth
      exact ⟨_, _, _, _, _, rfl, by simp, .inr (hauthInfo _ _)⟩

end Holding

/-! ## Sessions -/

section Sessions

variable [DecidableEq Key] {C : Suite Key}

/-- A session right after the handshake. -/
inductive RatchetSession.Starts (C : Suite Key) (sharedSecret : Key) :
    Side → RatchetSession Key → Prop
  | alice (rng : Rng) (bobDhPublic : Key) :
      Starts C sharedSecret .alice (.initializeAlice C rng sharedSecret bobDhPublic)
  | bob (bobDhKeypair : Bytes × Key) :
      Starts C sharedSecret .bob (.initializeBob C sharedSecret bobDhKeypair)

/-- **The post-quantum half of a session**, after any calls on the session. -/
theorem RatchetSession.Starts.spqrHolding {sharedSecret : Key} {side : Side}
    {start : RatchetSession Key} (hstart : RatchetSession.Starts C sharedSecret side start)
    (calls : List (Call SessionInput RatchetMessage)) :
    SpqrHolding C.toPrims sharedSecret side ((sessionMachine C).exec (start, []) calls).1.spqr
      (spqrLog ((sessionMachine C).exec (start, []) calls).2) := by
  refine (sessionMachine_inductive (spqrHolding_inductive C.toPrims sharedSecret side)).exec calls
    (start, []) ?_
  cases hstart with
  | alice rng bobDhPublic => exact spqrHolding_init C.toPrims sharedSecret .alice
  | bob bobDhKeypair => exact spqrHolding_init C.toPrims sharedSecret .bob

end Sessions

end Hushwire
