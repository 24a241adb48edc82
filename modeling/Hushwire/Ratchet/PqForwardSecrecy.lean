import Hushwire.Ratchet.ForwardSecrecy
import Hushwire.Ratchet.SpqrStore

/-!
# Secrecy of the post-quantum ratchet

The keys of an SPQR state have fixed places: the root key of an epoch, and the chain and message
keys of its two chains by number.  `PqPosition` names the places and `PqPosition.key` is the key at
each, given the epoch secrets.  No two places have the same key (`PqPosition.key_inj`), so what a
state holds and what it has used can be told apart by place; `Chains` says where it stands.

* `pq_forward_secrecy`: whoever gets hold of everything a session holds, and of every key in the
  world that is not of this post-quantum ratchet, cannot compute the AEAD key of any message that
  was sent or received before.  All Diffie-Hellman outputs and all epoch secrets may be known.
-/

namespace Hushwire

open Duplex Secrecy

variable {Key : Type}

/-! ## The tree of keys -/

/-- The derivations of the post-quantum ratchet, from the shared secret on. -/
inductive Hash.PqParent (H : Hash Key) (p : Key) : Key → Prop
  | seed : PqParent H p (braidAuthSeed H p)
  | startRoot : PqParent H p (H.kdfSckaInit p).rootKey
  | startChain0 : PqParent H p (H.kdfSckaInit p).chainKey0
  | startChain1 : PqParent H p (H.kdfSckaInit p).chainKey1
  | addRoot (x : Key) : PqParent H p (H.kdfSckaRk p x).rootKey
  | addChain0 (x : Key) : PqParent H p (H.kdfSckaRk p x).chainKey0
  | addChain1 (x : Key) : PqParent H p (H.kdfSckaRk p x).chainKey1
  | chain (ctr : ℕ) : PqParent H p (H.kdfSckaCk p ctr).chainKey
  | message (ctr : ℕ) : PqParent H p (H.kdfSckaCk p ctr).messageKey

/-- A key of the post-quantum ratchet that starts from `start`. -/
def Hash.PqKey (H : Hash Key) (start k : Key) : Prop := Relation.ReflTransGen H.PqParent start k

lemma Hash.PqParent.needs {H : Hash Key} {bytes : Set Bytes} {p c : Key} (hH : H.Free)
    (h : H.PqParent p c) : Needs (H.Computes bytes) p c := by
  cases h with
  | seed | startRoot | startChain0 | startChain1 => exact hH.needs_ikm
  | addRoot | addChain0 | addChain1 | chain | message => exact hH.needs_salt

/-! ## Places -/

/-- A place in the key schedule.  The chains are named after the party that sends on them. -/
inductive PqPosition
  | root (e : ℕ)
  | chain (t : Side) (e n : ℕ)
  | message (t : Side) (e n : ℕ)

namespace PqPosition

/-- The epoch of a place. -/
def epoch : PqPosition → ℕ
  | root e => e
  | chain _ e _ => e
  | message _ e _ => e

/-- The place a key is derived from, if it is not the seed. -/
def parent : PqPosition → Option PqPosition
  | root 0 => none
  | root (e + 1) => some (root e)
  | chain _ 0 0 => none
  | chain _ (e + 1) 0 => some (root e)
  | chain t e (n + 1) => some (chain t e n)
  | message t e n => some (chain t e n)

/-- The KDF that derives it. -/
inductive Kdf
  | start
  | addEpoch
  | step
  deriving DecidableEq

def kdf : PqPosition → Kdf
  | root 0 => .start
  | root (_ + 1) => .addEpoch
  | chain _ 0 0 => .start
  | chain _ (_ + 1) 0 => .addEpoch
  | chain _ _ (_ + 1) => .step
  | message _ _ _ => .step

/-- The info string of the KDF. -/
def Kdf.info : Kdf → Bytes
  | .start => Hash.spqrProtocolInfo ++ ascii "Chain Start"
  | .addEpoch => Hash.spqrProtocolInfo ++ ascii "Chain Add Epoch"
  | .step => Hash.spqrProtocolInfo ++ ascii ":Chain Step"

lemma Kdf.info_injective : ∀ {f g : Kdf}, f.info = g.info → f = g := by
  intro f g h
  cases f <;> cases g <;> first | rfl | exact absurd h (by decide)

/-- The block of the KDF's output. -/
def block : PqPosition → ℕ
  | root _ => 0
  | chain .alice _ 0 => 1
  | chain .bob _ 0 => 2
  | chain _ _ (_ + 1) => 0
  | message _ _ _ => 1

/-- A place is given by what it is derived from, and how. -/
lemma eq_of_parent {p q : PqPosition} (hparent : p.parent = q.parent) (hkdf : p.kdf = q.kdf)
    (hblock : p.block = q.block) : p = q := by
  rcases p with (_ | e) | ⟨_ | _, _ | e, _ | n⟩ | ⟨t, e, n⟩ <;>
    rcases q with (_ | e') | ⟨_ | _, _ | e', _ | n'⟩ | ⟨t', e', n'⟩ <;>
    simp_all [parent, kdf, block]

/-- A measure that falls from a place to its parent. -/
def depth : PqPosition → ℕ
  | root e => e
  | chain _ e n => e + n + 1
  | message _ e n => e + n + 2

lemma depth_parent {p q : PqPosition} (h : p.parent = some q) : q.depth < p.depth := by
  rcases p with (_ | e) | ⟨t, _ | e, _ | n⟩ | ⟨t, e, n⟩ <;> simp [parent] at h <;> subst h <;>
    simp [depth]

lemma epoch_parent {p q : PqPosition} (h : p.parent = some q) : p.epoch = q.epoch ∨
    p.epoch = q.epoch + 1 ∧ (p = root p.epoch ∨ ∃ t, p = chain t p.epoch 0) := by
  rcases p with (_ | e) | ⟨t, _ | e, _ | n⟩ | ⟨t, e, n⟩ <;> simp [parent] at h <;> subst h <;>
    simp [epoch]

lemma epoch_parent_le {p q : PqPosition} (h : p.parent = some q) : q.epoch ≤ p.epoch := by
  rcases epoch_parent h with heq | ⟨heq, -⟩ <;> omega

lemma parent_eq_none {p : PqPosition} : p.parent = none ↔ p.kdf = .start := by
  rcases p with (_ | e) | ⟨t, _ | e, _ | n⟩ | ⟨t, e, n⟩ <;> simp [parent, kdf]

variable (H : Hash Key) (sk : Key) (secrets : List Key)

/-- The key at a place, when the braid has yielded these epoch secrets. -/
def key : PqPosition → Key
  | root e => (epochChains H sk (secrets.take e)).rootKey
  | chain t e n => KeyChain.chainKey (sckaStep H) (sendBase H sk secrets t e) n
  | message t e n => KeyChain.messageKey (sckaStep H) (sendBase H sk secrets t e) n

variable {H sk secrets} {p q : PqPosition}

/-- The chains of the next epoch come from the root key and the epoch's secret. -/
lemma epochChains_succ {e : ℕ} {x : Key} (hx : secrets[e]? = some x) :
    epochChains H sk (secrets.take (e + 1)) =
      H.kdfSckaRk (epochChains H sk (secrets.take e)).rootKey x := by
  rw [← epochChains_concat]
  congr 1
  obtain ⟨hlt, rfl⟩ := List.getElem?_eq_some_iff.mp hx
  exact List.take_succ_eq_append_getElem hlt

/-- **How a key is derived**: with the KDF and the block of its place, and its parent for a salt. -/
theorem key_eq (H : Hash Key) (sk : Key) (hp : p.epoch ≤ secrets.length) :
    ∃ ikm salt len, p.key H sk secrets = H.hkdf ikm (some salt) p.kdf.info len p.block ∧
      ∀ q, p.parent = some q → salt = q.key H sk secrets := by
  have hsecret : ∀ e, e + 1 ≤ secrets.length → ∃ x, secrets[e]? = some x :=
    fun e he => ⟨_, List.getElem?_eq_getElem he⟩
  rcases p with (_ | e) | ⟨t, e, _ | n⟩ | ⟨t, e, n⟩
  · exact ⟨_, _, _, rfl, by simp [parent]⟩
  · obtain ⟨x, hx⟩ := hsecret e hp
    refine ⟨.inl x, (root e).key H sk secrets, 96, ?_, ?_⟩
    · rw [key, epochChains_succ hx]
      rfl
    · rintro q ⟨⟩
      rfl
  · rcases e with _ | e
    · cases t
      · exact ⟨_, _, _, rfl, by simp [parent]⟩
      · exact ⟨_, _, _, rfl, by simp [parent]⟩
    · obtain ⟨x, hx⟩ := hsecret e hp
      refine ⟨.inl x, (root e).key H sk secrets, 96, ?_, ?_⟩
      · have hbase : (chain t (e + 1) 0).key H sk secrets = sendBase H sk secrets t (e + 1) := rfl
        rw [hbase, sendBase, chainBases, epochChains_succ hx]
        cases t <;> rfl
      · rintro q ⟨⟩
        rfl
  · refine ⟨.inr (beBytes 4 (n + 1)), (chain t e n).key H sk secrets, 64, ?_, ?_⟩
    · cases t <;> cases e <;> rfl
    · intro q hq
      simp only [parent, Option.some.injEq] at hq
      rw [hq]
  · refine ⟨_, _, _, rfl, ?_⟩
    rintro q ⟨⟩
    rfl

/-- **No two places have the same key.** -/
theorem key_inj (hH : H.Free) : ∀ {p q : PqPosition}, p.epoch ≤ secrets.length →
    q.epoch ≤ secrets.length → p.key H sk secrets = q.key H sk secrets → p = q := by
  intro p q hp hq h
  obtain ⟨ikm, salt, len, hpkey, hpsalt⟩ := key_eq H sk hp
  obtain ⟨ikm', salt', len', hqkey, hqsalt⟩ := key_eq H sk hq
  rw [hpkey, hqkey] at h
  obtain ⟨-, hsalt, hinfo, hblock⟩ := hH.hkdf_injective _ _ _ _ _ _ _ _ _ _ h
  have hkdf := Kdf.info_injective hinfo
  refine eq_of_parent ?_ hkdf hblock
  cases hpp : p.parent with
  | none =>
      rw [parent_eq_none, hkdf, ← parent_eq_none] at hpp
      exact hpp.symm
  | some p' =>
      cases hqp : q.parent with
      | none =>
          rw [parent_eq_none, ← hkdf, ← parent_eq_none, hpp] at hqp
          cases hqp
      | some q' =>
          have hkeys : p'.key H sk secrets = q'.key H sk secrets := by
            rw [← hpsalt p' hpp, ← hqsalt q' hqp]
            exact hsalt
          exact congrArg some (key_inj hH ((epoch_parent_le hpp).trans hp)
            ((epoch_parent_le hqp).trans hq) hkeys)
termination_by p => p.depth
decreasing_by exact depth_parent hpp

/-- The key of a place hangs below that of its parent, or below the seed. -/
lemma pqParent_key (H : Hash Key) (sk : Key) (hp : p.epoch ≤ secrets.length) :
    H.PqParent ((p.parent.map (key H sk secrets)).getD sk) (p.key H sk secrets) := by
  have hsecret : ∀ e, e + 1 ≤ secrets.length → ∃ x, secrets[e]? = some x :=
    fun e he => ⟨_, List.getElem?_eq_getElem he⟩
  rcases p with (_ | e) | ⟨t, e, _ | n⟩ | ⟨t, e, n⟩
  · exact .startRoot
  · obtain ⟨x, hx⟩ := hsecret e hp
    rw [key, epochChains_succ hx]
    exact .addRoot x
  · rcases e with _ | e
    · cases t
      · exact .startChain0
      · exact .startChain1
    · obtain ⟨x, hx⟩ := hsecret e hp
      rw [key, KeyChain.chainKey, sendBase, chainBases, epochChains_succ hx]
      cases t
      · exact .addChain0 x
      · exact .addChain1 x
  · rw [show (chain t e (n + 1)).parent = some (chain t e n) by cases e <;> rfl]
    exact .chain (n + 1)
  · exact .message (n + 1)

lemma pqKey_key : ∀ {p : PqPosition}, p.epoch ≤ secrets.length →
    H.PqKey sk (p.key H sk secrets) := by
  intro p hp
  have hparent := pqParent_key H sk hp
  cases hpp : p.parent with
  | none =>
      rw [hpp] at hparent
      exact .single hparent
  | some q =>
      rw [hpp] at hparent
      exact .tail (pqKey_key ((epoch_parent_le hpp).trans hp)) hparent
termination_by p => p.depth
decreasing_by exact depth_parent hpp

lemma pqShaped_key (p : PqPosition) : H.PqShaped (p.key H sk secrets) := by
  cases p with
  | root e => exact (epochChains_pqShaped H sk _).1
  | chain t e n => exact sckaChain_at_pqShaped (chainBases_pqShaped H sk secrets t e).1 n
  | message t e n => exact ⟨_, _, _, _, _, rfl, by simp, .inl (List.prefix_append _ _)⟩

end PqPosition

/-! ## What a state has used -/

/-- The chain on which `t` sends, as the party `s` holds it. -/
def SpqrState.chainOf (st : SpqrState Key) (s t : Side) (e : ℕ) : Option (SckaChain Key) :=
  if t = s then st.sendChain e else st.recvChain e

/-- The places that the state of `s` has left behind: chains are past them, or have been dropped,
and a message key is not stored any more. -/
def SpqrState.Past (st : SpqrState Key) (s : Side) : PqPosition → Prop
  | .root e => e < st.epoch
  | .chain t e n => e ≤ st.epoch ∧ ∀ c, st.chainOf s t e = some c → n < c.n
  | .message t e n => e ≤ st.epoch ∧ (∀ c, st.chainOf s t e = some c → n < c.n) ∧
      (t ≠ s → st.skippedKey e (n + 1) = none)

section Past

variable {H : Hash Key} {sk : Key} {s : Side} {secrets : List Key} {low : ℕ}
  {accepted : List (ℕ × ℕ)} {sent : List ((ℕ × ℕ) × Key)} {st : SpqrState Key} {p q : PqPosition}

lemma SpqrState.Past.epoch_le (h : st.Past s p) : p.epoch ≤ st.epoch := by
  cases p with
  | root e => exact le_of_lt h
  | chain t e n => exact h.1
  | message t e n => exact h.1

/-- What comes before a place that was left behind was left behind. -/
lemma SpqrState.Past.parent (h : st.Past s p) (hpp : p.parent = some q) : st.Past s q := by
  rcases p with (_ | e) | ⟨t, _ | e, _ | n⟩ | ⟨t, e, n⟩ <;>
    simp only [PqPosition.parent, Option.some.injEq, reduceCtorEq] at hpp <;> subst hpp
  · exact Nat.lt_of_succ_lt h
  · exact ⟨h.1, fun c hc => Nat.lt_of_succ_lt (h.2 c hc)⟩
  · exact h.1
  · exact ⟨h.1, fun c hc => Nat.lt_of_succ_lt (h.2 c hc)⟩
  · exact ⟨h.1, h.2.1⟩

lemma recvBase_eq (H : Hash Key) (sk : Key) (secrets : List Key) (s : Side) (e : ℕ) :
    recvBase H sk secrets s e = sendBase H sk secrets s.other e := by
  rw [← recvBase_other, Side.other_other]

/-- **What a state holds is at places it has not left behind.** -/
theorem Chains.exists_place (h : Chains H sk s secrets low accepted sent st) {k : Key}
    (hk : st.Holds k) (hauth : ∀ auth, st.braid.state.auth? = some auth →
      k ≠ auth.rootKey ∧ k ≠ auth.macKey) :
    ∃ p : PqPosition, p.epoch ≤ secrets.length ∧ k = p.key H sk secrets ∧ ¬ st.Past s p := by
  have hepoch := h.epochs.epoch_eq
  have hle : ∀ e ∈ st.kdfchains, e ≤ secrets.length :=
    fun e he => hepoch ▸ ((h.epochs.retained e).mp he).1
  cases hk with
  | root =>
      refine ⟨.root secrets.length, le_rfl, ?_, ?_⟩
      · rw [PqPosition.key, List.take_length, h.epochs.rk_eq]
      · rw [SpqrState.Past, hepoch]
        exact lt_irrefl _
  | @sending e c hc =>
      obtain ⟨j, rfl⟩ := h.sending.chain_at e c hc
      obtain ⟨cs, hcs, -⟩ := Option.bind_eq_some_iff.mp hc
      refine ⟨.chain s e j, hle e (Finmap.mem_iff.mpr ⟨cs, hcs⟩), rfl, ?_⟩
      rintro ⟨-, hpast⟩
      exact lt_irrefl j (hpast _ (by rw [SpqrState.chainOf, if_pos rfl, hc]))
  | @receiving e c hc =>
      obtain ⟨j, rfl⟩ := h.receiving.recvChain_at hc
      refine ⟨.chain s.other e j, hle e (mem_of_recvChain hc), ?_, ?_⟩
      · rw [recvBase_eq]
        rfl
      · rintro ⟨-, hpast⟩
        exact lt_irrefl j (hpast _ (by rw [SpqrState.chainOf, if_neg (Side.other_ne s), hc]))
  | @skipped e n k hkey =>
      obtain ⟨hn, c, hc, -⟩ := h.receiving.skipped_le e n k hkey
      refine ⟨.message s.other e (n - 1), hle e (mem_of_recvChain hc), ?_, ?_⟩
      · rw [h.receiving.skipped_key e n k hkey, recvBase_eq]
        rfl
      · rintro ⟨-, -, hpast⟩
        have hnone := hpast (Side.other_ne s)
        rw [Nat.sub_add_cancel hn, hkey] at hnone
        cases hnone
  | authRoot ha => exact absurd rfl (hauth _ ha).1
  | authMac ha => exact absurd rfl (hauth _ ha).2

/-- The key of a message that was sent is at a place left behind. -/
lemma Chains.past_of_sent (h : Chains H sk s secrets low accepted sent st) {e n : ℕ} {k : Key}
    (hmem : ((e, n), k) ∈ sent) : ∃ p : PqPosition, st.Past s p ∧ k = p.key H sk secrets := by
  obtain ⟨hn, rfl⟩ := h.sending.key_eq e n k hmem
  obtain ⟨hlow, hle⟩ := h.sending.le e n _ hmem
  refine ⟨.message s e (n - 1), ⟨hlow.trans h.sending.low_le, ?_, fun hne => absurd rfl hne⟩, rfl⟩
  intro c hc
  rw [SpqrState.chainOf, if_pos rfl] at hc
  have := hle c hc
  omega

/-- So is the key of a message that was accepted. -/
lemma Chains.past_of_accepted (h : Chains H sk s secrets low accepted sent st) {e n : ℕ}
    (hmem : (e, n) ∈ accepted) (hn : 1 ≤ n) : ∃ p : PqPosition, st.Past s p ∧
      sckaKey H (recvBase H sk secrets s e) n = p.key H sk secrets := by
  obtain ⟨he, hnone, hle⟩ := h.receiving.spent e n hmem
  refine ⟨.message s.other e (n - 1), ⟨he, ?_, ?_⟩, ?_⟩
  · intro c hc
    rw [SpqrState.chainOf, if_neg (Side.other_ne s)] at hc
    have := hle c hc
    omega
  · rw [Nat.sub_add_cancel hn]
    exact fun _ => hnone
  · rw [recvBase_eq]
    rfl

end Past

/-! ## The keys left behind are guarded -/

/-- The keys at the places left behind, with the two keys they all come from. -/
def spentKeys (H : Hash Key) (sharedSecret : Key) (s : Side) (secrets : List Key)
    (st : SpqrState Key) : Set Key :=
  {k | k = sharedSecret ∨ k = braidAuthSeed H sharedSecret ∨
    ∃ p, st.Past s p ∧ k = p.key H (braidAuthSeed H sharedSecret) secrets}

/-- A key of the post-quantum ratchet that starts from `sharedSecret`, or what a message makes of
it. -/
def Hash.OfPqRatchet (H : Hash Key) (sharedSecret k : Key) : Prop :=
  ∃ pq, H.PqKey sharedSecret pq ∧
    (k = pq ∨ ∃ ecMk, k = H.kdfHybrid ecMk pq ∨ k = H.aeadKey ecMk pq)

/-- What messages make of PQ keys. -/
def messageKeys (H : Hash Key) (pqKeys : Set Key) : Set Key :=
  {k | ∃ pq ∈ pqKeys, ∃ ecMk, k = H.kdfHybrid ecMk pq ∨ k = H.aeadKey ecMk pq}

section Spent

variable {H : Hash Key} {bytes : Set Bytes} {sharedSecret k : Key} {s : Side}
  {secrets : List Key} {st : SpqrState Key}

lemma guarded_messageKeys (hH : H.Free) {pqKeys : Set Key}
    (h : Guarded (H.Computes bytes) pqKeys) :
    Guarded (H.Computes bytes) (pqKeys ∪ messageKeys H pqKeys) := by
  refine h.union ?_
  rintro k ⟨pq, hpq, ecMk, rfl | rfl⟩
  · exact ⟨pq, .inl hpq, hH.needs_salt⟩
  · exact ⟨H.kdfHybrid ecMk pq, .inr ⟨pq, hpq, ecMk, .inl rfl⟩, hH.needs_ikm⟩

lemma guarded_spentKeys (hH : H.Free) (hss : ∀ inputs, ¬ H.Computes bytes inputs sharedSecret)
    (hepoch : st.epoch = secrets.length) :
    Guarded (H.Computes bytes) (spentKeys H sharedSecret s secrets st) := by
  refine guarded_of_needs ?_
  rintro k (rfl | rfl | ⟨p, hp, rfl⟩)
  · exact .inl hss
  · exact .inr ⟨sharedSecret, .inl rfl, hH.needs_ikm⟩
  · have hle : p.epoch ≤ secrets.length := hepoch ▸ hp.epoch_le
    have hparent := PqPosition.pqParent_key H (braidAuthSeed H sharedSecret) hle
    refine .inr ⟨_, ?_, hparent.needs hH⟩
    cases hpp : p.parent with
    | none => exact .inr (.inl rfl)
    | some q => exact .inr (.inr ⟨q, hp.parent hpp, rfl⟩)

lemma pqKey_of_spent (hepoch : st.epoch = secrets.length)
    (hk : k ∈ spentKeys H sharedSecret s secrets st) : H.PqKey sharedSecret k := by
  rcases hk with rfl | rfl | ⟨p, hp, rfl⟩
  · exact .refl
  · exact .single .seed
  · exact .head .seed (PqPosition.pqKey_key (hepoch ▸ hp.epoch_le))

lemma ofPqRatchet_of_spent (hepoch : st.epoch = secrets.length)
    (hk : k ∈ spentKeys H sharedSecret s secrets st ∪
      messageKeys H (spentKeys H sharedSecret s secrets st)) : H.OfPqRatchet sharedSecret k := by
  rcases hk with hk | ⟨pq, hpq, ecMk, hk⟩
  · exact ⟨k, pqKey_of_spent hepoch hk, .inl rfl⟩
  · exact ⟨pq, pqKey_of_spent hepoch hpq, .inr ⟨ecMk, hk⟩⟩

lemma Hash.PqShaped.ne_of_info (hH : H.Free) (hpq : H.PqShaped k) {ikm : Key ⊕ Bytes}
    {salt : Option Key} {info : Bytes} {len i : ℕ}
    (hinfo : ¬ (Hash.spqrProtocolInfo <+: info ∨ Auth.protocolInfo <+: info)) :
    k ≠ H.hkdf ikm salt info len i := by
  obtain ⟨ikm', salt', info', len', i', rfl, -, hinfo'⟩ := hpq
  exact hH.hkdf_ne (fun heq => hinfo (heq ▸ hinfo'))

lemma Hash.PqShaped.notMem_messageKeys (hH : H.Free) (hpq : H.PqShaped k) (pqKeys : Set Key) :
    k ∉ messageKeys H pqKeys := by
  rintro ⟨pq, -, ecMk, rfl | rfl⟩
  · exact hpq.ne_of_info hH (by decide) rfl
  · exact hpq.ne_of_info hH (by decide) rfl

/-- A key of the authenticator is at no place of the schedule. -/
lemma update_ne_key (hH : H.Free) (auth : Authenticator Key) (epoch : ℕ) (key : Key) {sk : Key}
    {p : PqPosition} (hp : p.epoch ≤ secrets.length) :
    p.key H sk secrets ≠ (auth.update H epoch key).rootKey ∧
      p.key H sk secrets ≠ (auth.update H epoch key).macKey := by
  obtain ⟨ikm, salt, len, hkey, -⟩ := PqPosition.key_eq H sk hp
  have hinfo : p.kdf.info ≠ Auth.protocolInfo ++ ascii ":Authenticator Update" ++
      Auth.epochBytes epoch := by
    intro heq
    have htake := congrArg (List.take 12) heq
    have hlabel : (Auth.protocolInfo ++ ascii ":Authenticator Update" ++
        Auth.epochBytes epoch).take 12 = Auth.protocolInfo.take 12 := by
      rw [List.append_assoc, List.take_append_of_le_length (by decide)]
    rw [hlabel] at htake
    generalize p.kdf = f at htake
    cases f <;> exact absurd htake (by decide)
  rw [hkey]
  exact ⟨hH.hkdf_ne hinfo, hH.hkdf_ne hinfo⟩

/-- **What a state holds is not among the keys left behind.** -/
theorem SpqrHolding.notMem_spentKeys {P : Prims Key} {log : List (SpqrEvent Key)} (hH : P.hash.Free)
    (hbytes : ∀ n, beBytes 4 n ∈ bytes)
    (hss : ∀ inputs, ¬ P.hash.Computes bytes inputs sharedSecret)
    (h : SpqrHolding P sharedSecret s st log) (hk : st.Holds k) :
    k ∉ spentKeys P.hash sharedSecret s (secretsIn (braidLog log)) st := by
  have hshape := h.pqShaped hk
  have hepoch := h.1.chains.epochs.epoch_eq
  rintro (rfl | rfl | ⟨p, hp, rfl⟩)
  · obtain ⟨ikm, salt, info, len, i, rfl, hikm, -⟩ := hshape
    refine hss _ (.hkdf ikm salt info len i fun b hb => ?_)
    obtain ⟨n, rfl⟩ := hikm b hb
    exact hbytes n
  · exact hshape.ne_of_info hH (by decide) rfl
  · have hle := hepoch ▸ hp.epoch_le
    obtain ⟨q, hq, heq, hnot⟩ := h.1.chains.exists_place hk (fun auth ha => by
      obtain ⟨old, epoch, key, rfl⟩ := h.2 auth ha
      exact update_ne_key hH old epoch key hle)
    exact hnot (PqPosition.key_inj hH hle hq heq ▸ hp)

end Spent

/-! ## Runs -/

/-- Every key handed out on receipt is the key of its number. -/
def ReceivedExact (H : Hash Key) (sk : Key) (s : Side) (log : List (SpqrEvent Key)) : Prop :=
  ∀ m n key, .received m n key ∈ log → 1 ≤ n ∧
    key = sckaKey H (recvBase H sk (secretsIn (braidLog log)) s (m.epoch - 1)) n

/-- The PQ key of a message that a session sent, or took for a message it was handed. -/
def SessionEvent.pqKey? : SessionEvent Key → Option Key
  | .sealed _ _ pqMk _ _ => some pqMk
  | .spqr (.received _ _ key) => some key
  | _ => none

/-- The PQ keys a session has used. -/
def pqKeysUsed (log : List (SessionEvent Key)) : List Key := log.filterMap SessionEvent.pqKey?

section Exact

variable {P : Prims Key} {sharedSecret : Key} {side : Side} {st : SpqrState Key}
  {log : List (SpqrEvent Key)}

lemma mem_acceptedPairs {m : Message} {n : ℕ} {key : Key} (h : .received m n key ∈ log) :
    (m.epoch - 1, n) ∈ acceptedPairs log :=
  List.mem_filterMap.mpr ⟨_, h, rfl⟩

/-- Later epochs do not change the keys of earlier ones. -/
lemma ReceivedExact.append (h : ReceivedExact P.hash (braidAuthSeed P.hash sharedSecret) side log)
    (hlocal : SpqrLocal P sharedSecret side st log) (evs : List (SpqrEvent Key))
    {m : Message} {n : ℕ} {key : Key} (hmem : .received m n key ∈ log) : 1 ≤ n ∧
      key = sckaKey P.hash (recvBase P.hash (braidAuthSeed P.hash sharedSecret)
        (secretsIn (braidLog (log ++ evs))) side (m.epoch - 1)) n := by
  obtain ⟨hn, rfl⟩ := h m n key hmem
  have hle : m.epoch - 1 ≤ (secretsIn (braidLog log)).length := by
    rw [← hlocal.chains.epochs.epoch_eq]
    exact (hlocal.chains.receiving.spent _ n (mem_acceptedPairs hmem)).1
  have hsecrets : secretsIn (braidLog (log ++ evs)) =
      secretsIn (braidLog log) ++ secretsIn (braidLog evs) := by
    rw [braidLog_append, secretsIn, List.filterMap_append, List.map_append]
    rfl
  rw [hsecrets, recvBase, recvBase, chainBases_append hle]
  exact ⟨hn, rfl⟩

lemma receivedExact_inductive (P : Prims Key) (sharedSecret : Key) (side : Side) :
    (spqrMachine P).Inductive (fun st log => SpqrHolding P sharedSecret side st log ∧
      ReceivedExact P.hash (braidAuthSeed P.hash sharedSecret) side log) where
  send st log rng h := by
    refine ⟨(spqrHolding_inductive P sharedSecret side).send st log rng h.1, ?_⟩
    intro m n key hmem
    rcases List.mem_append.mp hmem with hmem | hmem
    · exact h.2.append h.1.1 _ hmem
    · have hnone := mem_acceptedPairs hmem
      rw [acceptedPairs_send] at hnone
      cases hnone
  recv st log m rng h := by
    refine ⟨(spqrHolding_inductive P sharedSecret side).recv st log m rng h.1, ?_⟩
    intro m' n' key hmem
    rcases List.mem_append.mp hmem with hmem | hmem
    · exact h.2.append h.1.1 _ hmem
    · -- the one key that is new
      obtain ⟨rfl, rfl, st', hok⟩ : m' = m.1 ∧ n' = m.2 ∧
          ∃ st', st.ratchetReceiveKey P m.1 m.2 = (.ok key, st') := by
        simp only [spqrMachine] at hmem
        rcases hrecv : st.ratchetReceiveKey P m.1 m.2 with ⟨e | key', st'⟩
        · rw [hrecv] at hmem
          simp at hmem
        · rw [hrecv] at hmem
          simp at hmem
          obtain ⟨rfl, rfl, rfl⟩ := hmem
          exact ⟨rfl, rfl, st', rfl⟩
      cases hr : st.braid.state.receive P m.1 with
      | error e =>
          have hrecv : st.braid.receive P m.1 = (.error e, st.braid) :=
            BraidState.receive_of_error hr
          simp only [SpqrState.ratchetReceiveKey, hrecv] at hok
          cases hok
      | ok out =>
          obtain ⟨b', o⟩ := out
          obtain ⟨st₁, heq, -, -, h₁⟩ := h.1.1.ratchetReceiveKey_eq hr
          rw [heq] at hok
          have hsecrets := h.1.1.secretsIn_recv hr m.2 rng
          rw [Prod.mk.eta] at hsecrets
          rw [hsecrets]
          exact h₁.deriveKey_exact hok

end Exact

/-- What the observations of a session say about its PQ keys: that of a message it sealed was taken
from the SPQR state, and none was taken on receipt before the EC ratchet had handed one out. -/
structure PqRecords (log : List (SessionEvent Key)) : Prop where
  sealed : ∀ header ecMk pqMk plaintext message, .sealed header ecMk pqMk plaintext message ∈ log →
    .sent header.braidMsg header.pqMessageNumber pqMk ∈ spqrLog log
  received : ∀ m n key, .received m n key ∈ spqrLog log → ecKeysUsed log ≠ []

section Records

variable {C : Suite Key} {sharedSecret : Key}

lemma PqRecords.append {log evs : List (SessionEvent Key)} (h : PqRecords log)
    (h' : PqRecords evs) :
    PqRecords (log ++ evs) where
  sealed header ecMk pqMk plaintext message hmem := by
    rw [spqrLog_append]
    rcases List.mem_append.mp hmem with hmem | hmem
    · exact List.mem_append_left _ (h.sealed _ _ _ _ _ hmem)
    · exact List.mem_append_right _ (h'.sealed _ _ _ _ _ hmem)
  received m n key hmem := by
    rw [spqrLog_append] at hmem
    rw [ecKeysUsed_append]
    rcases List.mem_append.mp hmem with hmem | hmem
    · exact List.append_ne_nil_of_left_ne_nil (h.received m n key hmem) _
    · exact List.append_ne_nil_of_right_ne_nil _ (h'.received m n key hmem)

lemma pqRecords_nil : PqRecords ([] : List (SessionEvent Key)) where
  sealed _ _ _ _ _ hmem := by cases hmem
  received _ _ _ hmem := by cases hmem

variable [DecidableEq Key]

/-- What a send reports. -/
lemma pqRecords_send (s : RatchetSession Key) (input : SessionInput) :
    PqRecords ((sessionMachine C).send s input).2.2 := by
  cases hpending : s.pendingPrekey with
  | some initial =>
      rw [sessionMachine_send_pending input (by rw [hpending]; rfl)]
      exact pqRecords_nil
  | none =>
      obtain ⟨om, own, hcall, hown⟩ := sessionMachine_send (C := C) input hpending
      have hspqr := spqrLog_send (C := C) input hpending
      rw [hcall] at hspqr ⊢
      constructor
      · intro header ecMk pqMk plaintext message hmem
        rw [hspqr]
        rcases hown with ⟨-, rfl⟩ | ⟨header', ecMk', pqMk', ciphertext, hkeys, -, -, rfl⟩
        · simp at hmem
        · obtain ⟨rfl, rfl, rfl⟩ : header = header' ∧ ecMk = ecMk' ∧ pqMk = pqMk' := by
            simp at hmem
            exact ⟨hmem.1, hmem.2.1, hmem.2.2.1⟩
          obtain ⟨r, spqr, hsend, ⟨⟨e, herr⟩, -⟩ | ⟨m, n, pq, chain, rfl, -, hok⟩⟩ :=
            RatchetSession.sendKeys_eq C input.rng s
          · rw [herr] at hkeys
            cases hkeys
          · rw [hok] at hkeys
            obtain ⟨hheader, hparts⟩ := Prod.mk.inj (Except.ok.inj hkeys)
            obtain ⟨-, rfl⟩ := Prod.mk.inj hparts
            subst hheader
            simp [spqrMachine, hsend]
      · intro m n key hmem
        rw [hspqr] at hmem
        have hnone := mem_acceptedPairs hmem
        rw [acceptedPairs_send] at hnone
        cases hnone

/-- What a receive reports. -/
lemma pqRecords_recv (s : RatchetSession Key) (message : RatchetMessage) (input : SessionInput) :
    PqRecords ((sessionMachine C).recv s message input).2 := by
  have hratchet : ∀ header remote own, PqRecords (ratchetEvents C header s remote own) := by
    intro header remote own
    unfold ratchetEvents
    split
    · exact pqRecords_nil
    · exact ⟨by simp, by intro m n key hmem; cases hmem⟩
  rcases sessionMachine_recv (C := C) (s := s) message input with ⟨-, hcall⟩ | ⟨header, -,
    ⟨e, s', -, hcall⟩ | ⟨ecMk, s₁, own, -, hcall, hown⟩⟩
  · rw [hcall]
    exact pqRecords_nil
  · rw [hcall]
    exact hratchet _ _ _
  · rw [hcall]
    refine (hratchet _ _ _).append ⟨?_, fun _ _ _ _ => List.cons_ne_nil ecMk _⟩
    intro header' ecMk' pqMk plaintext message' hmem
    rcases hown with rfl | ⟨_, _, _, -, rfl⟩ <;> simp at hmem

lemma pqRecords_inductive : (sessionMachine C).Inductive (fun _ log => PqRecords log) where
  send s _ input h := h.append (pqRecords_send s input)
  recv s _ message input h := h.append (pqRecords_recv s message input)

/-- The post-quantum half of a session after any calls, with the keys it has handed out. -/
theorem RatchetSession.Starts.receivedExact {side : Side} {start : RatchetSession Key}
    (hstart : RatchetSession.Starts C sharedSecret side start)
    (calls : List (Call SessionInput RatchetMessage)) :
    ReceivedExact C.hash (braidAuthSeed C.hash sharedSecret) side
      (spqrLog ((sessionMachine C).exec (start, []) calls).2) := by
  have h := (sessionMachine_inductive (receivedExact_inductive C.toPrims sharedSecret side)).exec
    calls (start, []) ⟨hstart.spqrHolding [], ?_⟩
  · exact h.2
  · intro m n key hmem
    cases hmem

/-- Every PQ key a session has used is at a place that the session has left behind. -/
lemma RatchetSession.Starts.past_of_used {side : Side} {start : RatchetSession Key}
    (hstart : RatchetSession.Starts C sharedSecret side start)
    (calls : List (Call SessionInput RatchetMessage)) {pqMk : Key}
    (hmem : pqMk ∈ pqKeysUsed ((sessionMachine C).exec (start, []) calls).2) :
    (∃ p, ((sessionMachine C).exec (start, []) calls).1.spqr.Past side p ∧
      pqMk = p.key C.hash (braidAuthSeed C.hash sharedSecret)
        (secretsIn (braidLog (spqrLog ((sessionMachine C).exec (start, []) calls).2)))) ∧
      ecKeysUsed ((sessionMachine C).exec (start, []) calls).2 ≠ [] := by
  have hchains := (hstart.spqrHolding calls).1.chains
  have hrecords : PqRecords ((sessionMachine C).exec (start, []) calls).2 :=
    pqRecords_inductive.exec calls (start, []) pqRecords_nil
  have hexact := hstart.receivedExact calls
  generalize (sessionMachine C).exec (start, []) calls = out at *
  obtain ⟨e, he, hkey⟩ := List.mem_filterMap.mp hmem
  cases e with
  | «sealed» header ecMk pqMk' plaintext message =>
      obtain rfl := Option.some.inj hkey
      have hsent := hrecords.sealed _ _ _ _ _ he
      refine ⟨hchains.past_of_sent (List.mem_filterMap.mpr ⟨_, hsent, rfl⟩), ?_⟩
      exact List.ne_nil_of_mem (List.mem_filterMap.mpr ⟨_, he, rfl⟩)
  | spqr ev =>
      cases ev with
      | received m n key =>
          obtain rfl := Option.some.inj hkey
          have hreceived : SpqrEvent.received m n key ∈ spqrLog out.2 :=
            List.mem_filterMap.mpr ⟨_, he, rfl⟩
          obtain ⟨hn, hkey'⟩ := hexact m n key hreceived
          obtain ⟨p, hp, hpkey⟩ := hchains.past_of_accepted (mem_acceptedPairs hreceived) hn
          exact ⟨⟨p, hp, hkey'.trans hpkey⟩, hrecords.received m n key hreceived⟩
      | _ => cases hkey
  | _ => cases hkey

end Records

/-! ## Forward secrecy -/

section Secrecy

variable [DecidableEq Key] {C : Suite Key} {sharedSecret : Key}

/-- **Forward secrecy of the post-quantum ratchet.**  Take a session of either role after any calls,
on messages of anyone's making, and give a thief all keys the session then holds, in both halves,
and every key of the world that is not of this post-quantum ratchet: all Diffie-Hellman outputs, all
epoch secrets of the braid, the whole EC ratchet but the shared secret.  The AEAD key of a message
whose PQ key the session has used before cannot be computed from that, whatever its EC key is. -/
theorem pq_forward_secrecy (hH : C.hash.Free) {bytes : Set Bytes}
    (hbytes : ∀ n, beBytes 4 n ∈ bytes)
    (hss : ∀ inputs, ¬ C.hash.Computes bytes inputs sharedSecret) {side : Side}
    {start : RatchetSession Key} (hstart : RatchetSession.Starts C sharedSecret side start)
    (calls : List (Call SessionInput RatchetMessage)) {world : Set Key}
    (hworld : ∀ k ∈ world, ¬ C.hash.OfPqRatchet sharedSecret k) :
    ∀ pqMk ∈ pqKeysUsed ((sessionMachine C).exec (start, []) calls).2, ∀ ecMk,
      ¬ Derives (C.hash.Computes bytes)
        (((sessionMachine C).exec (start, []) calls).1.secrets ∪ world)
        (C.hash.aeadKey ecMk pqMk) := by
  intro pqMk hused ecMk
  have hT := ecTree hH (fun p hp => (hp.computes bytes).elim hss)
  obtain ⟨⟨p, hp, rfl⟩, hec⟩ := hstart.past_of_used calls hused
  obtain ⟨erased, hfrontier, husedErased, -⟩ := hstart.ecBooks hH hT calls
  have hholding := hstart.spqrHolding calls
  have hepoch := hholding.1.chains.epochs.epoch_eq
  generalize (sessionMachine C).exec (start, []) calls = out at *
  have hguarded := guarded_messageKeys hH (guarded_spentKeys (s := side) hH hss hepoch)
  refine hguarded.not_derives ?_ (.inr ⟨_, .inr (.inr ⟨p, hp, rfl⟩), ecMk, .inr rfl⟩)
  rintro k ((⟨slot, hslot⟩ | hpq) | hk) hmem
  · -- the EC half; it has left the shared secret behind with its first key
    have hkey : C.hash.EcKey sharedSecret k := hfrontier.descends k (.inl ⟨slot, hslot⟩)
    rcases hmem with (rfl | rfl | ⟨q, -, rfl⟩) | ⟨pq, -, ecMk', hk⟩
    · obtain ⟨k₀, hk₀⟩ := List.exists_mem_of_ne_nil _ hec
      exact hfrontier.notErased slot _ hslot (hfrontier.root_mem hT (husedErased k₀ hk₀))
    · exact hkey.ne_hkdf hH hss (by simp) (by decide) rfl
    · exact (PqPosition.pqShaped_key q).not_ofEcRatchet hH hss hbytes ⟨_, hkey, .inl rfl⟩
    · have hne := hkey.ne_message hH hss ecMk' pq
      exact hk.elim hne.1 hne.2
  · rcases hmem with hmem | hmem
    · exact hholding.notMem_spentKeys hH hbytes hss hpq hmem
    · exact (hholding.pqShaped hpq).notMem_messageKeys hH _ hmem
  · exact hworld k hk (ofPqRatchet_of_spent hepoch hmem)

/-- A thief who takes Alice's session after her first message, and knows its EC key. -/
theorem pq_forward_secrecy_first_message :
    ∃ pqMk ∈ pqKeysUsed ((sessionMachine freeSuite).exec (freeAlice, []) [.send idleInput]).2,
      ¬ Derives (freeSuite.hash.Computes Set.univ)
        (((sessionMachine freeSuite).exec (freeAlice, []) [.send idleInput]).1.secrets ∪ ∅)
        (freeSuite.hash.aeadKey 0 pqMk) := by
  obtain ⟨header, ecMk, pqMk, message, spqr, -, hlog⟩ := freeAlice_send idleInput
  have hmem : pqMk ∈ pqKeysUsed
      ((sessionMachine freeSuite).exec (freeAlice, []) [.send idleInput]).2 := by
    rw [hlog, pqKeysUsed, List.filterMap_append]
    exact List.mem_append_right _ (List.mem_singleton_self pqMk)
  refine ⟨pqMk, hmem, ?_⟩
  exact pq_forward_secrecy Ideal.freeHash_free (fun _ => Set.mem_univ _)
    (Ideal.freeHash_not_computes Nat.two_pos Set.univ) freeAlice_starts _ (by simp) pqMk hmem 0

end Secrecy

end Hushwire
