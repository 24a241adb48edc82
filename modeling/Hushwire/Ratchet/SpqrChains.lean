import Hushwire.Braid.Invariant
import Hushwire.Ratchet.Spqr

/-!
# The chains of one ratchet

Everything in a `SpqrState` but the braid, as a function of what has happened: the epoch secrets
incorporated so far, the pairs accepted so far and the keys handed out for sending.  `Chains` is
the invariant, in three parts.

* `Epochs`: an epoch is retained unless it lies exactly three behind an epoch this party
  encapsulated.
* `Receiving`: every number behind a receive chain is stored as skipped or has been accepted,
  and never both; a skipped key is the key of its number.
* `Sending`: messages are numbered upwards, epoch by epoch, each with the key of its number.

Each thing a method can do has its own lemma: deriving a receive key, incorporating an epoch
(with or without dropping one), dropping the previous send chain, taking the next send key.
-/

namespace Hushwire

open Duplex

variable {Key : Type}

/-! ## The key schedule -/

/-- The root and chain keys after incorporating the given epoch secrets. -/
def epochChains (H : Hash Key) (sk : Key) (secrets : List Key) : SckaChains Key :=
  secrets.foldl (fun chains secret => H.kdfSckaRk chains.rootKey secret) (H.kdfSckaInit sk)

lemma epochChains_concat (H : Hash Key) (sk : Key) (secrets : List Key) (x : Key) :
    epochChains H sk (secrets ++ [x]) = H.kdfSckaRk (epochChains H sk secrets).rootKey x := by
  simp [epochChains, List.foldl_append]

/-- Alice is the initiator. -/
def directionOf : Side → Direction
  | .alice => .a2b
  | .bob => .b2a

/-- The chain keys of an epoch, the send chain of `s` first. -/
def chainBases (H : Hash Key) (sk : Key) (secrets : List Key) (s : Side) (epoch : ℕ) : Key × Key :=
  SpqrState.assign (directionOf s) (epochChains H sk (secrets.take epoch)).chainKey0
    (epochChains H sk (secrets.take epoch)).chainKey1

def sendBase (H : Hash Key) (sk : Key) (secrets : List Key) (s : Side) (epoch : ℕ) : Key :=
  (chainBases H sk secrets s epoch).1

def recvBase (H : Hash Key) (sk : Key) (secrets : List Key) (s : Side) (epoch : ℕ) : Key :=
  (chainBases H sk secrets s epoch).2

section Schedule

variable {H : Hash Key} {sk : Key} {secrets : List Key} {s : Side} {epoch : ℕ}

/-- The chains of an epoch depend on the secrets up to that epoch only. -/
lemma chainBases_congr {secrets' : List Key} (h : secrets.take epoch = secrets'.take epoch) :
    chainBases H sk secrets s epoch = chainBases H sk secrets' s epoch := by
  rw [chainBases, chainBases, h]

lemma chainBases_append (h : epoch ≤ secrets.length) (more : List Key) :
    chainBases H sk (secrets ++ more) s epoch = chainBases H sk secrets s epoch :=
  chainBases_congr (List.take_append_of_le_length h)

/-- One party's send chain is the other's receive chain. -/
lemma recvBase_other : recvBase H sk secrets s.other epoch = sendBase H sk secrets s epoch := by
  cases s <;> rfl

end Schedule

/-! ## The invariant -/

section Invariant

variable {H : Hash Key} {sk : Key} {s : Side} {secrets : List Key} {low : ℕ}
  {accepted : List (ℕ × ℕ)} {sent : List ((ℕ × ℕ) × Key)} {st st' : SpqrState Key} {e n : ℕ}

/-- Which epochs there are: an epoch is retained unless it lies exactly three behind one that
this party has encapsulated. -/
structure Epochs (H : Hash Key) (sk : Key) (s : Side) (secrets : List Key) (st : SpqrState Key) :
    Prop where
  direction : st.direction = directionOf s
  epoch_eq : st.epoch = secrets.length
  rk_eq : st.rk = (epochChains H sk secrets).rootKey
  retained : ∀ e, e ∈ st.kdfchains ↔ e ≤ st.epoch ∧ ¬ (e + 3 ≤ st.epoch ∧ ownerOf (e + 3) ≠ s)

/-- The receive chains and the skipped keys: every number behind a chain is stored as skipped
or has been accepted, and never both. -/
structure Receiving (H : Hash Key) (sk : Key) (s : Side) (secrets : List Key)
    (accepted : List (ℕ × ℕ)) (st : SpqrState Key) : Prop where
  chain_at : ∀ e ∈ st.kdfchains, ∃ j, st.recvChain e = some (.at H (recvBase H sk secrets s e) j)
  skipped_mem : ∀ e ∈ st.mkskipped, e ∈ st.kdfchains
  skipped_key : ∀ e n k, st.skippedKey e n = some k → k = sckaKey H (recvBase H sk secrets s e) n
  skipped_le : ∀ e n k, st.skippedKey e n = some k → 1 ≤ n ∧ ∃ c, st.recvChain e = some c ∧ n ≤ c.n
  covered : ∀ e c n, st.recvChain e = some c → 1 ≤ n → n ≤ c.n →
    (st.skippedKey e n).isSome ∨ (e, n) ∈ accepted
  spent : ∀ e n, (e, n) ∈ accepted → e ≤ st.epoch ∧ st.skippedKey e n = none ∧
    ∀ c, st.recvChain e = some c → n ≤ c.n
  nodup : accepted.Nodup

/-- The send chains: those from epoch `low` on are there, and messages are numbered upwards,
epoch by epoch. -/
structure Sending (H : Hash Key) (sk : Key) (s : Side) (secrets : List Key) (low : ℕ)
    (sent : List ((ℕ × ℕ) × Key)) (st : SpqrState Key) : Prop where
  low_le : low ≤ st.epoch
  chain_at : ∀ e c, st.sendChain e = some c → ∃ j, c = .at H (sendBase H sk secrets s e) j
  live : ∀ e, low ≤ e → e ≤ st.epoch → ∃ c, st.sendChain e = some c
  key_eq : ∀ e n k, ((e, n), k) ∈ sent → 1 ≤ n ∧ k = sckaKey H (sendBase H sk secrets s e) n
  le : ∀ e n k, ((e, n), k) ∈ sent → e ≤ low ∧ ∀ c, st.sendChain e = some c → n ≤ c.n
  sorted : (sent.map Prod.fst).Pairwise (fun p q => p.1 < q.1 ∨ p.1 = q.1 ∧ p.2 < q.2)

/-- **The chains of one party.**  `secrets` have been incorporated, the pairs `accepted` have been
handed out on receipt, and `sent` lists the epoch, the number and the key of every message
sent. -/
structure Chains (H : Hash Key) (sk : Key) (s : Side) (secrets : List Key) (low : ℕ)
    (accepted : List (ℕ × ℕ)) (sent : List ((ℕ × ℕ) × Key)) (st : SpqrState Key) : Prop where
  epochs : Epochs H sk s secrets st
  receiving : Receiving H sk s secrets accepted st
  sending : Sending H sk s secrets low sent st

lemma mem_of_recvChain {c : SckaChain Key} (h : st.recvChain e = some c) : e ∈ st.kdfchains := by
  obtain ⟨cs, hcs, -⟩ := Option.bind_eq_some_iff.mp h
  exact Finmap.mem_iff.mpr ⟨cs, hcs⟩

/-! ### What a change leaves alone -/

lemma Epochs.frame (h : Epochs H sk s secrets st) (hcore : SpqrState.SameCore st st')
    (hmem : ∀ e, e ∈ st'.kdfchains ↔ e ∈ st.kdfchains) : Epochs H sk s secrets st' where
  direction := hcore.direction.trans h.direction
  epoch_eq := hcore.epoch.trans h.epoch_eq
  rk_eq := hcore.rk.trans h.rk_eq
  retained := by
    intro e
    rw [hmem, hcore.epoch]
    exact h.retained e

lemma Receiving.frame (h : Receiving H sk s secrets accepted st) (hepoch : st'.epoch = st.epoch)
    (hmem : ∀ e, e ∈ st'.kdfchains ↔ e ∈ st.kdfchains)
    (hrecv : ∀ e, st'.recvChain e = st.recvChain e) (hskipped : st'.mkskipped = st.mkskipped) :
    Receiving H sk s secrets accepted st' := by
  have hkey : ∀ e n, st'.skippedKey e n = st.skippedKey e n := fun e n => by
    rw [SpqrState.skippedKey, hskipped]; rfl
  refine ⟨?_, ?_, ?_, ?_, ?_, ?_, h.nodup⟩
  · simpa only [hmem, hrecv] using h.chain_at
  · simpa only [hmem, hskipped] using h.skipped_mem
  · simpa only [hkey] using h.skipped_key
  · simpa only [hkey, hrecv] using h.skipped_le
  · simpa only [hkey, hrecv] using h.covered
  · simpa only [hkey, hrecv, hepoch] using h.spent

lemma Sending.frame (h : Sending H sk s secrets low sent st) (hepoch : st'.epoch = st.epoch)
    (hsend : ∀ e, st'.sendChain e = st.sendChain e) : Sending H sk s secrets low sent st' := by
  refine ⟨hepoch ▸ h.low_le, ?_, ?_, h.key_eq, ?_, h.sorted⟩
  · simpa only [hsend] using h.chain_at
  · simpa only [hsend, hepoch] using h.live
  · simpa only [hsend] using h.le

/-- The invariant does not look at the braid. -/
lemma Chains.setBraid (h : Chains H sk s secrets low accepted sent st) (b : BraidState Key) :
    Chains H sk s secrets low accepted sent { st with braid := b } where
  epochs := ⟨h.epochs.direction, h.epochs.epoch_eq, h.epochs.rk_eq, h.epochs.retained⟩
  receiving := h.receiving.frame rfl (fun _ => Iff.rfl) (fun _ => rfl) rfl
  sending := h.sending.frame rfl (fun _ => rfl)

lemma Chains.mono (h : Chains H sk s secrets low accepted sent st) (low' : ℕ) (hle : low ≤ low')
    (hle' : low' ≤ st.epoch) : Chains H sk s secrets low' accepted sent st :=
  { h with sending := { h.sending with
      low_le := hle'
      live := fun e he => h.sending.live e (hle.trans he)
      le := fun e n k hmem =>
        ⟨(h.sending.le e n k hmem).1.trans hle, (h.sending.le e n k hmem).2⟩ } }

/-- Before the first call there is epoch 0 only, with two unused chains. -/
lemma chains_init (P : Prims Key) (sharedSecret : Key) (s : Side) :
    Chains P.hash (braidAuthSeed P.hash sharedSecret) s [] 0 [] []
      (SpqrState.init P sharedSecret (directionOf s)) := by
  have hmem : ∀ e, e ∈ (SpqrState.init P sharedSecret (directionOf s)).kdfchains ↔ e = 0 :=
    fun e => Finmap.mem_insert.trans (or_iff_left Finmap.notMem_empty)
  obtain ⟨hsend, hrecv⟩ : (SpqrState.init P sharedSecret (directionOf s)).sendChain 0 =
        some (.at P.hash (sendBase P.hash (braidAuthSeed P.hash sharedSecret) [] s 0) 0) ∧
      (SpqrState.init P sharedSecret (directionOf s)).recvChain 0 =
        some (.at P.hash (recvBase P.hash (braidAuthSeed P.hash sharedSecret) [] s 0) 0) :=
    SpqrState.init_chains P sharedSecret (directionOf s)
  have hnone : ∀ e n, (SpqrState.init P sharedSecret (directionOf s)).skippedKey e n = none :=
    fun e n => rfl
  refine ⟨⟨rfl, rfl, rfl, ?_⟩, ⟨?_, ?_, ?_, ?_, ?_, ?_, List.nodup_nil⟩,
    ⟨le_rfl, ?_, ?_, ?_, ?_, List.Pairwise.nil⟩⟩
  · intro e
    have hepoch : (SpqrState.init P sharedSecret (directionOf s)).epoch = 0 := rfl
    rw [hmem, hepoch]
    omega
  · intro e he
    obtain rfl := (hmem e).mp he
    exact ⟨0, hrecv⟩
  · intro e he
    exact absurd he Finmap.notMem_empty
  · intro e n k hk
    rw [hnone] at hk
    cases hk
  · intro e n k hk
    rw [hnone] at hk
    cases hk
  · intro e c n hc hn hle
    obtain rfl := (hmem e).mp (mem_of_recvChain hc)
    obtain rfl := Option.some.inj (hrecv.symm.trans hc)
    exact absurd (hn.trans hle) (by simp)
  · intro e n hacc
    cases hacc
  · intro e c hc
    obtain ⟨cs, hcs, -⟩ := Option.bind_eq_some_iff.mp hc
    obtain rfl := (hmem e).mp (Finmap.mem_iff.mpr ⟨cs, hcs⟩)
    exact ⟨0, (Option.some.inj (hsend.symm.trans hc)).symm⟩
  · intro e _ he
    obtain rfl := Nat.le_zero.mp he
    exact ⟨_, hsend⟩
  · intro e n k hmem
    cases hmem
  · intro e n k hmem
    cases hmem

/-! ### Receiving -/

/-- A receive chain is where its epoch's secrets put it. -/
lemma Receiving.recvChain_at (h : Receiving H sk s secrets accepted st) {c : SckaChain Key}
    (hc : st.recvChain e = some c) : ∃ j, c = .at H (recvBase H sk secrets s e) j := by
  obtain ⟨j, hj⟩ := h.chain_at e (mem_of_recvChain hc)
  exact ⟨j, Option.some.inj (hc.symm.trans hj)⟩

/-- Taking a skipped key: it goes from the store to the accepted pairs. -/
lemma Receiving.stored (h : Receiving H sk s secrets accepted st) {k : Key}
    (hk : st.skippedKey e n = some k) (hepoch : st'.epoch = st.epoch)
    (hle : ∀ e ∈ st.kdfchains, e ≤ st.epoch) (hchains : st'.kdfchains = st.kdfchains)
    (hmem : ∀ e' ∈ st'.mkskipped, e' ∈ st.mkskipped)
    (hskipped : ∀ e' n', st'.skippedKey e' n' =
      if e' = e ∧ n' = n then none else st.skippedKey e' n') :
    (e, n) ∉ accepted ∧ Receiving H sk s secrets (accepted ++ [(e, n)]) st' := by
  obtain ⟨-, c, hc, hpos⟩ := h.skipped_le e n k hk
  have hnew : (e, n) ∉ accepted := by
    intro hacc
    rw [(h.spent e n hacc).2.1] at hk
    cases hk
  have hrecv : ∀ e', st'.recvChain e' = st.recvChain e' := fun e' => by
    rw [SpqrState.recvChain, hchains]; rfl
  have hold : ∀ e' n' k', st'.skippedKey e' n' = some k' → st.skippedKey e' n' = some k' := by
    intro e' n' k' hk'
    rw [hskipped] at hk'
    split at hk'
    · cases hk'
    · exact hk'
  refine ⟨hnew, ?_, ?_, ?_, ?_, ?_, ?_, List.nodup_append_comm.mp (h.nodup.cons hnew)⟩
  · simpa only [hchains, hrecv] using h.chain_at
  · intro e' he'
    rw [hchains]
    exact h.skipped_mem e' (hmem e' he')
  · intro e' n' k' hk'
    exact h.skipped_key e' n' k' (hold e' n' k' hk')
  · intro e' n' k' hk'
    rw [hrecv]
    exact h.skipped_le e' n' k' (hold e' n' k' hk')
  · intro e' c' n' hc' hn' hle'
    rw [hrecv] at hc'
    rw [hskipped, List.mem_append]
    by_cases hthis : e' = e ∧ n' = n
    · obtain ⟨rfl, rfl⟩ := hthis
      exact .inr (.inr (List.mem_singleton_self _))
    · rw [if_neg hthis]
      rcases h.covered e' c' n' hc' hn' hle' with hstored | hacc
      · exact .inl hstored
      · exact .inr (.inl hacc)
  · intro e' n' hacc
    rw [hepoch, hskipped, hrecv]
    rcases List.mem_append.mp hacc with hacc | hacc
    · obtain ⟨hle', hnone', hpos'⟩ := h.spent e' n' hacc
      exact ⟨hle', by rw [hnone', ite_self], hpos'⟩
    · obtain ⟨rfl, rfl⟩ := Prod.mk.inj (List.mem_singleton.mp hacc)
      refine ⟨hle e' (mem_of_recvChain hc), if_pos ⟨rfl, rfl⟩, ?_⟩
      intro c' hc'
      rw [hc] at hc'
      exact Option.some.inj hc' ▸ hpos

/-- Moving a chain up to message `n`: the numbers in between go to the store, `n` itself to the
accepted pairs. -/
lemma Receiving.fresh (h : Receiving H sk s secrets accepted st) {j : ℕ}
    (hchain : st.recvChain e = some (.at H (recvBase H sk secrets s e) j)) (hlt : j < n)
    (hepoch : st'.epoch = st.epoch) (hle : ∀ e ∈ st.kdfchains, e ≤ st.epoch)
    (hkeys : ∀ e', e' ∈ st'.kdfchains ↔ e' ∈ st.kdfchains)
    (hrecv : ∀ e', st'.recvChain e' =
      if e' = e then some (.at H (recvBase H sk secrets s e) n) else st.recvChain e')
    (hmem : ∀ e' ∈ st'.mkskipped, e' ∈ st.mkskipped ∨ e' = e)
    (hskipped : ∀ e' n', st'.skippedKey e' n' = if e' = e ∧ j < n' ∧ n' < n
      then some (sckaKey H (recvBase H sk secrets s e) n') else st.skippedKey e' n') :
    (e, n) ∉ accepted ∧ Receiving H sk s secrets (accepted ++ [(e, n)]) st' := by
  have hmemE : e ∈ st.kdfchains := mem_of_recvChain hchain
  have hnew : (e, n) ∉ accepted := by
    intro hacc
    exact absurd ((h.spent e n hacc).2.2 _ hchain) (not_le.mpr hlt)
  -- what was behind the chain before still is, and nothing else of this epoch was known
  have hbehind : ∀ n' k', st.skippedKey e n' = some k' → n' ≤ j := by
    intro n' k' hk'
    obtain ⟨-, c, hc, hpos⟩ := h.skipped_le e n' k' hk'
    obtain rfl := Option.some.inj (hchain.symm.trans hc)
    exact hpos
  refine ⟨hnew, ?_, ?_, ?_, ?_, ?_, ?_, List.nodup_append_comm.mp (h.nodup.cons hnew)⟩
  · intro e' he'
    rw [hrecv]
    split
    · rename_i hee
      exact ⟨n, by rw [hee]⟩
    · exact h.chain_at e' ((hkeys e').mp he')
  · intro e' he'
    rw [hkeys]
    rcases hmem e' he' with he' | rfl
    · exact h.skipped_mem e' he'
    · exact hmemE
  · intro e' n' k' hk'
    rw [hskipped] at hk'
    split at hk'
    · rename_i hin
      rw [hin.1]
      exact (Option.some.inj hk').symm
    · exact h.skipped_key e' n' k' hk'
  · intro e' n' k' hk'
    rw [hskipped] at hk'
    rw [hrecv]
    split at hk'
    · rename_i hin
      rw [if_pos hin.1]
      exact ⟨by omega, _, rfl, hin.2.2.le⟩
    · obtain ⟨hn', c, hc, hpos⟩ := h.skipped_le e' n' k' hk'
      refine ⟨hn', ?_⟩
      split
      · rename_i hee
        subst hee
        exact ⟨_, rfl, (hbehind n' k' hk').trans hlt.le⟩
      · exact ⟨c, hc, hpos⟩
  · intro e' c' n' hc' hn' hle'
    rw [hrecv] at hc'
    rw [hskipped, List.mem_append]
    by_cases hee : e' = e
    · subst hee
      rw [if_pos rfl] at hc'
      obtain rfl := Option.some.inj hc'
      have hpos : n' ≤ n := hle'
      by_cases hgap : j < n'
      · rcases hpos.lt_or_eq with hlt' | rfl
        · rw [if_pos ⟨rfl, hgap, hlt'⟩]
          exact .inl rfl
        · exact .inr (.inr (List.mem_singleton_self _))
      · rw [if_neg (fun hin => hgap hin.2.1)]
        rcases h.covered e' _ n' hchain hn' (not_lt.mp hgap) with hstored | hacc
        · exact .inl hstored
        · exact .inr (.inl hacc)
    · rw [if_neg hee] at hc'
      rw [if_neg (fun hin => hee hin.1)]
      rcases h.covered e' c' n' hc' hn' hle' with hstored | hacc
      · exact .inl hstored
      · exact .inr (.inl hacc)
  · intro e' n' hacc
    rw [hepoch, hskipped, hrecv]
    rcases List.mem_append.mp hacc with hacc | hacc
    · obtain ⟨hle', hnone', hpos'⟩ := h.spent e' n' hacc
      by_cases hee : e' = e
      · subst hee
        have hpos := hpos' _ hchain
        rw [if_neg (by rintro ⟨-, hgap, -⟩; exact absurd hpos (not_le.mpr hgap)), if_pos rfl]
        refine ⟨hle', hnone', ?_⟩
        intro c' hc'
        exact Option.some.inj hc' ▸ hpos.trans hlt.le
      · rw [if_neg (fun hin => hee hin.1), if_neg hee]
        exact ⟨hle', hnone', hpos'⟩
    · obtain ⟨rfl, rfl⟩ := Prod.mk.inj (List.mem_singleton.mp hacc)
      rw [if_neg (by omega), if_pos rfl]
      refine ⟨hle e' hmemE, ?_, ?_⟩
      · cases hk : st.skippedKey e' n' with
        | none => rfl
        | some k => exact absurd (hbehind n' k hk) (not_le.mpr hlt)
      · intro c' hc'
        exact Option.some.inj hc' ▸ le_rfl

/-- **Deriving a receive key.**  It is the key its epoch and number prescribe and the pair is
new, or the call fails and leaves the state as it was. -/
theorem Chains.derive (h : Chains H sk s secrets low accepted sent st) (e n : ℕ) :
    (∃ st', st.deriveKey H e n = (.ok (sckaKey H (recvBase H sk secrets s e) n), st') ∧
        (e, n) ∉ accepted ∧ st'.braid = st.braid ∧
        Chains H sk s secrets low (accepted ++ [(e, n)]) sent st') ∨
      (∃ err, st.deriveKey H e n = (.error err, st)) ∧ st.skippedKey e n = none ∧
        ∀ c, st.recvChain e = some c → n ≤ c.n ∨ ¬ c.Reaches n := by
  have hderives : SpqrState.Derives H (recvBase H sk secrets s e) e n st (st.deriveKey H e n).1
      (st.deriveKey H e n).2 := SpqrState.derives_deriveKey
        (fun c hc => h.receiving.recvChain_at hc)
  have hle : ∀ e ∈ st.kdfchains, e ≤ st.epoch := fun e he => ((h.epochs.retained e).mp he).1
  generalize st.deriveKey H e n = out at hderives
  obtain ⟨r, st'⟩ := out
  cases hderives with
  | rejected hnone hwhy => exact .inr ⟨⟨_, rfl⟩, hnone, hwhy⟩
  | @stored k _ hk hcore hchains hmem hskipped =>
      obtain ⟨hnew, hrecv⟩ := h.receiving.stored hk hcore.epoch hle hchains hmem hskipped
      obtain rfl := h.receiving.skipped_key e n k hk
      refine .inl ⟨st', rfl, hnew, hcore.braid, h.epochs.frame hcore (fun e' => by rw [hchains]),
        hrecv, h.sending.frame hcore.epoch ?_⟩
      intro e'
      rw [SpqrState.sendChain, hchains]
      rfl
  | fresh hnone hchain hlt hgap hcore hkeys hsend hrecv hmem hskipped =>
      obtain ⟨hnew, hrecv⟩ :=
        h.receiving.fresh hchain hlt hcore.epoch hle hkeys hrecv hmem hskipped
      exact .inl ⟨st', rfl, hnew, hcore.braid, h.epochs.frame hcore hkeys, hrecv,
        h.sending.frame hcore.epoch hsend⟩

/-! ### A new epoch -/

/-- The state after incorporating the secret of the next epoch: its chains are new, and if this
party encapsulated it, the epoch three back is gone. -/
structure Extends (H : Hash Key) (s : Side) (x : Key) (st st' : SpqrState Key) : Prop where
  direction : st'.direction = st.direction
  epoch : st'.epoch = st.epoch + 1
  rk : st'.rk = (H.kdfSckaRk st.rk x).rootKey
  chains : ∀ e, st'.kdfchains.lookup e =
    if e = st.epoch + 1 then
      let cks := SpqrState.assign st.direction (H.kdfSckaRk st.rk x).chainKey0
        (H.kdfSckaRk st.rk x).chainKey1
      some ⟨some (.new cks.1), some (.new cks.2)⟩
    else if e + 3 = st.epoch + 1 ∧ ownerOf (st.epoch + 1) ≠ s then none
    else st.kdfchains.lookup e
  skipped : ∀ e, st'.mkskipped.lookup e =
    if e + 3 = st.epoch + 1 ∧ ownerOf (st.epoch + 1) ≠ s then none else st.mkskipped.lookup e

lemma addEpoch_eq (st : SpqrState Key) (x : Key) :
    ∃ st', st.addEpoch H (st.epoch + 1) x = (.ok (), st') ∧
    st'.braid = st.braid ∧ st'.epoch = st.epoch + 1 ∧
    (ownerOf (st.epoch + 1) = s → Extends H s x st st') ∧
    (ownerOf (st.epoch + 1) ≠ s → Extends H s x st (st'.clearOldEpochs st.epoch)) := by
  refine ⟨_, if_neg (not_not.mpr rfl), rfl, rfl, ?_, ?_⟩
  · intro howner
    have hkept : ∀ e, ¬ (e + 3 = st.epoch + 1 ∧ ownerOf (st.epoch + 1) ≠ s) :=
      fun e hdrop => hdrop.2 howner
    refine ⟨rfl, rfl, rfl, ?_, fun e => (if_neg (hkept e)).symm⟩
    intro e
    rw [if_neg (hkept e)]
    exact Map.lookup_insert_eq_ite _ _ _ _
  · intro howner
    unfold SpqrState.clearOldEpochs
    by_cases htwo : 2 ≤ st.epoch
    · have hdrop : ∀ e, (e + 3 = st.epoch + 1 ∧ ownerOf (st.epoch + 1) ≠ s) ↔ e = st.epoch - 2 :=
        fun e => ⟨fun h => by omega, fun h => ⟨by omega, howner⟩⟩
      rw [if_pos htwo]
      refine ⟨rfl, rfl, rfl, ?_, ?_⟩
      · intro e
        simp only [hdrop, Map.lookup_erase_eq_ite, Map.lookup_insert_eq_ite]
        by_cases he : e = st.epoch + 1
        · rw [if_pos he, if_neg (by omega), if_pos he]
        · rw [if_neg he, if_neg he]
      · intro e
        simp only [hdrop, Map.lookup_erase_eq_ite]
    · -- there is no epoch three back
      have hkept : ∀ e, ¬ (e + 3 = st.epoch + 1 ∧ ownerOf (st.epoch + 1) ≠ s) := by omega
      rw [if_neg htwo]
      refine ⟨rfl, rfl, rfl, ?_, fun e => (if_neg (hkept e)).symm⟩
      intro e
      rw [if_neg (hkept e)]
      exact Map.lookup_insert_eq_ite _ _ _ _

namespace Extends

variable {x : Key}

lemma mem_kdfchains (hx : Extends H s x st st') : e ∈ st'.kdfchains ↔
    e = st.epoch + 1 ∨ ¬ (e + 3 = st.epoch + 1 ∧ ownerOf (st.epoch + 1) ≠ s) ∧ e ∈
      st.kdfchains := by
  rw [SpqrState.mem_kdfchains_iff, SpqrState.mem_kdfchains_iff, hx.chains]
  by_cases he : e = st.epoch + 1
  · simp [he]
  · by_cases hdrop : e + 3 = st.epoch + 1 ∧ ownerOf (st.epoch + 1) ≠ s
    · rw [if_neg he, if_pos hdrop]
      simp [he, hdrop]
    · rw [if_neg he, if_neg hdrop]
      exact ⟨fun hmem => .inr ⟨hdrop, hmem⟩, fun hmem => (hmem.resolve_left he).2⟩

/-- A chain of an earlier epoch was there before. -/
lemma recvChain_of_ne (hx : Extends H s x st st') (he : e ≠ st.epoch + 1) {c : SckaChain Key}
    (hc : st'.recvChain e = some c) :
    ¬ (e + 3 = st.epoch + 1 ∧ ownerOf (st.epoch + 1) ≠ s) ∧ st.recvChain e = some c := by
  rw [SpqrState.recvChain, hx.chains, if_neg he] at hc
  by_cases hdrop : e + 3 = st.epoch + 1 ∧ ownerOf (st.epoch + 1) ≠ s
  · rw [if_pos hdrop] at hc
    cases hc
  · rw [if_neg hdrop] at hc
    exact ⟨hdrop, hc⟩

lemma sendChain_of_ne (hx : Extends H s x st st') (he : e ≠ st.epoch + 1) {c : SckaChain Key}
    (hc : st'.sendChain e = some c) : st.sendChain e = some c := by
  rw [SpqrState.sendChain, hx.chains, if_neg he] at hc
  by_cases hdrop : e + 3 = st.epoch + 1 ∧ ownerOf (st.epoch + 1) ≠ s
  · rw [if_pos hdrop] at hc
    cases hc
  · rw [if_neg hdrop] at hc
    exact hc

lemma skippedKey_eq (hx : Extends H s x st st') (n : ℕ) : st'.skippedKey e n =
    if e + 3 = st.epoch + 1 ∧ ownerOf (st.epoch + 1) ≠ s then none else st.skippedKey e n := by
  rw [SpqrState.skippedKey, hx.skipped]
  split <;> rfl

/-- The new chains are at the start of what the secrets prescribe. -/
lemma new_chains (hx : Extends H s x st st') (h : Epochs H sk s secrets st) :
    st'.sendChain (st.epoch + 1) =
        some (.at H (sendBase H sk (secrets ++ [x]) s (st.epoch + 1)) 0) ∧
      st'.recvChain (st.epoch + 1) =
        some (.at H (recvBase H sk (secrets ++ [x]) s (st.epoch + 1)) 0) := by
  have htake : (secrets ++ [x]).take (st.epoch + 1) = secrets ++ [x] :=
    List.take_of_length_le (by simp [h.epoch_eq])
  have hbases : chainBases H sk (secrets ++ [x]) s (st.epoch + 1) =
      SpqrState.assign st.direction (H.kdfSckaRk st.rk x).chainKey0
        (H.kdfSckaRk st.rk x).chainKey1 := by
    rw [chainBases, htake, epochChains_concat, ← h.rk_eq, h.direction]
  rw [SpqrState.sendChain, SpqrState.recvChain, hx.chains, if_pos rfl, sendBase, recvBase, hbases]
  exact ⟨rfl, rfl⟩

lemma epochs (hx : Extends H s x st st') (h : Epochs H sk s secrets st) :
    Epochs H sk s (secrets ++ [x]) st' where
  direction := hx.direction.trans h.direction
  epoch_eq := by rw [hx.epoch, h.epoch_eq, List.length_append, List.length_singleton]
  rk_eq := by rw [hx.rk, epochChains_concat, h.rk_eq]
  retained := by
    intro e
    rw [hx.mem_kdfchains, h.retained, hx.epoch]
    have hsame : e + 3 = st.epoch + 1 ∧ ownerOf (st.epoch + 1) ≠ s ↔
        e + 3 = st.epoch + 1 ∧ ownerOf (e + 3) ≠ s :=
      and_congr_right (fun hthree => by rw [hthree])
    rw [hsame]
    by_cases howner : ownerOf (e + 3) = s
    · simp only [howner, ne_eq, not_true_eq_false, and_false, not_false_eq_true, and_true, true_and]
      omega
    · simp only [howner, ne_eq, not_false_eq_true, and_true]
      omega

lemma receiving (hx : Extends H s x st st') (hep : Epochs H sk s secrets st)
    (h : Receiving H sk s secrets accepted st) :
    Receiving H sk s (secrets ++ [x]) accepted st' := by
  have hle : ∀ e ∈ st.kdfchains, e ≤ st.epoch := fun e he => ((hep.retained e).mp he).1
  have hbase : ∀ e, e ≤ st.epoch →
      recvBase H sk (secrets ++ [x]) s e = recvBase H sk secrets s e := fun e he => by
    rw [recvBase, recvBase, chainBases_append (hep.epoch_eq ▸ he)]
  -- what is stored was stored before, for an epoch that has not been dropped
  have hstored : ∀ e n k, st'.skippedKey e n = some k →
      ¬ (e + 3 = st.epoch + 1 ∧ ownerOf (st.epoch + 1) ≠ s) ∧ st.skippedKey e n = some k ∧
        ∃ c, st.recvChain e = some c ∧ n ≤ c.n := by
    intro e n k hk
    rw [hx.skippedKey_eq] at hk
    split at hk
    · cases hk
    · rename_i hdrop
      exact ⟨hdrop, hk, (h.skipped_le e n k hk).2⟩
  refine ⟨?_, ?_, ?_, ?_, ?_, ?_, h.nodup⟩
  · intro e he
    rcases hx.mem_kdfchains.mp he with rfl | ⟨hdrop, he⟩
    · exact ⟨0, (hx.new_chains hep).2⟩
    · have hne : e ≠ st.epoch + 1 := by have := hle e he; omega
      obtain ⟨j, hj⟩ := h.chain_at e he
      refine ⟨j, ?_⟩
      rw [SpqrState.recvChain, hx.chains, if_neg hne, if_neg hdrop, hbase e (hle e he)]
      exact hj
  · intro e he
    obtain ⟨inner, hinner⟩ := Finmap.mem_iff.mp he
    rw [hx.skipped] at hinner
    split at hinner
    · cases hinner
    · rename_i hdrop
      exact hx.mem_kdfchains.mpr (.inr ⟨hdrop, h.skipped_mem e (Finmap.mem_iff.mpr ⟨_, hinner⟩)⟩)
  · intro e n k hk
    obtain ⟨-, hk, c, hc, -⟩ := hstored e n k hk
    rw [hbase e (hle e (mem_of_recvChain hc))]
    exact h.skipped_key e n k hk
  · intro e n k hk
    obtain ⟨hdrop, hk, c, hc, hpos⟩ := hstored e n k hk
    have hne : e ≠ st.epoch + 1 := by have := hle e (mem_of_recvChain hc); omega
    refine ⟨(h.skipped_le e n k hk).1, c, ?_, hpos⟩
    rw [SpqrState.recvChain, hx.chains, if_neg hne, if_neg hdrop]
    exact hc
  · intro e c n hc hn hpos
    by_cases he : e = st.epoch + 1
    · subst he
      obtain rfl := Option.some.inj (hc.symm.trans (hx.new_chains hep).2)
      exact absurd (hn.trans hpos) (by simp)
    · obtain ⟨hdrop, hc⟩ := hx.recvChain_of_ne he hc
      rw [hx.skippedKey_eq, if_neg hdrop]
      exact h.covered e c n hc hn hpos
  · intro e n hacc
    obtain ⟨hle', hnone, hpos⟩ := h.spent e n hacc
    refine ⟨by rw [hx.epoch]; omega, ?_, ?_⟩
    · rw [hx.skippedKey_eq, hnone, ite_self]
    · intro c hc
      exact hpos c (hx.recvChain_of_ne (by omega) hc).2

lemma sending (hx : Extends H s x st st') (hep : Epochs H sk s secrets st)
    (h : Sending H sk s secrets low sent st)
    (hlow : ownerOf (st.epoch + 1) ≠ s → st.epoch < low + 2) :
    Sending H sk s (secrets ++ [x]) low sent st' := by
  have hbase : ∀ e, e ≤ st.epoch →
      sendBase H sk (secrets ++ [x]) s e = sendBase H sk secrets s e := fun e he => by
    rw [sendBase, sendBase, chainBases_append (hep.epoch_eq ▸ he)]
  have hle : ∀ e c, st.sendChain e = some c → e ≤ st.epoch := fun e c hc => by
    obtain ⟨cs, hcs, -⟩ := Option.bind_eq_some_iff.mp hc
    exact ((hep.retained e).mp (Finmap.mem_iff.mpr ⟨cs, hcs⟩)).1
  refine ⟨by rw [hx.epoch]; exact h.low_le.trans (Nat.le_succ _), ?_, ?_, ?_, ?_, h.sorted⟩
  · intro e c hc
    by_cases he : e = st.epoch + 1
    · subst he
      exact ⟨0, Option.some.inj (hc.symm.trans (hx.new_chains hep).1)⟩
    · have hc := hx.sendChain_of_ne he hc
      rw [hbase e (hle e c hc)]
      exact h.chain_at e c hc
  · intro e hlow' he'
    by_cases he : e = st.epoch + 1
    · subst he
      exact ⟨_, (hx.new_chains hep).1⟩
    · have hdrop : ¬ (e + 3 = st.epoch + 1 ∧ ownerOf (st.epoch + 1) ≠ s) := by
        rintro ⟨hthree, howner⟩
        have := hlow howner
        omega
      rw [hx.epoch] at he'
      obtain ⟨c, hc⟩ := h.live e hlow' (by omega)
      refine ⟨c, ?_⟩
      rw [SpqrState.sendChain, hx.chains, if_neg he, if_neg hdrop]
      exact hc
  · intro e n k hmem
    rw [hbase e ((h.le e n k hmem).1.trans h.low_le)]
    exact h.key_eq e n k hmem
  · intro e n k hmem
    obtain ⟨hle', hpos⟩ := h.le e n k hmem
    have := h.low_le
    refine ⟨hle', ?_⟩
    intro c hc
    exact hpos c (hx.sendChain_of_ne (by omega) hc)

/-- **A new epoch keeps the invariant.** -/
theorem extend (hx : Extends H s x st st') (h : Chains H sk s secrets low accepted sent st)
    (hlow : ownerOf (st.epoch + 1) ≠ s → st.epoch < low + 2) :
    Chains H sk s (secrets ++ [x]) low accepted sent st' where
  epochs := hx.epochs h.epochs
  receiving := hx.receiving h.epochs h.receiving
  sending := hx.sending h.epochs h.sending hlow

end Extends

/-! ### Sending -/

/-- Dropping the send chain before the current one. -/
lemma Chains.dropSend (h : Chains H sk s secrets low accepted sent st) :
    Chains H sk s secrets low accepted sent (st.dropSend low) := by
  obtain ⟨hcore, hskipped, hmem, hrecv, hsend⟩ := SpqrState.dropSend_spec (s := st) low
  have hold : ∀ e c, (st.dropSend low).sendChain e = some c → st.sendChain e = some c := by
    intro e c hc
    rw [hsend] at hc
    split at hc
    · cases hc
    · exact hc
  refine ⟨h.epochs.frame hcore hmem, h.receiving.frame hcore.epoch hmem hrecv hskipped, ?_, ?_, ?_,
    h.sending.key_eq, ?_, h.sending.sorted⟩
  · rw [hcore.epoch]
    exact h.sending.low_le
  · intro e c hc
    exact h.sending.chain_at e c (hold e c hc)
  · intro e hlow he
    rw [hcore.epoch] at he
    rw [hsend, if_neg (by omega)]
    exact h.sending.live e hlow he
  · intro e n k hk
    refine ⟨(h.sending.le e n k hk).1, ?_⟩
    intro c hc
    exact (h.sending.le e n k hk).2 c (hold e c hc)

/-- Taking the next key of the current send chain. -/
lemma Chains.advanceSend (h : Chains H sk s secrets low accepted sent st) :
    ∃ j, st.sendChain low = some (.at H (sendBase H sk secrets s low) j) ∧
      Chains H sk s secrets low accepted
        (sent ++ [((low, j + 1), sckaKey H (sendBase H sk secrets s low) (j + 1))])
        (st.setSend low (.at H (sendBase H sk secrets s low) (j + 1))) := by
  obtain ⟨c, hc⟩ := h.sending.live low le_rfl h.sending.low_le
  obtain ⟨j, rfl⟩ := h.sending.chain_at low c hc
  have hcore := SpqrState.sameCore_modifyChains (s := st) (e := low)
    (fun cs => { cs with send := some (SckaChain.at H (sendBase H sk secrets s low) (j + 1)) })
  have hsend : ∀ e, (st.setSend low (.at H (sendBase H sk secrets s low) (j + 1))).sendChain e =
      if e = low then some (.at H (sendBase H sk secrets s low) (j + 1)) else st.sendChain e :=
    fun e => SpqrState.sendChain_setSend hc _
  refine ⟨j, hc, h.epochs.frame hcore (fun e => SpqrState.mem_modifyChains _),
    h.receiving.frame hcore.epoch (fun e => SpqrState.mem_modifyChains _)
      (fun e => SpqrState.recvChain_setSend _) (SpqrState.modifyChains_mkskipped _), ?_⟩
  refine ⟨hcore.epoch.symm ▸ h.sending.low_le, ?_, ?_, ?_, ?_, ?_⟩
  · intro e c hc'
    rw [hsend] at hc'
    split at hc'
    · rename_i he
      exact ⟨j + 1, by rw [he]; exact (Option.some.inj hc').symm⟩
    · exact h.sending.chain_at e c hc'
  · intro e hlow he
    rw [hsend]
    split
    · exact ⟨_, rfl⟩
    · exact h.sending.live e hlow (hcore.epoch ▸ he)
  · intro e n k hmem
    rcases List.mem_append.mp hmem with hmem | hmem
    · exact h.sending.key_eq e n k hmem
    · cases List.mem_singleton.mp hmem
      exact ⟨Nat.succ_pos j, rfl⟩
  · intro e n k hmem
    rcases List.mem_append.mp hmem with hmem | hmem
    · obtain ⟨hle, hpos⟩ := h.sending.le e n k hmem
      refine ⟨hle, ?_⟩
      intro c hc'
      rw [hsend] at hc'
      split at hc'
      · rename_i he
        subst he
        obtain rfl := Option.some.inj hc'
        exact (hpos _ hc).trans (Nat.le_succ j)
      · exact hpos c hc'
    · cases List.mem_singleton.mp hmem
      refine ⟨le_rfl, ?_⟩
      intro c hc'
      rw [hsend, if_pos rfl] at hc'
      obtain rfl := Option.some.inj hc'
      exact le_rfl
  · -- all earlier messages belong to an earlier epoch or lie behind the chain
    rw [List.map_append, List.pairwise_append]
    refine ⟨h.sending.sorted, List.pairwise_singleton _ _, ?_⟩
    intro p hp q hq
    obtain ⟨⟨⟨e, n⟩, k⟩, hmem, rfl⟩ := List.mem_map.mp hp
    obtain rfl := List.mem_singleton.mp hq
    obtain ⟨hle, hpos⟩ := h.sending.le e n k hmem
    rcases hle.lt_or_eq with hlt | heq
    · exact .inl hlt
    · have hj : n ≤ j := hpos _ (heq ▸ hc)
      exact .inr ⟨heq, Nat.lt_succ_of_le hj⟩

end Invariant

end Hushwire
