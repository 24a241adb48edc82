import Mathlib.Logic.Relation
import Mathlib.Tactic

/-!
# Secrecy of derived keys

Key derivation read symbolically.  `computes inputs k` says that `k` can be computed from the keys
in `inputs`; what a party can learn from what it knows is the closure `Derives`.  Nothing else is
asked of keys, in particular no order or size on them.

## The rules

* A set of keys is `Guarded` if nobody computes one of them without another one of them.  Whoever
  knows none of a guarded set learns none of it (`Guarded.not_derives`).  The first keys of a chain
  are guarded (`guarded_chain`), and from one of its keys all later ones are derived
  (`Derives.later`).
* A `Frontier` describes a party that expands keys and erases them as it goes.  Its keys hang in a
  tree: `Parent p c` says that `c` is derived from `p`, a key has one parent at most and the root
  has none.  The party holds keys in slots and has erased others; whatever it holds or has erased
  is the root or the child of an erased key.  That the two never overlap is preserved when a slot is
  expanded into children (`Frontier.expand`, and `split` and `advance` for two of them) or emptied
  (`Frontier.take`).

The erased keys of a frontier are guarded (`Frontier.guarded`), and a child of a key in a slot has
never been seen before (`Frontier.new_child`).
-/

namespace Secrecy

variable {K : Type}

/-! ## What can be computed -/

/-- Everything that can be computed from the keys in `known`. -/
inductive Derives (computes : List K → K → Prop) (known : Set K) : K → Prop
  | known {k : K} (h : k ∈ known) : Derives computes known k
  | compute {inputs : List K} {k : K} (h : computes inputs k)
      (hinputs : ∀ i ∈ inputs, Derives computes known i) : Derives computes known k

/-- Nobody computes one of these keys without another one of them. -/
def Guarded (computes : List K → K → Prop) (secret : Set K) : Prop :=
  ∀ inputs k, computes inputs k → k ∈ secret → ∃ i ∈ inputs, i ∈ secret

/-- Whoever computes `c` needs `p` for it. -/
def Needs (computes : List K → K → Prop) (p c : K) : Prop :=
  ∀ inputs, computes inputs c → p ∈ inputs

section Guarded

variable {computes : List K → K → Prop} {known secret : Set K} {k : K}

/-- **Whoever knows none of a guarded set learns none of it.** -/
theorem Guarded.not_derives (h : Guarded computes secret) (hknown : ∀ k ∈ known, k ∉ secret)
    (hk : k ∈ secret) : ¬ Derives computes known k := by
  intro hder
  induction hder with
  | known hmem => exact hknown _ hmem hk
  | compute hcomp _ ih =>
      obtain ⟨i, hi, hsecret⟩ := h _ _ hcomp hk
      exact ih i hi hsecret

/-- Each key of the set cannot be computed at all, or needs another one. -/
lemma guarded_of_needs
    (h : ∀ k ∈ secret, (∀ inputs, ¬ computes inputs k) ∨ ∃ p ∈ secret, Needs computes p k) :
    Guarded computes secret := by
  intro inputs k hcomp hk
  rcases h k hk with hnot | ⟨p, hp, hneeds⟩
  · exact absurd hcomp (hnot inputs)
  · exact ⟨p, hneeds inputs hcomp, hp⟩

/-- Keys that need a key of a guarded set join it. -/
lemma Guarded.union (h : Guarded computes secret) {more : Set K}
    (hmore : ∀ k ∈ more, ∃ p ∈ secret ∪ more, Needs computes p k) :
    Guarded computes (secret ∪ more) := by
  intro inputs k hcomp hk
  rcases hk with hk | hk
  · obtain ⟨i, hi, hsecret⟩ := h inputs k hcomp hk
    exact ⟨i, hi, .inl hsecret⟩
  · obtain ⟨p, hp, hneeds⟩ := hmore k hk
    exact ⟨p, hneeds inputs hcomp, hp⟩

end Guarded

/-! ## Chains -/

section Chain

variable {computes : List K → K → Prop} {known : Set K} {chain : ℕ → K} {i j : ℕ}

/-- The first keys of a chain are guarded, if nobody computes the first one. -/
lemma guarded_chain (hroot : ∀ inputs, ¬ computes inputs (chain 0))
    (hchain : ∀ n, Needs computes (chain n) (chain (n + 1))) (j : ℕ) :
    Guarded computes {k | ∃ n ≤ j, k = chain n} := by
  refine guarded_of_needs ?_
  rintro k ⟨n, hn, rfl⟩
  cases n with
  | zero => exact .inl hroot
  | succ n => exact .inr ⟨chain n, ⟨n, Nat.le_of_succ_le hn, rfl⟩, hchain n⟩

/-- From one key of a chain all later ones can be computed. -/
lemma Derives.later (hchain : ∀ n, computes [chain n] (chain (n + 1))) (hij : i ≤ j)
    (h : Derives computes known (chain i)) : Derives computes known (chain j) := by
  induction j, hij using Nat.le_induction with
  | base => exact h
  | succ j _ ih =>
      refine .compute (hchain j) ?_
      rintro k hk
      obtain rfl := List.mem_singleton.mp hk
      exact ih

end Chain

/-! ## Keys that are expanded and erased -/

/-- A key has one parent at most, and the root has none. -/
structure Tree (Parent : K → K → Prop) (root : K) : Prop where
  unique : ∀ p p' c, Parent p c → Parent p' c → p = p'
  orphan : ∀ p, ¬ Parent p root

/-- What a party holds in its slots, and what it has erased. -/
structure Frontier {ι : Type} (Parent : K → K → Prop) (root : K) (live : ι → Option K)
    (erased : Set K) : Prop where
  injective : ∀ p q k, live p = some k → live q = some k → p = q
  notErased : ∀ p k, live p = some k → k ∉ erased
  origin : ∀ k, ((∃ p, live p = some k) ∨ k ∈ erased) → k = root ∨ ∃ q ∈ erased, Parent q k
  descends : ∀ k, ((∃ p, live p = some k) ∨ k ∈ erased) → Relation.ReflTransGen Parent root k

namespace Frontier

variable {ι : Type} {Parent : K → K → Prop} {root : K} {live live' : ι → Option K}
  {erased : Set K} {p : ι} {k c : K}

/-- A party that holds the root and nothing else, and has erased nothing. -/
lemma start (hlive : ∀ q c, live q = some c → q = p ∧ c = root) :
    Frontier Parent root live ∅ where
  injective q q' c hq hq' := (hlive q c hq).1.trans (hlive q' c hq').1.symm
  notErased _ _ _ := Set.notMem_empty _
  origin c hc := by
    rcases hc with ⟨q, hq⟩ | hc
    · exact .inl (hlive q c hq).2
    · exact absurd hc (Set.notMem_empty c)
  descends c hc := by
    rcases hc with ⟨q, hq⟩ | hc
    · rw [(hlive q c hq).2]
    · exact absurd hc (Set.notMem_empty c)

/-- **A child of a key in a slot is new**: it is in no slot and has not been erased. -/
theorem new_child (hT : Tree Parent root) (h : Frontier Parent root live erased)
    (hk : live p = some k) (hc : Parent k c) : c ∉ erased ∧ ∀ q, live q ≠ some c := by
  -- its parent would have been erased, and that is `k`
  have hnot : ¬ ((∃ q, live q = some c) ∨ c ∈ erased) := by
    intro hheld
    rcases h.origin c hheld with rfl | ⟨q, hq, hparent⟩
    · exact hT.orphan k hc
    · exact h.notErased p k hk (hT.unique q k c hparent hc ▸ hq)
  exact ⟨fun he => hnot (.inr he), fun q hq => hnot (.inl ⟨q, hq⟩)⟩

/-- A child is not the key it comes from. -/
lemma child_ne (hT : Tree Parent root) (h : Frontier Parent root live erased)
    (hk : live p = some k) (hc : Parent k c) : c ≠ k := by
  rintro rfl
  exact (h.new_child hT hk hc).2 p hk

/-- **Expanding a slot.**  The key is erased; children of it are put into slots, or used and erased
at once.  No two slots get the same child. -/
theorem expand (hT : Tree Parent root) (h : Frontier Parent root live erased)
    (hk : live p = some k) {used : Set K} (hused : ∀ c ∈ used, Parent k c ∧ ∀ q, live' q ≠ some c)
    (hlive : ∀ q c, live' q = some c → Parent k c ∨ q ≠ p ∧ live q = some c)
    (hinj : ∀ q q' c, Parent k c → live' q = some c → live' q' = some c → q = q') :
    Frontier Parent root live' (erased ∪ ({k} ∪ used)) := by
  have hheld : ∀ c, ((∃ q, live' q = some c) ∨ c ∈ erased ∪ ({k} ∪ used)) →
      Parent k c ∨ (∃ q, live q = some c) ∨ c ∈ erased := by
    rintro c (⟨q, hq⟩ | hc | rfl | hc)
    · exact (hlive q c hq).imp_right fun hold => .inl ⟨q, hold.2⟩
    · exact .inr (.inr hc)
    · exact .inr (.inl ⟨p, hk⟩)
    · exact .inl (hused c hc).1
  refine ⟨?_, ?_, ?_, ?_⟩
  · intro q q' c hq hq'
    rcases hlive q c hq with hc | ⟨-, hold⟩
    · exact hinj q q' c hc hq hq'
    · rcases hlive q' c hq' with hc | ⟨-, hold'⟩
      · exact hinj q q' c hc hq hq'
      · exact h.injective q q' c hold hold'
  · rintro q c hq (hc | rfl | hc)
    · rcases hlive q c hq with hchild | ⟨-, hold⟩
      · exact (h.new_child hT hk hchild).1 hc
      · exact h.notErased q c hold hc
    · rcases hlive q c hq with hchild | ⟨hne, hold⟩
      · exact h.child_ne hT hk hchild rfl
      · exact hne (h.injective q p c hold hk)
    · exact (hused c hc).2 q hq
  · intro c hc
    rcases hheld c hc with hchild | hold
    · exact .inr ⟨k, .inr (.inl rfl), hchild⟩
    · exact (h.origin c hold).imp_right fun ⟨q, hq, hparent⟩ => ⟨q, .inl hq, hparent⟩
  · intro c hc
    rcases hheld c hc with hchild | hold
    · exact (h.descends k (.inl ⟨p, hk⟩)).tail hchild
    · exact h.descends c hold

/-- A slot keeps one child of its key, another slot gets a second one or nobody does. -/
lemma split (hT : Tree Parent root) (h : Frontier Parent root live erased) {q : ι} {m : K}
    (hk : live p = some k) (hc : Parent k c) (hm : Parent k m) (hne : m ≠ c)
    (hlive : ∀ r d, live' r = some d →
      r = p ∧ d = c ∨ r = q ∧ d = m ∨ r ≠ p ∧ live r = some d) :
    Frontier Parent root live' (erased ∪ {k}) := by
  have h' : Frontier Parent root live' (erased ∪ ({k} ∪ ∅)) := by
    refine h.expand hT hk (by simp) ?_ ?_
    · rintro r d hr
      rcases hlive r d hr with ⟨-, rfl⟩ | ⟨-, rfl⟩ | hold
      · exact .inl hc
      · exact .inl hm
      · exact .inr hold
    · intro r r' d hd hr hr'
      have hnew := (h.new_child hT hk hd).2
      rcases hlive r d hr with ⟨rfl, rfl⟩ | ⟨rfl, rfl⟩ | hold
      · rcases hlive r' d hr' with ⟨rfl, -⟩ | ⟨-, rfl⟩ | hold'
        · rfl
        · exact absurd rfl hne
        · exact absurd hold'.2 (hnew r')
      · rcases hlive r' d hr' with ⟨-, rfl⟩ | ⟨rfl, -⟩ | hold'
        · exact absurd rfl hne
        · rfl
        · exact absurd hold'.2 (hnew r')
      · exact absurd hold.2 (hnew r)
  rwa [Set.union_empty] at h'

/-- A slot keeps one child of its key, and a second one is used at once. -/
lemma advance (hT : Tree Parent root) (h : Frontier Parent root live erased) {m : K}
    (hk : live p = some k) (hc : Parent k c) (hm : Parent k m) (hne : m ≠ c)
    (hlive : ∀ r d, live' r = some d → r = p ∧ d = c ∨ r ≠ p ∧ live r = some d) :
    Frontier Parent root live' (erased ∪ ({k} ∪ {m})) := by
  refine h.expand hT hk ?_ ?_ ?_
  · rintro d rfl
    refine ⟨hm, fun r hr => ?_⟩
    rcases hlive r d hr with ⟨-, hd⟩ | hold
    · exact hne hd
    · exact (h.new_child hT hk hm).2 r hold.2
  · rintro r d hr
    rcases hlive r d hr with ⟨-, rfl⟩ | hold
    · exact .inl hc
    · exact .inr hold
  · intro r r' d hd hr hr'
    have hnew := (h.new_child hT hk hd).2
    rcases hlive r d hr with ⟨rfl, -⟩ | hold
    · rcases hlive r' d hr' with ⟨rfl, -⟩ | hold'
      · rfl
      · exact absurd hold'.2 (hnew r')
    · exact absurd hold.2 (hnew r)

/-- **Using the key of a slot up.** -/
theorem take (h : Frontier Parent root live erased) (hk : live p = some k)
    (hlive : ∀ q c, live' q = some c → q ≠ p ∧ live q = some c) :
    Frontier Parent root live' (erased ∪ {k}) := by
  have hheld : ∀ c, ((∃ q, live' q = some c) ∨ c ∈ erased ∪ {k}) →
      (∃ q, live q = some c) ∨ c ∈ erased := by
    rintro c (⟨q, hq⟩ | hc | rfl)
    · exact .inl ⟨q, (hlive q c hq).2⟩
    · exact .inr hc
    · exact .inl ⟨p, hk⟩
  refine ⟨?_, ?_, ?_, fun c hc => h.descends c (hheld c hc)⟩
  · intro q q' c hq hq'
    exact h.injective q q' c (hlive q c hq).2 (hlive q' c hq').2
  · rintro q c hq (hc | rfl)
    · exact h.notErased q c (hlive q c hq).2 hc
    · exact (hlive q c hq).1 (h.injective q p c (hlive q c hq).2 hk)
  · intro c hc
    exact (h.origin c (hheld c hc)).imp_right fun ⟨q, hq, hparent⟩ => ⟨q, .inl hq, hparent⟩

/-- Once a key has been erased, the root has. -/
lemma root_mem (hT : Tree Parent root) (h : Frontier Parent root live erased) (hk : k ∈ erased) :
    root ∈ erased := by
  induction h.descends k (.inr hk) with
  | refl => exact hk
  | @tail p c _ hpc ih =>
      -- the parent of an erased key was erased before it
      rcases h.origin c (.inr hk) with rfl | ⟨q, hq, hparent⟩
      · exact absurd hpc (hT.orphan p)
      · exact ih (hT.unique q p c hparent hpc ▸ hq)

/-- **What has been erased cannot be computed from anything else.** -/
theorem guarded {computes : List K → K → Prop} (h : Frontier Parent root live erased)
    (hneeds : ∀ p c, Parent p c → Needs computes p c) (hroot : ∀ inputs, ¬ computes inputs root) :
    Guarded computes erased := by
  refine guarded_of_needs fun k hk => ?_
  rcases h.origin k (.inr hk) with rfl | ⟨q, hq, hparent⟩
  · exact .inl hroot
  · exact .inr ⟨q, hq, hneeds q k hparent⟩

end Frontier

end Secrecy
