import Mathlib.LinearAlgebra.Lagrange
import Mathlib.Tactic

/-!
# Erasure codes by interpolation

The systematic Reed-Solomon code over an arbitrary field: `k` symbols are the values of a
polynomial of degree below `k` at the first `k` nodes, the recovery symbols its values at the
next ones.  Any `k` of the values determine the polynomial (`extend_extend`), and with it every
missing symbol (`restore_recovery`).

Symbols live in a type of their own, `Alphabet` relates it to the field; only the valid ones
are in bijection with the field, so that a list of bytes can serve as a symbol.
-/

namespace ErasureCode

variable {α F : Type} [Field F]

/-- Symbols as elements of a field. -/
structure Alphabet (α F : Type) where
  Valid : α → Prop
  toField : α → F
  ofField : F → α
  valid_ofField : ∀ x, Valid (ofField x)
  toField_ofField : ∀ x, toField (ofField x) = x
  ofField_toField : ∀ a, Valid a → ofField (toField a) = a

section Extend

variable {v : ℕ → F} {s t : Finset ℕ} {f g : ℕ → F}

/-- The value at node `i` of the polynomial through the values `f` at the nodes in `s`. -/
noncomputable def extend (v : ℕ → F) (s : Finset ℕ) (f : ℕ → F) (i : ℕ) : F :=
  (Lagrange.interpolate s v f).eval (v i)

lemma extend_of_mem (hs : Set.InjOn v s) {i : ℕ} (hi : i ∈ s) : extend v s f i = f i :=
  Lagrange.eval_interpolate_at_node f hs hi

/-- **Enough values determine all.** -/
theorem extend_extend (hs : Set.InjOn v s) (ht : Set.InjOn v t) (hcard : t.card ≤ s.card)
    (hg : ∀ i ∈ s, g i = extend v t f i) (i : ℕ) : extend v s g i = extend v t f i := by
  have hdeg : (Lagrange.interpolate t v f).degree < s.card :=
    (Lagrange.degree_interpolate_lt f ht).trans_le (by exact_mod_cast hcard)
  have hsame : Lagrange.interpolate t v f = Lagrange.interpolate s v g := by
    refine Lagrange.eq_interpolate_of_eval_eq g hs hdeg ?_
    intro j hj
    exact (hg j hj).symm
  rw [extend, extend, hsame]

end Extend

variable (A : Alphabet α F) (v : ℕ → F)

/-- The values of the data symbols at the first nodes. -/
def dataValue (data : List α) (i : ℕ) : F := (data[i]?.map A.toField).getD 0

/-- The `r` recovery symbols. -/
noncomputable def recovery (k r : ℕ) (data : List α) : List α :=
  (List.range r).map (fun j =>
    A.ofField (extend v (Finset.range k) (dataValue A data) (k + j)))

/-- Data symbols first, recovery symbols after them. -/
def codeword (k : ℕ) (original recovered : ℕ → Option α) (i : ℕ) : Option α :=
  if i < k then original i else recovered (i - k)

/-- The positions at which a symbol is known. -/
def known (k r : ℕ) (original recovered : ℕ → Option α) : Finset ℕ :=
  (Finset.range (k + r)).filter (fun i => (codeword k original recovered i).isSome)

/-- The symbol at position `i`, from those that are known. -/
noncomputable def restore (k r : ℕ) (original recovered : ℕ → Option α) (i : ℕ) : α :=
  A.ofField (extend v (known k r original recovered)
    (fun i => ((codeword k original recovered i).map A.toField).getD 0) i)

lemma card_known (k r : ℕ) (original recovered : ℕ → Option α) :
    (known k r original recovered).card =
      ((Finset.range k).filter (fun i => (original i).isSome)).card +
        ((Finset.range r).filter (fun j => (recovered j).isSome)).card := by
  rw [known, Finset.card_filter, Finset.sum_range_add, Finset.card_filter, Finset.card_filter]
  congr 1
  · refine Finset.sum_congr rfl (fun i hi => ?_)
    have hdata : codeword k original recovered i = original i := if_pos (Finset.mem_range.mp hi)
    rw [hdata]
  · refine Finset.sum_congr rfl (fun j _ => ?_)
    have hrec : codeword k original recovered (k + j) = recovered j := by simp [codeword]
    rw [hrec]

variable {A v}

/-- **Any `k` of the `k + r` symbols restore every data symbol.** -/
theorem restore_recovery {k r : ℕ} {data : List α} {original recovered : ℕ → Option α}
    (hv : Set.InjOn v (Finset.range (k + r))) (hlen : data.length = k)
    (hvalid : ∀ a ∈ data, A.Valid a) (horig : ∀ i a, original i = some a → data[i]? = some a)
    (hrec : ∀ j a, recovered j = some a → (recovery A v k r data)[j]? = some a)
    (hcard : k ≤ (known k r original recovered).card) {i : ℕ} (hi : i < k) :
    some (restore A v k r original recovered i) = data[i]? := by
  have hinj : Set.InjOn v (Finset.range k) :=
    hv.mono (Finset.coe_subset.mpr (Finset.range_mono (Nat.le_add_right k r)))
  have hinj' : Set.InjOn v (known k r original recovered) :=
    hv.mono (Finset.coe_subset.mpr (Finset.filter_subset _ _))
  -- what is known lies on the polynomial through the data
  have hon : ∀ j ∈ known k r original recovered,
      ((codeword k original recovered j).map A.toField).getD 0 =
        extend v (Finset.range k) (dataValue A data) j := by
    intro j hj
    obtain ⟨-, hsome⟩ := Finset.mem_filter.mp hj
    obtain ⟨a, ha⟩ := Option.isSome_iff_exists.mp hsome
    rw [ha]
    unfold codeword at ha
    split at ha
    · rename_i hjk
      rw [extend_of_mem hinj (Finset.mem_range.mpr hjk), dataValue, horig j a ha]
    · rename_i hjk
      obtain ⟨l, rfl⟩ := Nat.exists_eq_add_of_le (not_lt.mp hjk)
      rw [Nat.add_sub_cancel_left] at ha
      obtain ⟨hl, rfl⟩ := List.getElem?_eq_some_iff.mp (hrec l a ha)
      simp [recovery, A.toField_ofField]
  rw [restore, extend_extend hinj' hinj (by simpa using hcard) hon,
    extend_of_mem hinj (Finset.mem_range.mpr hi), dataValue,
    List.getElem?_eq_getElem (hlen ▸ hi)]
  simp [A.ofField_toField _ (hvalid _ (List.getElem_mem _))]

end ErasureCode
