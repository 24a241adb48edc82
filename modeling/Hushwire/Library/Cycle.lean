import Mathlib.Algebra.Order.BigOperators.Group.Finset
import Mathlib.Tactic

/-!
# Collecting what a cycle hands out

A sender hands out the items `0, …, n - 1` in turn, over and over; a collector keeps the ones
that reach it.  `wait n D c` measures how far a collector that holds `D` is from holding every
item when the sender's counter stands at `c`: each missing item counts one plus the number of
turns until it is handed out.  One turn brings all missing items one turn closer, so the
measure falls (`wait_insert_lt`) as long as something is missing.
-/

namespace Cycle

/-- The turns until item `i` is handed out when the counter stands at `c`. -/
def turnsUntil (n c i : ℕ) : ℕ := (i + (n - c % n)) % n

/-- The distance of a collector that holds `D` from holding everything. -/
def wait (n : ℕ) (D : Finset ℕ) (c : ℕ) : ℕ :=
  ∑ i ∈ Finset.range n \ D, (1 + turnsUntil n c i)

lemma turnsUntil_succ {n c i : ℕ} (hi : i < n) (hne : i ≠ c % n) :
    turnsUntil n (c + 1) i + 1 = turnsUntil n c i := by
  have hc : c % n < n := Nat.mod_lt _ (by omega)
  unfold turnsUntil
  by_cases hwrap : c % n + 1 = n
  · -- the counter wraps around
    have hsucc : (c + 1) % n = 0 := by
      rw [Nat.add_mod, Nat.mod_eq_of_lt (show 1 < n by omega), hwrap, Nat.mod_self]
    have hstep : n - c % n = 1 := by omega
    rw [hsucc, hstep, Nat.sub_zero, Nat.add_mod_right, Nat.mod_eq_of_lt hi,
      Nat.mod_eq_of_lt (by omega)]
  · have hsucc : (c + 1) % n = c % n + 1 := by
      rw [Nat.add_mod, Nat.mod_eq_of_lt (show 1 < n by omega)]
      exact Nat.mod_eq_of_lt (by omega)
    rw [hsucc]
    generalize c % n = k at hne hc hwrap
    rcases Nat.lt_or_gt_of_ne hne with hlt | hgt
    · rw [Nat.mod_eq_of_lt (show i + (n - (k + 1)) < n by omega),
        Nat.mod_eq_of_lt (show i + (n - k) < n by omega)]
      omega
    · have h1 : i + (n - (k + 1)) = (i - k - 1) + n := by omega
      have h2 : i + (n - k) = (i - k) + n := by omega
      rw [h1, h2, Nat.add_mod_right, Nat.add_mod_right,
        Nat.mod_eq_of_lt (show i - k - 1 < n by omega), Nat.mod_eq_of_lt (show i - k < n by omega)]
      omega

/-- **One turn.**  The item the counter points at reaches the collector, and whatever is still
missing comes one turn closer. -/
theorem wait_insert_lt {n c : ℕ} {D : Finset ℕ} (hmissing : (Finset.range n \ D).Nonempty) :
    wait n (insert (c % n) D) (c + 1) < wait n D c := by
  unfold wait
  by_cases hheld : c % n ∈ D
  · -- nothing new arrives, and every missing item is strictly closer
    rw [Finset.insert_eq_of_mem hheld]
    refine Finset.sum_lt_sum_of_nonempty hmissing ?_
    intro i hi
    obtain ⟨hin, hiD⟩ := Finset.mem_sdiff.mp hi
    have hne : i ≠ c % n := fun h => hiD (h ▸ hheld)
    have hsucc := turnsUntil_succ (Finset.mem_range.mp hin) hne
    omega
  · obtain ⟨j, hj⟩ := hmissing
    have hn : 0 < n := by
      have := Finset.mem_range.mp (Finset.mem_sdiff.mp hj).1
      omega
    have hnew : c % n ∈ Finset.range n \ D :=
      Finset.mem_sdiff.mpr ⟨Finset.mem_range.mpr (Nat.mod_lt _ hn), hheld⟩
    rw [Finset.sdiff_insert]
    calc ∑ i ∈ (Finset.range n \ D).erase (c % n), (1 + turnsUntil n (c + 1) i)
        ≤ ∑ i ∈ (Finset.range n \ D).erase (c % n), (1 + turnsUntil n c i) := by
          refine Finset.sum_le_sum ?_
          intro i hi
          obtain ⟨hne, hmem⟩ := Finset.mem_erase.mp hi
          have hsucc := turnsUntil_succ
            (Finset.mem_range.mp (Finset.mem_sdiff.mp hmem).1) hne
          omega
      _ < ∑ i ∈ Finset.range n \ D, (1 + turnsUntil n c i) := by
          rw [← Finset.add_sum_erase _ _ hnew]
          omega

lemma wait_le (n : ℕ) (D : Finset ℕ) (c : ℕ) : wait n D c ≤ n * n := by
  have hterm : ∀ i ∈ Finset.range n \ D, 1 + turnsUntil n c i ≤ n := by
    intro i hi
    have hin := Finset.mem_range.mp (Finset.mem_sdiff.mp hi).1
    have hlt : turnsUntil n c i < n := Nat.mod_lt _ (by omega)
    omega
  calc wait n D c ≤ (Finset.range n \ D).card • n := Finset.sum_le_card_nsmul _ _ _ hterm
    _ ≤ n * n := by
        rw [smul_eq_mul]
        refine Nat.mul_le_mul_right n ((Finset.card_le_card Finset.sdiff_subset).trans ?_)
        rw [Finset.card_range]

end Cycle
