import Mathlib.Data.List.Basic
import Mathlib.Tactic

/-!
# Taking a numbered stream in any order

A receiver of a numbered stream that keeps the numbers it had to pass over, so that it can take
them when they turn up.  `Window` is its state: the next number it has not passed, and the list
of those it has kept, oldest first.  Taking a number ahead of `next` keeps the ones in between,
as long as there is room; taking a late one is possible if it was kept, and once.

`frontier` and `outstanding` say where such a receiver stands from the *set* of numbers it took.
`accept_after` is the rule they are for: as long as no gap exceeds the limit and room is left,
every number is taken and the window is the one its set determines, whatever the order was.
-/

/-- Where a receiver stands. -/
@[ext] structure Window where
  next : ℕ
  kept : List ℕ
  deriving DecidableEq

namespace Window

/-- Take a number that is not behind, keeping those in between while there is room. -/
def ahead (limit : ℕ) (w : Window) (i : ℕ) : Option Window :=
  if w.next ≤ i ∧ i - w.next ≤ limit then
    some ⟨i + 1, w.kept ++ (List.range' w.next (i - w.next)).take (limit - w.kept.length)⟩
  else none

/-- Take a number that was kept. -/
def late (w : Window) (i : ℕ) : Option Window :=
  if i ∈ w.kept then some { w with kept := w.kept.erase i } else none

/-- Take a number, late or ahead. -/
def accept (limit : ℕ) (w : Window) (i : ℕ) : Option Window :=
  (w.late i).or (w.ahead limit i)

/-- All that is kept lies behind. -/
structure Valid (w : Window) : Prop where
  behind : ∀ i ∈ w.kept, i < w.next
  nodup : w.kept.Nodup

lemma accept_of_mem {limit : ℕ} {w : Window} {i : ℕ} (h : i ∈ w.kept) :
    w.accept limit i = some { w with kept := w.kept.erase i } := by
  rw [accept, late, if_pos h, Option.some_or]

lemma accept_of_notMem {limit : ℕ} {w : Window} {i : ℕ} (h : i ∉ w.kept) :
    w.accept limit i = w.ahead limit i := by
  rw [accept, late, if_neg h, Option.none_or]

/-- What is kept for the numbers in between lies in between. -/
lemma bounds_of_mem_take {next i j n : ℕ} (h : j ∈ (List.range' next (i - next)).take n) :
    next ≤ j ∧ j < i := by
  have := List.mem_range'_1.mp (List.mem_of_mem_take h)
  omega

lemma ahead_eq_some {limit : ℕ} {w w' : Window} {i : ℕ} (h : w.ahead limit i = some w') :
    w.next ≤ i ∧ w' =
      ⟨i + 1, w.kept ++ (List.range' w.next (i - w.next)).take (limit - w.kept.length)⟩ := by
  unfold ahead at h
  split at h
  · rename_i hle
    exact ⟨hle.1, (Option.some.inj h).symm⟩
  · cases h

/-- **The two ways to take a number.** -/
lemma accept_eq_some {limit : ℕ} {w w' : Window} {i : ℕ} (h : w.accept limit i = some w') :
    (i ∈ w.kept ∧ w' = { w with kept := w.kept.erase i }) ∨
      i ∉ w.kept ∧ w.next ≤ i ∧ w' =
        ⟨i + 1, w.kept ++ (List.range' w.next (i - w.next)).take (limit - w.kept.length)⟩ := by
  by_cases hi : i ∈ w.kept
  · rw [accept_of_mem hi] at h
    exact .inl ⟨hi, (Option.some.inj h).symm⟩
  · rw [accept_of_notMem hi] at h
    exact .inr ⟨hi, ahead_eq_some h⟩

lemma Valid.ahead {limit : ℕ} {w w' : Window} (hw : w.Valid) {i : ℕ}
    (h : w.ahead limit i = some w') : w'.Valid := by
  obtain ⟨hle, rfl⟩ := ahead_eq_some h
  constructor
  · intro j hj
    rcases List.mem_append.mp hj with hj | hj
    · exact (hw.behind j hj).trans_le (hle.trans (Nat.le_succ i))
    · exact (bounds_of_mem_take hj).2.trans (Nat.lt_succ_self i)
  · refine List.nodup_append.mpr ⟨hw.nodup, ?_, ?_⟩
    · exact (List.nodup_range' 1 (by omega)).sublist (List.take_sublist _ _)
    · intro a ha b hb hab
      have := hw.behind a ha
      have := (bounds_of_mem_take hb).1
      omega

lemma Valid.accept {limit : ℕ} {w w' : Window} (hw : w.Valid) {i : ℕ}
    (h : w.accept limit i = some w') : w'.Valid := by
  by_cases hi : i ∈ w.kept
  · rw [accept_of_mem hi] at h
    obtain rfl := Option.some.inj h
    exact ⟨fun j hj => hw.behind j (List.mem_of_mem_erase hj), hw.nodup.erase i⟩
  · rw [accept_of_notMem hi] at h
    exact hw.ahead h

/-- Whichever way a number is taken, all up to it are passed. -/
lemma Valid.next_accept {limit : ℕ} {w w' : Window} (hw : w.Valid) {i : ℕ}
    (h : w.accept limit i = some w') : w'.next = max w.next (i + 1) := by
  rcases accept_eq_some h with ⟨hi, rfl⟩ | ⟨-, hle, rfl⟩
  · exact (max_eq_left (hw.behind i hi)).symm
  · exact (max_eq_right (hle.trans (Nat.le_succ i))).symm

/-! ## Numbers that are spent -/

/-- Passed and not kept: such a number cannot be taken any more. -/
def Spent (w : Window) (i : ℕ) : Prop := i < w.next ∧ i ∉ w.kept

/-- **A number is taken once.**  What can be taken is not spent, and is spent afterwards; what was
spent before still is. -/
lemma Valid.spent_accept {limit : ℕ} {w w' : Window} (hw : w.Valid) {i : ℕ}
    (h : w.accept limit i = some w') : ¬ w.Spent i ∧ w'.Spent i ∧ ∀ j, w.Spent j → w'.Spent j := by
  rcases accept_eq_some h with ⟨hi, rfl⟩ | ⟨hi, hle, rfl⟩
  · refine ⟨fun hspent => hspent.2 hi, ⟨hw.behind i hi, hw.nodup.not_mem_erase⟩, ?_⟩
    rintro j ⟨hlt, hj⟩
    exact ⟨hlt, fun hmem => hj (List.mem_of_mem_erase hmem)⟩
  · refine ⟨fun hspent => absurd hspent.1 (not_lt.mpr hle), ⟨Nat.lt_succ_self i, ?_⟩, ?_⟩
    · intro hmem
      rcases List.mem_append.mp hmem with hmem | hmem
      · exact hi hmem
      · exact absurd (bounds_of_mem_take hmem).2 (lt_irrefl i)
    · rintro j ⟨hlt, hj⟩
      refine ⟨(hlt.trans_le hle).trans (Nat.lt_succ_self i), ?_⟩
      intro hmem
      rcases List.mem_append.mp hmem with hmem | hmem
      · exact hj hmem
      · exact absurd (bounds_of_mem_take hmem).1 (not_le.mpr hlt)

/-- Nothing from before the start is kept, and no more than the limit. -/
structure Within (start limit : ℕ) (w : Window) : Prop where
  start_le : start ≤ w.next
  kept_ge : ∀ i ∈ w.kept, start ≤ i
  length_le : w.kept.length ≤ limit

lemma Within.accept {start limit : ℕ} {w w' : Window} (hw : w.Within start limit) {i : ℕ}
    (h : w.accept limit i = some w') : w'.Within start limit := by
  rcases accept_eq_some h with ⟨-, rfl⟩ | ⟨-, hle, rfl⟩
  · refine ⟨hw.start_le, fun j hj => hw.kept_ge j (List.mem_of_mem_erase hj), ?_⟩
    exact List.length_erase_le.trans hw.length_le
  · refine ⟨hw.start_le.trans (hle.trans (Nat.le_succ i)), ?_, ?_⟩
    · intro j hj
      rcases List.mem_append.mp hj with hj | hj
      · exact hw.kept_ge j hj
      · exact hw.start_le.trans (bounds_of_mem_take hj).1
    · have hlen := hw.length_le
      show (w.kept ++ _).length ≤ limit
      rw [List.length_append, List.length_take]
      omega

/-! ## Where the set of numbers taken puts the receiver -/

section Position

variable {start limit i n : ℕ} {taken taken' : List ℕ}

/-- The first number beyond all that were taken. -/
def frontier (start : ℕ) (taken : List ℕ) : ℕ := taken.foldl (fun n i => max n (i + 1)) start

/-- The numbers passed over and not taken. -/
def outstanding (start : ℕ) (taken : List ℕ) : List ℕ :=
  (List.range' start (frontier start taken - start)).filter (· ∉ taken)

@[simp] lemma frontier_concat :
    frontier start (taken ++ [i]) = max (frontier start taken) (i + 1) := by
  rw [frontier, List.foldl_append]
  rfl

lemma frontier_le_iff : frontier start taken ≤ n ↔ start ≤ n ∧ ∀ i ∈ taken, i < n := by
  induction taken using List.reverseRecOn with
  | nil => simp [frontier]
  | append_singleton taken i ih =>
      rw [frontier_concat, max_le_iff, ih]
      simp only [List.mem_append, List.mem_singleton]
      constructor
      · rintro ⟨⟨hstart, hall⟩, hi⟩
        refine ⟨hstart, ?_⟩
        rintro j (hj | rfl)
        · exact hall j hj
        · exact hi
      · rintro ⟨hstart, hall⟩
        exact ⟨⟨hstart, fun j hj => hall j (.inl hj)⟩, hall i (.inr rfl)⟩

lemma start_le_frontier : start ≤ frontier start taken := (frontier_le_iff.mp le_rfl).1

lemma lt_frontier (h : i ∈ taken) : i < frontier start taken := (frontier_le_iff.mp le_rfl).2 i h

lemma mem_outstanding :
    i ∈ outstanding start taken ↔ start ≤ i ∧ i < frontier start taken ∧ i ∉ taken := by
  have : start ≤ frontier start taken := start_le_frontier
  rw [outstanding, List.mem_filter, List.mem_range'_1, decide_eq_true_eq]
  constructor
  · rintro ⟨⟨hstart, hlt⟩, hnot⟩
    exact ⟨hstart, by omega, hnot⟩
  · rintro ⟨hstart, hlt, hnot⟩
    exact ⟨⟨hstart, by omega⟩, hnot⟩

/-- **Only the set matters.** -/
lemma frontier_congr (h : ∀ i, i ∈ taken ↔ i ∈ taken') :
    frontier start taken = frontier start taken' := by
  refine le_antisymm ?_ ?_
  · exact frontier_le_iff.mpr ⟨start_le_frontier, fun i hi => lt_frontier ((h i).mp hi)⟩
  · exact frontier_le_iff.mpr ⟨start_le_frontier, fun i hi => lt_frontier ((h i).mpr hi)⟩

lemma outstanding_congr (h : ∀ i, i ∈ taken ↔ i ∈ taken') :
    outstanding start taken = outstanding start taken' := by
  rw [outstanding, outstanding, frontier_congr h]
  refine List.filter_congr (fun i _ => ?_)
  rw [decide_eq_decide, h i]

/-- A range cut at one of its numbers and before the last one. -/
lemma range'_split {a m i : ℕ} (ham : a ≤ m) (hmi : m ≤ i) :
    List.range' a (i + 1 - a) = List.range' a (m - a) ++ (List.range' m (i - m) ++ [i]) := by
  obtain ⟨k, rfl⟩ := Nat.exists_eq_add_of_le ham
  obtain ⟨l, rfl⟩ := Nat.exists_eq_add_of_le hmi
  have hlen : a + k + l + 1 - a = k + (l + 1) := by omega
  rw [hlen, Nat.add_sub_cancel_left, Nat.add_sub_cancel_left, ← List.range'_append_1,
    List.range'_1_concat]

/-- A number ahead leaves the ones in between outstanding. -/
lemma outstanding_ahead (h : frontier start taken ≤ i) :
    outstanding start (taken ++ [i]) =
      outstanding start taken ++ List.range' (frontier start taken) (i - frontier start taken) := by
  have hfrontier : frontier start (taken ++ [i]) = i + 1 := by
    rw [frontier_concat]
    exact max_eq_right (by omega)
  rw [outstanding, hfrontier, range'_split start_le_frontier h, List.filter_append,
    List.filter_append]
  congr 1
  · refine List.filter_congr (fun j hj => ?_)
    have := List.mem_range'_1.mp hj
    have hne : j ≠ i := by omega
    rw [decide_eq_decide, List.mem_append, List.mem_singleton, or_iff_left hne]
  · have hlast : [i].filter (· ∉ taken ++ [i]) = [] := by simp
    rw [hlast, List.append_nil]
    refine List.filter_eq_self.mpr (fun j hj => ?_)
    have hrange := List.mem_range'_1.mp hj
    have hnot : j ∉ taken := fun hj' => by
      have : j < frontier start taken := lt_frontier hj'
      omega
    have hne : j ≠ i := by omega
    simp [hnot, hne]

/-- A late number is outstanding no more. -/
lemma outstanding_late (h : i ∈ outstanding start taken) :
    frontier start (taken ++ [i]) = frontier start taken ∧
      outstanding start (taken ++ [i]) = (outstanding start taken).erase i := by
  obtain ⟨-, hlt, -⟩ := mem_outstanding.mp h
  have hfrontier : frontier start (taken ++ [i]) = frontier start taken := by
    rw [frontier_concat]
    exact max_eq_left hlt
  refine ⟨hfrontier, ?_⟩
  have hnodup : (outstanding start taken).Nodup := (List.nodup_range' 1 (by omega)).filter _
  rw [hnodup.erase_eq_filter, outstanding, outstanding, hfrontier, List.filter_filter]
  refine List.filter_congr (fun j _ => ?_)
  by_cases hj : j = i <;> simp [hj]

/-- No gap exceeds the limit and room is left after each number. -/
def Fits (start limit : ℕ) (taken : List ℕ) : Prop :=
  ∀ before i after, taken = before ++ i :: after →
    i ≤ frontier start before + limit ∧ (outstanding start (before ++ [i])).length < limit

lemma Fits.left {more : List ℕ} (h : Fits start limit (taken ++ more)) :
    Fits start limit taken := by
  intro before j after htaken
  refine h before j (after ++ more) ?_
  rw [htaken, List.append_assoc, List.cons_append]

lemma fits_nil : Fits start limit [] := by
  intro before j after htaken
  cases before <;> cases htaken

lemma fits_concat : Fits start limit (taken ++ [i]) ↔ Fits start limit taken ∧
    i ≤ frontier start taken + limit ∧ (outstanding start (taken ++ [i])).length < limit := by
  constructor
  · intro h
    exact ⟨h.left, h taken i [] rfl⟩
  · rintro ⟨h, hlast⟩ before j after htaken
    -- the number is the last one or one of those before it
    rcases List.append_eq_append_iff.mp htaken with ⟨as, rfl, has⟩ | ⟨bs, rfl, hbs⟩
    · cases as with
      | nil =>
          obtain ⟨rfl, -⟩ := List.cons.inj has
          rw [List.append_nil]
          exact hlast
      | cons a as =>
          have hlen := congrArg List.length has
          simp at hlen
    · cases bs with
      | nil =>
          obtain ⟨rfl, -⟩ := List.cons.inj hbs
          rw [List.append_nil] at hlast
          exact hlast
      | cons b bs =>
          obtain ⟨rfl, -⟩ := List.cons.inj hbs
          exact h before j bs rfl

/-- Where the numbers taken put the receiver. -/
def after (start : ℕ) (taken : List ℕ) : Window := ⟨frontier start taken, outstanding start taken⟩

lemma after_nil : after start [] = ⟨start, []⟩ := by
  simp [after, frontier, outstanding]

/-- **One more number.**  It fits, it was not taken before and it is not from before the start:
then it is taken, and the set of numbers taken says where to. -/
lemma accept_after (hfits : Fits start limit (taken ++ [i])) (hnew : i ∉ taken)
    (hstart : start ≤ i) :
    (after start taken).accept limit i = some (after start (taken ++ [i])) := by
  obtain ⟨hgap, hroom⟩ := hfits taken i [] rfl
  by_cases hi : i ∈ outstanding start taken
  · obtain ⟨hfrontier, hout⟩ := outstanding_late hi
    have hkept : i ∈ (after start taken).kept := hi
    rw [accept_of_mem hkept, after, after, hfrontier, hout]
  · have hkept : i ∉ (after start taken).kept := hi
    have hle : frontier start taken ≤ i := by
      by_contra hlt
      exact hi (mem_outstanding.mpr ⟨hstart, not_le.mp hlt, hnew⟩)
    have hfrontier : frontier start (taken ++ [i]) = i + 1 := by
      rw [frontier_concat]
      exact max_eq_right (by omega)
    rw [outstanding_ahead hle, List.length_append, List.length_range'] at hroom
    have hwithin : (after start taken).next ≤ i ∧ i - (after start taken).next ≤ limit :=
      ⟨hle, show i - frontier start taken ≤ limit by omega⟩
    have hall : (List.range' (frontier start taken) (i - frontier start taken)).take
        (limit - (outstanding start taken).length) =
          List.range' (frontier start taken) (i - frontier start taken) := by
      refine List.take_of_length_le ?_
      rw [List.length_range']
      omega
    rw [accept_of_notMem hkept, ahead, if_pos hwithin, after, after, hfrontier,
      outstanding_ahead hle]
    exact congrArg some (congrArg (Window.mk (i + 1)) (congrArg _ hall))

/-- A number above all that were taken is ahead. -/
lemma notMem_kept_after (habove : ∀ j ∈ taken, j < i) (hstart : start ≤ i) :
    i ∉ (after start taken).kept := by
  intro hi
  have hle : frontier start taken ≤ i := frontier_le_iff.mpr ⟨hstart, habove⟩
  exact absurd (mem_outstanding.mp hi).2.1 (not_lt.mpr hle)

lemma after_congr (h : ∀ i, i ∈ taken ↔ i ∈ taken') : after start taken = after start taken' := by
  rw [after, after, frontier_congr h, outstanding_congr h]

lemma valid_after : (after start taken).Valid where
  behind := fun _ hi => (mem_outstanding.mp hi).2.1
  nodup := (List.nodup_range' 1 (by omega)).filter _

end Position

end Window
