import Hushwire.Library.Duplex

/-!
# Parties that climb together

Two machines whose states have a rank and whose messages have a level.  A message carries the
rank of its sender, and whoever is handed it climbs to its level if it is higher, and no higher.
Nothing is assumed of the order in which messages arrive, of how late they are and of how often.

Ranks never fall.  Two parties that have each heard the current rank of the other stand at the
same rank (`Climbing.rank_eq`), and they leave a common rank only through a message from above
that was already on its way (`Climbing.settled_run`).  If nothing was above its sender at the
start, nothing ever is (`Climbing.sent_le_run`).
-/

namespace Duplex

variable {S R M O α : Type} [LinearOrder α]

/-- A machine that sends its rank and climbs to what it hears.  `Inv` are the states and `Known`
the messages this is true of. -/
structure Climbs (A : Machine S R M O) (Inv : S → Prop) (Known : M → Prop) (rank : S → α)
    (level : M → α) : Prop where
  send : ∀ st r, Inv st → Inv (A.send st r).1 ∧ rank (A.send st r).1 = rank st ∧
    ∀ m ∈ (A.send st r).2.1, Known m ∧ level m = rank st
  recv : ∀ st m r, Inv st → Known m →
    Inv (A.recv st m r).1 ∧ rank (A.recv st m r).1 = max (rank st) (level m)

/-- A connection of two such machines, in which nobody stands below what was delivered to it. -/
structure Climbing (Inv : S → Prop) (Known : M → Prop) (rank : S → α) (level : M → α)
    (net : Net S M O) : Prop where
  inv : ∀ s, Inv (net.node s)
  known : ∀ s, ∀ m ∈ net.sent s, Known m
  got_lt : ∀ s, ∀ i ∈ net.got s, i < (net.sent s.other).length
  heard : ∀ s, ∀ i ∈ net.got s, ∀ m, (net.sent s.other)[i]? = some m → level m ≤ rank (net.node s)

namespace Climbing

variable {A : Machine S R M O} {Inv : S → Prop} {Known : M → Prop} {rank : S → α} {level : M → α}
  {net : Net S M O}

lemma known_get (h : Climbing Inv Known rank level net) {s : Side} {i : ℕ} {m : M}
    (hm : (net.sent s)[i]? = some m) : Known m := h.known s m (List.mem_of_getElem? hm)

/-- A send moves nobody. -/
lemma rank_sendAt (hA : Climbs A Inv Known rank level) (h : Climbing Inv Known rank level net)
    (s : Side) (r : R) (t : Side) : rank ((net.sendAt A s r).node t) = rank (net.node t) := by
  rcases Side.eq_or_eq_other s t with rfl | rfl
  · rw [Net.sendAt_node_self]
    exact (hA.send _ r (h.inv t)).2.1
  · rw [Net.sendAt_node_other]

/-- A delivery lifts the one it reaches. -/
lemma rank_deliverAt (hA : Climbs A Inv Known rank level) (h : Climbing Inv Known rank level net)
    {s : Side} {i : ℕ} {m : M} (hm : (net.sent s.other)[i]? = some m) (r : R) :
    rank ((net.deliverAt A s i m r).node s) = max (rank (net.node s)) (level m) ∧
      rank ((net.deliverAt A s i m r).node s.other) = rank (net.node s.other) := by
  rw [Net.deliverAt_node, Net.recvAt_node_self, Net.recvAt_node_other]
  exact ⟨(hA.recv _ m r (h.inv s) (h.known_get hm)).2, rfl⟩

/-- **Ranks never fall.** -/
lemma rank_le_step (hA : Climbs A Inv Known rank level) (h : Climbing Inv Known rank level net)
    {a : Action R M} (ha : a.Honest) (t : Side) :
    rank (net.node t) ≤ rank ((net.step A a).node t) := by
  refine Net.step_honest (P := fun net' => rank (net.node t) ≤ rank (net'.node t)) ha le_rfl ?_ ?_
  · intro s r
    rw [rank_sendAt hA h]
  · intro s i m r hm
    obtain ⟨hself, hother⟩ := rank_deliverAt hA h hm r
    rcases Side.eq_or_eq_other s t with rfl | rfl
    · rw [hself]
      exact le_max_left _ _
    · rw [hother]

lemma sendAt (hA : Climbs A Inv Known rank level) (h : Climbing Inv Known rank level net)
    (s : Side) (r : R) : Climbing Inv Known rank level (net.sendAt A s r) := by
  obtain ⟨hinv, -, hout⟩ := hA.send _ r (h.inv s)
  have hgrows := fun t => Net.grows_step (A := A) net (.send s r) t
  refine ⟨?_, ?_, ?_, ?_⟩
  · refine Net.forall_side s ?_ ?_
    · rwa [Net.sendAt_node_self]
    · rw [Net.sendAt_node_other]
      exact h.inv s.other
  · refine Net.forall_side s ?_ ?_
    · rw [Net.sendAt_sent_self]
      intro m hm
      rcases List.mem_append.mp hm with hm | hm
      · exact h.known s m hm
      · exact (hout m (Option.mem_toList.mp hm)).1
    · rw [Net.sendAt_sent_other]
      exact h.known s.other
  · intro t i hi
    exact (h.got_lt t i hi).trans_le (hgrows t.other).sent.length_le
  · intro t i hi m hm
    rw [rank_sendAt hA h]
    -- the position was taken before the send
    exact h.heard t i hi m (((hgrows t.other).getElem?_of_lt (h.got_lt t i hi)).symm.trans hm)

lemma deliverAt (hA : Climbs A Inv Known rank level) (h : Climbing Inv Known rank level net)
    {s : Side} {i : ℕ} {m : M} (hm : (net.sent s.other)[i]? = some m) (r : R) :
    Climbing Inv Known rank level (net.deliverAt A s i m r) := by
  obtain ⟨hself, hother⟩ := rank_deliverAt hA h hm r
  refine ⟨?_, h.known, ?_, ?_⟩
  · refine Net.forall_side s ?_ ?_
    · rw [Net.deliverAt_node, Net.recvAt_node_self]
      exact (hA.recv _ m r (h.inv s) (h.known_get hm)).1
    · rw [Net.deliverAt_node, Net.recvAt_node_other]
      exact h.inv s.other
  · refine Net.forall_side s ?_ ?_
    · rw [Net.deliverAt_got_self]
      intro j hj
      rcases List.mem_append.mp hj with hj | hj
      · exact h.got_lt s j hj
      · rw [List.mem_singleton.mp hj]
        exact (List.getElem?_eq_some_iff.mp hm).1
    · rw [Net.deliverAt_got_other]
      exact h.got_lt s.other
  · refine Net.forall_side s ?_ ?_
    · rw [Net.deliverAt_got_self, hself]
      intro j hj m' hm'
      rcases List.mem_append.mp hj with hj | hj
      · exact (h.heard s j hj m' hm').trans (le_max_left _ _)
      · rw [List.mem_singleton.mp hj] at hm'
        obtain rfl := Option.some.inj (hm.symm.trans hm')
        exact le_max_right _ _
    · rw [Net.deliverAt_got_other, hother]
      exact h.heard s.other

lemma step (hA : Climbs A Inv Known rank level) (h : Climbing Inv Known rank level net)
    {a : Action R M} (ha : a.Honest) : Climbing Inv Known rank level (net.step A a) :=
  Net.step_honest ha h (h.sendAt hA) (fun _ _ _ r hm => h.deliverAt hA hm r)

theorem run (hA : Climbs A Inv Known rank level) (h : Climbing Inv Known rank level net)
    {as : List (Action R M)} (has : ∀ a ∈ as, a.Honest) :
    Climbing Inv Known rank level (net.run A as) :=
  Net.run_invariant (fun _ _ h ha => h.step hA ha) as net h (Net.along_of_forall as net has)

theorem rank_le_run (hA : Climbs A Inv Known rank level) {as : List (Action R M)}
    (h : Climbing Inv Known rank level net) (has : ∀ a ∈ as, a.Honest) (t : Side) :
    rank (net.node t) ≤ rank ((net.run A as).node t) := by
  refine (Net.run_invariant
    (P := fun net' => Climbing Inv Known rank level net' ∧ rank (net.node t) ≤ rank (net'.node t))
    ?_ as net ⟨h, le_rfl⟩ (Net.along_of_forall as net has)).2
  rintro net' a ⟨h', hle⟩ ha
  exact ⟨h'.step hA ha, hle.trans (rank_le_step hA h' ha t)⟩

/-- If nothing is above its sender at the start, nothing ever is. -/
theorem sent_le_run (hA : Climbs A Inv Known rank level) (h : Climbing Inv Known rank level net)
    (hsent : ∀ s, ∀ m ∈ net.sent s, level m ≤ rank (net.node s)) {as : List (Action R M)}
    (has : ∀ a ∈ as, a.Honest) :
    ∀ s, ∀ m ∈ (net.run A as).sent s, level m ≤ rank ((net.run A as).node s) := by
  refine (Net.run_invariant (P := fun net' => Climbing Inv Known rank level net' ∧
      ∀ s, ∀ m ∈ net'.sent s, level m ≤ rank (net'.node s))
    ?_ as net ⟨h, hsent⟩ (Net.along_of_forall as net has)).2
  rintro net' a ⟨h', hsent'⟩ ha
  refine ⟨h'.step hA ha, ?_⟩
  have hup := rank_le_step hA h' ha
  refine Net.step_honest (P := fun net'' => (∀ t, rank (net'.node t) ≤ rank (net''.node t)) →
    ∀ s, ∀ m ∈ net''.sent s, level m ≤ rank (net''.node s)) ha ?_ ?_ ?_ hup
  · exact fun _ => hsent'
  · intro s r hle
    obtain ⟨-, -, hout⟩ := hA.send _ r (h'.inv s)
    refine Net.forall_side s ?_ ?_
    · intro m hm
      rw [Net.sendAt_sent_self] at hm
      refine le_trans ?_ (hle s)
      rcases List.mem_append.mp hm with hm | hm
      · exact hsent' s m hm
      · exact (hout m (Option.mem_toList.mp hm)).2.le
    · rw [Net.sendAt_sent_other]
      exact fun m hm => (hsent' s.other m hm).trans (hle s.other)
  · intro s i m r hm hle t m' hm'
    exact (hsent' t m' hm').trans (hle t)

/-- **Two parties that have heard each other agree.** -/
theorem rank_eq (h : Climbing Inv Known rank level net)
    (hheard : ∀ s, ∃ i m, i ∈ net.got s ∧ (net.sent s.other)[i]? = some m ∧
      level m = rank (net.node s.other)) : rank (net.node .alice) = rank (net.node .bob) := by
  have hle : ∀ s, rank (net.node s.other) ≤ rank (net.node s) := by
    intro s
    obtain ⟨i, m, hi, hm, hlevel⟩ := hheard s
    rw [← hlevel]
    exact h.heard s i hi m hm
  exact le_antisymm (hle .bob) (hle .alice)

/-- Since `start`, both have stood at `p` and so has everything they sent; or something from above
`p`, on its way at `start`, was delivered. -/
def Stays (rank : S → α) (level : M → α) (p : α) (start net : Net S M O) : Prop :=
  ((∀ s, rank (net.node s) = p) ∧
      ∀ s i m, (start.sent s).length ≤ i → (net.sent s)[i]? = some m → level m = p) ∨
    ∃ s i m, (start.sent s.other)[i]? = some m ∧ i ∉ start.got s ∧ i ∈ net.got s ∧ p < level m

lemma stays_step (hA : Climbs A Inv Known rank level) {start : Net S M O} {p : α}
    (hstart : Climbing Inv Known rank level start) (hp : ∀ s, rank (start.node s) = p)
    (h : Climbing Inv Known rank level net) (hgrows : ∀ s, Net.Grows start net s)
    (hstays : Stays rank level p start net) {a : Action R M} (ha : a.Honest) :
    Stays rank level p start (net.step A a) := by
  rcases hstays with ⟨hranks, hnew⟩ | ⟨s, i, m, hm, hnot, hgot, hlt⟩
  swap
  · exact .inr ⟨s, i, m, hm, hnot, (Net.grows_step (A := A) net a s).got.subset hgot, hlt⟩
  refine Net.step_honest ha (.inl ⟨hranks, hnew⟩) ?_ ?_
  · intro s r
    obtain ⟨-, -, hout⟩ := hA.send _ r (h.inv s)
    refine .inl ⟨fun t => (rank_sendAt hA h s r t).trans (hranks t), ?_⟩
    refine Net.forall_side s ?_ ?_
    · intro i m hle hm
      rw [Net.sendAt_sent_self, List.getElem?_append] at hm
      split at hm
      · exact hnew s i m hle hm
      · have hmem := Option.mem_toList.mp (List.mem_of_getElem? hm)
        rw [(hout m hmem).2, hranks]
    · rw [Net.sendAt_sent_other]
      exact hnew s.other
  · intro s i m r hm
    obtain ⟨hself, hother⟩ := rank_deliverAt hA h hm r
    by_cases hlt : p < level m
    · -- it was not sent since then, and had it been delivered before, nobody would be at `p`
      have hold : i < (start.sent s.other).length := by
        by_contra hle
        exact hlt.ne' (hnew s.other i m (not_lt.mp hle) hm)
      have hget : (start.sent s.other)[i]? = some m :=
        ((hgrows s.other).getElem?_of_lt hold).symm.trans hm
      refine .inr ⟨s, i, m, hget, ?_, ?_, hlt⟩
      · intro hgot
        have hle := hstart.heard s i hgot m hget
        rw [hp] at hle
        exact absurd hlt (not_lt.mpr hle)
      · rw [Net.deliverAt_got_self]
        exact List.mem_append_right _ (List.mem_singleton_self i)
    · refine .inl ⟨Net.forall_side s ?_ ?_, hnew⟩
      · rw [hself, hranks]
        exact max_eq_left (not_lt.mp hlt)
      · rw [hother, hranks]

/-- **A common rank is left only from above.**  From a connection in which both stand at `p`,
either both still do after any run, or the run delivered a message from above `p` that was already
on its way. -/
theorem settled_run (hA : Climbs A Inv Known rank level) (h : Climbing Inv Known rank level net)
    {p : α} (hp : ∀ s, rank (net.node s) = p) {as : List (Action R M)}
    (has : ∀ a ∈ as, a.Honest) :
    (∀ s, rank ((net.run A as).node s) = p) ∨
      ∃ s i m, (net.sent s.other)[i]? = some m ∧ i ∉ net.got s ∧ i ∈ (net.run A as).got s ∧
        p < level m := by
  have hstart : Stays rank level p net net := by
    refine .inl ⟨hp, ?_⟩
    intro s i m hle hm
    exact absurd (List.getElem?_eq_some_iff.mp hm).1 (not_lt.mpr hle)
  have hrun := Net.run_invariant (A := A)
    (P := fun net' => Climbing Inv Known rank level net' ∧ (∀ s, Net.Grows net net' s) ∧
      Stays rank level p net net')
    (Q := fun _ a => a.Honest) ?_ as net ⟨h, Net.Grows.refl net, hstart⟩
    (Net.along_of_forall as net has)
  · exact hrun.2.2.imp_left And.left
  · rintro net' a ⟨h', hgrows, hstays⟩ ha
    exact ⟨h'.step hA ha, fun s => (hgrows s).trans (Net.grows_step net' a s),
      stays_step hA h hp h' hgrows hstays ha⟩

end Climbing

end Duplex
