import Hushwire.Library.Climb
import Hushwire.Sesame.DeviceRecord

/-!
# Dual-init convergence

`src/protocol/sesame/convergence.rs`.  When both peers initiate at once, each ends up with several
sessions for the other, and they may be sending on different ones.  Here two records with the same
sessions take part in any exchange: a peer sends on its active session, and the other one, when a
message arrives, calls `record_decrypt_success` at the index where it holds that session.

The record climbs (`recordMachine_climbs`): its active priority is the rank, a message carries the
priority of the session it was sent on, and a decrypt leaves the higher of the two active.  What
follows for the two peers is `dual_init_converges`.
-/

namespace Hushwire

open Duplex

/-- What the caller writes to a session it used: its new data and the time. -/
structure SessionUse where
  data : Bytes
  now : Timestamp

/-- A peer's record as a machine.  A message is known by the priority of the session it was sent
on; one on a session that is not held is not decrypted.  The call reports what
`record_decrypt_success` returns. -/
def recordMachine : Machine DeviceRecord SessionUse ℕ (Option Bytes) where
  send record r :=
    ({ record with
        activeSession :=
          record.activeSession.map (fun s => { s with sessionData := r.data }.touch r.now) },
      record.activeSession.map (·.convergencePriority), [])
  recv record priority r :=
    match record.logicalIndexOf priority with
    | none => (record, [])
    | some k =>
        let out := record.recordDecryptSuccess k r.data r.now
        (out.2, [out.1])

/-- The sessions are those with the given priorities. -/
def DeviceRecord.Holds (priorities : List ℕ) (record : DeviceRecord) : Prop :=
  record.priorities.Perm priorities

/-- **A record climbs.**  It sends on its active session, and what it decrypts lifts it to that
session or leaves it where it is. -/
lemma recordMachine_climbs (priorities : List ℕ) :
    Climbs recordMachine (DeviceRecord.Holds priorities) (· ∈ priorities)
      DeviceRecord.activePriority (fun q => (q : WithBot ℕ)) where
  send record r hrecord := by
    have hmem : ∀ q ∈ record.activeSession.map (·.convergencePriority),
        q ∈ record.priorities ∧ (q : WithBot ℕ) = record.activePriority := by
      obtain ⟨active, inactive, key⟩ := record
      rintro q hq
      rcases active with _ | active
      · cases hq
      · obtain rfl := Option.some.inj hq
        exact ⟨List.mem_cons_self, rfl⟩
    obtain ⟨active, inactive, key⟩ := record
    refine ⟨?_, ?_, ?_⟩
    · rcases active with _ | active
      · exact hrecord
      · exact hrecord
    · rcases active with _ | active
      · rfl
      · rfl
    · intro q hq
      exact ⟨hrecord.mem_iff.mp (hmem q hq).1, (hmem q hq).2⟩
  recv record q r hrecord hq := by
    obtain ⟨k, hk⟩ := DeviceRecord.exists_logicalIndexOf (hrecord.mem_iff.mpr hq)
    obtain ⟨hperm, hpriority⟩ := DeviceRecord.recordDecryptSuccess_spec hk r.data r.now
    simp only [recordMachine, hk]
    exact ⟨hperm.trans hrecord, hpriority⟩

/-- Two peers that hold the same sessions, told apart by their priorities.  Messages on these
sessions may already be on their way; none has been delivered. -/
structure Meeting (priorities : List ℕ) (net : Net DeviceRecord ℕ (Option Bytes)) : Prop where
  distinct : priorities.Nodup
  holds : ∀ s, (net.node s).Holds priorities
  inFlight : ∀ s, ∀ q ∈ net.sent s, q ∈ priorities
  got_nil : ∀ s, net.got s = []

/-- The peer sends on the session of priority `q`, and on no other. -/
structure DeviceRecord.SendsOn (record : DeviceRecord) (q : ℕ) : Prop where
  active : record.activePriority = q
  only : ∀ e ∈ record.inactiveSessions, e.convergencePriority ≠ q

section Peers

variable {priorities : List ℕ} {net : Net DeviceRecord ℕ (Option Bytes)}

lemma Meeting.climbing (h : Meeting priorities net) :
    Climbing (DeviceRecord.Holds priorities) (· ∈ priorities) DeviceRecord.activePriority
      (fun q => (q : WithBot ℕ)) net where
  inv := h.holds
  known := h.inFlight
  got_lt s i hi := by rw [h.got_nil s] at hi; cases hi
  heard s i hi := by rw [h.got_nil s] at hi; cases hi

/-- With distinct priorities, the priority says which session is active. -/
lemma DeviceRecord.Holds.sendsOn {record : DeviceRecord} {q : ℕ} (h : record.Holds priorities)
    (hdistinct : priorities.Nodup) (hq : record.activePriority = q) : record.SendsOn q := by
  refine ⟨hq, ?_⟩
  obtain ⟨active, inactive, key⟩ := record
  rintro e he rfl
  rcases active with _ | active
  · exact WithBot.bot_ne_coe hq
  · have hnodup := h.nodup_iff.mpr hdistinct
    refine (List.nodup_cons.mp hnodup).1 (List.mem_map.mpr ⟨e, he, ?_⟩)
    exact (WithBot.coe_injective hq).symm

end Peers

/-- **Dual-init convergence.**  Two peers hold the same sessions and send on whichever is active,
over a network that loses, delays, reorders and repeats messages.

1. No active priority ever decreases.
2. If each has decrypted a message that the other sent on what is now the other's active session,
   both send on one and the same session.
3. If both have the same active priority, that stays so unless a message is delivered that was
   already on its way on a session of strictly higher priority. -/
theorem dual_init_converges {priorities : List ℕ} {net : Net DeviceRecord ℕ (Option Bytes)}
    (hnet : Meeting priorities net) {as bs : List (Action SessionUse ℕ)}
    (has : ∀ a ∈ as, a.Honest) (hbs : ∀ a ∈ bs, a.Honest) :
    let mid := net.run recordMachine as
    let late := mid.run recordMachine bs
    (∀ s, (mid.node s).activePriority ≤ (late.node s).activePriority) ∧
      ((∀ s, ∃ i q, i ∈ mid.got s ∧ (mid.sent s.other)[i]? = some q ∧
          (mid.node s.other).activePriority = q) → ∃ q, ∀ s, (mid.node s).SendsOn q) ∧
      ∀ p, (∀ s, (mid.node s).activePriority = p) →
        (∀ s, (late.node s).activePriority = p) ∨
          ∃ s i, ∃ q : ℕ, (mid.sent s.other)[i]? = some q ∧ i ∉ mid.got s ∧ i ∈ late.got s ∧
            p < q := by
  intro mid late
  have hclimbs := recordMachine_climbs priorities
  have hmid := hnet.climbing.run hclimbs has
  refine ⟨?_, ?_, ?_⟩
  · exact hmid.rank_le_run hclimbs hbs
  · intro hheard
    have heq := hmid.rank_eq (fun s => by
      obtain ⟨i, q, hi, hq, hactive⟩ := hheard s
      exact ⟨i, q, hi, hq, hactive.symm⟩)
    obtain ⟨-, q, -, -, hbob⟩ := hheard .alice
    refine ⟨q, Net.forall_side .alice ?_ ?_⟩
    · exact (hmid.inv .alice).sendsOn hnet.distinct (heq.trans hbob)
    · exact (hmid.inv .bob).sendsOn hnet.distinct hbob
  · intro p hp
    exact hmid.settled_run hclimbs hp hbs

/-- Alice sends on session 3, Bob on session 9. -/
def dualInit : Net DeviceRecord ℕ (Option Bytes) := .init fun
  | .alice => ⟨some (.newWithPriority [] .initiating 0 3), [.newWithPriority [] .regular 0 9], none⟩
  | .bob => ⟨some (.newWithPriority [] .initiating 0 9), [.newWithPriority [] .regular 0 3], none⟩

lemma dualInit_meeting : Meeting [3, 9] dualInit where
  distinct := by decide
  holds := Net.forall_side .alice (.refl _) (.swap _ _ _)
  inFlight _ _ hq := by cases hq
  got_nil _ := rfl

/-- Both send, Alice gets Bob's message, answers, and Bob gets the answer. -/
def dualInitExchange : List (Action SessionUse ℕ) :=
  [.send .alice ⟨[], 1⟩, .send .bob ⟨[], 1⟩, .deliver .alice 0 ⟨[], 2⟩, .send .alice ⟨[], 3⟩,
    .deliver .bob 1 ⟨[], 4⟩]

theorem dual_init_converges_once :
    ∃ q, ∀ s, ((dualInit.run recordMachine dualInitExchange).node s).SendsOn q := by
  have has : ∀ a ∈ dualInitExchange, a.Honest := by
    intro a ha
    simp only [dualInitExchange, List.mem_cons, List.not_mem_nil, or_false] at ha
    rcases ha with rfl | rfl | rfl | rfl | rfl <;> trivial
  have hnone : ∀ a ∈ ([] : List (Action SessionUse ℕ)), a.Honest := fun a ha => by cases ha
  refine (dual_init_converges dualInit_meeting has hnone).2.1 (Net.forall_side .alice ?_ ?_)
  · exact ⟨0, 9, by decide, rfl, rfl⟩
  · exact ⟨1, 9, by decide, rfl, rfl⟩

/-- **Converged for good.**  If nothing is on its way when the peers meet, then once they have the
same active priority they keep it: nobody has ever sent on a session above their own. -/
theorem converged_for_good {priorities : List ℕ} {net : Net DeviceRecord ℕ (Option Bytes)}
    (hnet : Meeting priorities net) (hquiet : ∀ s, net.sent s = [])
    {as bs : List (Action SessionUse ℕ)} (has : ∀ a ∈ as, a.Honest) (hbs : ∀ a ∈ bs, a.Honest)
    {p : WithBot ℕ} (hp : ∀ s, ((net.run recordMachine as).node s).activePriority = p) :
    ∀ s, (((net.run recordMachine as).run recordMachine bs).node s).activePriority = p := by
  have hclimbs := recordMachine_climbs priorities
  have hmid := hnet.climbing.run hclimbs has
  have hsent := hnet.climbing.sent_le_run hclimbs (fun s q hq => by rw [hquiet s] at hq; cases hq)
    has
  rcases hmid.settled_run hclimbs hp hbs with h | ⟨s, i, q, hq, -, -, hlt⟩
  · exact h
  · have hle := hsent s.other q (List.mem_of_getElem? hq)
    rw [hp] at hle
    exact absurd hlt (not_lt.mpr hle)

end Hushwire
