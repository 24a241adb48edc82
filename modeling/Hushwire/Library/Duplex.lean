import Mathlib.Data.List.Basic
import Mathlib.Tactic

/-!
# Two machines over an unreliable network

A protocol run by two parties that exchange messages over a network nobody trusts.  Each
party is a `Machine`: a state, a way to produce the next message from fresh randomness, and
a way to consume a message.  Both may also report *observations* (a secret that completed,
a key that was handed out), which the network records per side but no machine can read.

## Local runs

`Machine.exec` is a machine on its own, fed an arbitrary list of calls.  `Machine.Inductive`
is the shape of a local invariant: a predicate on a state and the observations made so far
that every call preserves, whatever message it is handed.

## The network

`Net` holds the two states, what each side has sent so far, which of the peer's messages
each side has been handed, and the observations.  An `Action` is a send, the delivery of the
`i`-th message the peer ever sent (so loss, delay, reordering and duplication are all
choices of the action list), or the injection of a message nobody sent.  `Net.Along` says
that every step of a run meets a condition on the state it is taken in, and
`Net.run_invariant` is the induction every safety result over runs goes through.

`Net.local_run` and `Net.inductive_run` lift a local invariant to both ends of a network,
`Net.map_run` takes a run of a machine that contains another to a run of the inner one, and
`Net.rounds_reach` is the progress rule: a bound on the number of loss-free rounds still
needed that falls with every round.
-/

namespace Duplex

/-! ## Sides -/

/-- The two ends of a connection. -/
inductive Side
  | alice
  | bob
  deriving DecidableEq, Repr

namespace Side

/-- The peer. -/
def other : Side → Side
  | alice => bob
  | bob => alice

@[simp] lemma other_other (s : Side) : s.other.other = s := by cases s <;> rfl

@[simp] lemma other_ne (s : Side) : s.other ≠ s := by cases s <;> decide

@[simp] lemma ne_other (s : Side) : s ≠ s.other := by cases s <;> decide

lemma eq_or_eq_other (s t : Side) : t = s ∨ t = s.other := by
  cases s <;> cases t <;> decide

lemma eq_other_of_ne {s t : Side} (h : t ≠ s) : t = s.other :=
  (eq_or_eq_other s t).resolve_left h

end Side

/-! ## Machines and their local runs -/

/-- One party: `send` produces the next message (or none, when the call fails), `recv`
consumes one.  Both return the observations the call made. -/
structure Machine (S R M O : Type) where
  send : S → R → S × Option M × List O
  recv : S → M → R → S × List O

/-- One call on a machine taken on its own. -/
inductive Call (R M : Type)
  | send (r : R)
  | recv (m : M) (r : R)

variable {S R M O : Type}

namespace Machine

/-- The state and the observations a call leaves. -/
def call (A : Machine S R M O) (st : S) : Call R M → S × List O
  | .send r => ((A.send st r).1, (A.send st r).2.2)
  | .recv m r => A.recv st m r

/-- Run a list of calls, collecting the observations in order. -/
def exec (A : Machine S R M O) (p : S × List O) (cs : List (Call R M)) : S × List O :=
  cs.foldl (fun p c => ((A.call p.1 c).1, p.2 ++ (A.call p.1 c).2)) p

/-- A predicate on a state and the observations so far that every call preserves, whatever
it is called with. -/
structure Inductive (A : Machine S R M O) (P : S → List O → Prop) : Prop where
  send : ∀ st log r, P st log → P (A.send st r).1 (log ++ (A.send st r).2.2)
  recv : ∀ st log m r, P st log → P (A.recv st m r).1 (log ++ (A.recv st m r).2)

lemma Inductive.call {A : Machine S R M O} {P : S → List O → Prop} (hP : A.Inductive P)
    {st : S} {log : List O} (h : P st log) (c : Call R M) :
    P (A.call st c).1 (log ++ (A.call st c).2) := by
  cases c with
  | send r => exact hP.send st log r h
  | recv m r => exact hP.recv st log m r h

/-- A local invariant holds after any list of calls. -/
lemma Inductive.exec {A : Machine S R M O} {P : S → List O → Prop} (hP : A.Inductive P)
    (cs : List (Call R M)) : ∀ p : S × List O, P p.1 p.2 →
      P (A.exec p cs).1 (A.exec p cs).2 := by
  induction cs with
  | nil => intro p h; exact h
  | cons c cs ih => intro p h; exact ih _ (hP.call h c)

@[simp] lemma exec_nil (A : Machine S R M O) (p : S × List O) : A.exec p [] = p := rfl

@[simp] lemma exec_cons (A : Machine S R M O) (st : S) (log : List O) (c : Call R M)
    (cs : List (Call R M)) :
    A.exec (st, log) (c :: cs) = A.exec ((A.call st c).1, log ++ (A.call st c).2) cs := rfl

@[simp] lemma call_send (A : Machine S R M O) (st : S) (r : R) :
    A.call st (.send r) = ((A.send st r).1, (A.send st r).2.2) := rfl

@[simp] lemma call_recv (A : Machine S R M O) (st : S) (m : M) (r : R) :
    A.call st (.recv m r) = A.recv st m r := rfl

lemma exec_append (A : Machine S R M O) (p : S × List O) (cs ds : List (Call R M)) :
    A.exec p (cs ++ ds) = A.exec (A.exec p cs) ds := List.foldl_append

/-- Calls add observations and take none back. -/
lemma prefix_exec (A : Machine S R M O) (p : S × List O) (cs : List (Call R M)) :
    p.2 <+: (A.exec p cs).2 := by
  have hgrows : A.Inductive (fun _ log => p.2 <+: log) :=
    ⟨fun _ _ _ h => h.trans (List.prefix_append _ _),
      fun _ _ _ _ h => h.trans (List.prefix_append _ _)⟩
  exact hgrows.exec cs p (List.prefix_refl _)

end Machine

/-! ## The network -/

/-- A state of the connection.  `sent s` lists what `s` has sent, oldest first; `got s`
lists the positions in the peer's list that have been delivered to `s`. -/
structure Net (S M O : Type) where
  node : Side → S
  sent : Side → List M
  got : Side → List ℕ
  log : Side → List O

/-- What the environment can make happen. -/
inductive Action (R M : Type)
  /-- `s` sends its next message. -/
  | send (s : Side) (r : R)
  /-- The `i`-th message of the peer reaches `s`. -/
  | deliver (s : Side) (i : ℕ) (r : R)
  /-- A message of the attacker's choice reaches `s`. -/
  | inject (s : Side) (m : M) (r : R)

/-- An action of an honest (though unreliable) network. -/
def Action.Honest : Action R M → Prop
  | .send _ _ => True
  | .deliver _ _ _ => True
  | .inject _ _ _ => False

/-- The same action with its messages translated. -/
def Action.map {M' : Type} (g : M → M') : Action R M → Action R M'
  | .send s r => .send s r
  | .deliver s i r => .deliver s i r
  | .inject s m r => .inject s (g m) r

lemma forall_honest_map {M' : Type} (g : M → M') {as : List (Action R M)}
    (h : ∀ a ∈ as, a.Honest) : ∀ b ∈ as.map (Action.map g), b.Honest := by
  intro b hb
  obtain ⟨a, ha, rfl⟩ := List.mem_map.mp hb
  have hhonest := h a ha
  cases a with
  | send s r => trivial
  | deliver s i r => trivial
  | inject s m r => exact hhonest

/-- An honest action names no message, so it can be played on any other machine. -/
lemma exists_map_eq {M' : Type} (g : M → M') (bs : List (Action R M')) (h : ∀ b ∈ bs, b.Honest) :
    ∃ as : List (Action R M), (∀ a ∈ as, a.Honest) ∧ as.map (Action.map g) = bs := by
  induction bs with
  | nil => exact ⟨[], by simp, rfl⟩
  | cons b bs ih =>
      obtain ⟨as, has, rfl⟩ := ih (fun b hb => h b (List.mem_cons_of_mem _ hb))
      have hone : ∃ a : Action R M, a.Honest ∧ a.map g = b := by
        cases b with
        | send s r => exact ⟨.send s r, trivial, rfl⟩
        | deliver s i r => exact ⟨.deliver s i r, trivial, rfl⟩
        | inject s m r => exact (h _ List.mem_cons_self).elim
      obtain ⟨a, ha, rfl⟩ := hone
      exact ⟨a :: as, List.forall_mem_cons.mpr ⟨ha, has⟩, rfl⟩

namespace Net

/-- Nothing sent, nothing delivered, nothing observed. -/
def init (node : Side → S) : Net S M O where
  node := node
  sent := fun _ => []
  got := fun _ => []
  log := fun _ => []

variable (A : Machine S R M O)

/-- `s` sends. -/
def sendAt (net : Net S M O) (s : Side) (r : R) : Net S M O where
  node := Function.update net.node s (A.send (net.node s) r).1
  sent := Function.update net.sent s (net.sent s ++ (A.send (net.node s) r).2.1.toList)
  got := net.got
  log := Function.update net.log s (net.log s ++ (A.send (net.node s) r).2.2)

/-- `s` is handed `m`. -/
def recvAt (net : Net S M O) (s : Side) (m : M) (r : R) : Net S M O where
  node := Function.update net.node s (A.recv (net.node s) m r).1
  sent := net.sent
  got := net.got
  log := Function.update net.log s (net.log s ++ (A.recv (net.node s) m r).2)

/-- `s` is handed the peer's message `m`, which sits at position `i`. -/
def deliverAt (net : Net S M O) (s : Side) (i : ℕ) (m : M) (r : R) : Net S M O :=
  { net.recvAt A s m r with got := Function.update net.got s (net.got s ++ [i]) }

/-- One action; a delivery of a message that was never sent does nothing. -/
def step (net : Net S M O) : Action R M → Net S M O
  | .send s r => net.sendAt A s r
  | .deliver s i r =>
      match (net.sent s.other)[i]? with
      | none => net
      | some m => net.deliverAt A s i m r
  | .inject s m r => net.recvAt A s m r

/-- A list of actions, in order. -/
def run (net : Net S M O) (as : List (Action R M)) : Net S M O :=
  as.foldl (step A) net

/-- Every step of the run meets `Q` in the state it is taken in. -/
def Along (Q : Net S M O → Action R M → Prop) : Net S M O → List (Action R M) → Prop
  | _, [] => True
  | net, a :: as => Q net a ∧ Along Q (net.step A a) as

variable {A}

@[simp] lemma run_nil (net : Net S M O) : net.run A [] = net := rfl

@[simp] lemma run_cons (net : Net S M O) (a : Action R M) (as : List (Action R M)) :
    net.run A (a :: as) = (net.step A a).run A as := rfl

lemma run_append (net : Net S M O) (as bs : List (Action R M)) :
    net.run A (as ++ bs) = (net.run A as).run A bs := by
  simp [run, List.foldl_append]

lemma along_append {Q : Net S M O → Action R M → Prop} (as bs : List (Action R M)) :
    ∀ net : Net S M O, Along A Q net (as ++ bs) ↔
      Along A Q net as ∧ Along A Q (net.run A as) bs := by
  induction as with
  | nil => intro net; simp [Along]
  | cons a as ih => intro net; simp [Along, ih, and_assoc]

lemma along_and {Q Q' : Net S M O → Action R M → Prop} (as : List (Action R M)) :
    ∀ net : Net S M O, Along A Q net as → Along A Q' net as →
      Along A (fun net a => Q net a ∧ Q' net a) net as := by
  induction as with
  | nil => intro net _ _; trivial
  | cons a as ih => intro net hq hq'; exact ⟨⟨hq.1, hq'.1⟩, ih _ hq.2 hq'.2⟩

lemma along_mono {Q Q' : Net S M O → Action R M → Prop} (h : ∀ net a, Q net a → Q' net a)
    (as : List (Action R M)) : ∀ net : Net S M O, Along A Q net as → Along A Q' net as := by
  induction as with
  | nil => intro net _; trivial
  | cons a as ih => intro net hq; exact ⟨h net a hq.1, ih _ hq.2⟩

/-- A condition on the actions alone holds along a run exactly when it holds of each. -/
lemma along_of_forall {p : Action R M → Prop} (as : List (Action R M)) :
    ∀ net : Net S M O, (∀ a ∈ as, p a) → Along A (fun _ a => p a) net as := by
  induction as with
  | nil => intro net _; trivial
  | cons a as ih =>
      intro net h
      exact ⟨h a (by simp), ih _ (fun b hb => h b (by simp [hb]))⟩

/-- **The induction over runs.**  What holds at the start and survives every step that
meets `Q` holds after every run whose steps all meet `Q`. -/
theorem run_invariant {P : Net S M O → Prop} {Q : Net S M O → Action R M → Prop}
    (hstep : ∀ net a, P net → Q net a → P (net.step A a)) (as : List (Action R M)) :
    ∀ net, P net → Along A Q net as → P (net.run A as) := by
  induction as with
  | nil => intro net h _; exact h
  | cons a as ih => intro net h hq; exact ih _ (hstep net a h hq.1) hq.2

/-- What the invariant allows at every step holds along the whole run. -/
theorem along_of_invariant {P : Net S M O → Prop} {Q Q' : Net S M O → Action R M → Prop}
    (hstep : ∀ net a, P net → Q net a → P (net.step A a))
    (hQ : ∀ net a, P net → Q net a → Q' net a) (as : List (Action R M)) :
    ∀ net, P net → Along A Q net as → Along A Q' net as := by
  induction as with
  | nil => intro net _ _; trivial
  | cons a as ih =>
      intro net h hq
      exact ⟨hQ net a h hq.1, ih _ (hstep net a h hq.1) hq.2⟩

/-- What a run brings about is brought about by one of its steps. -/
lemma exists_step_of_run {p : Net S M O → Prop} (as : List (Action R M)) :
    ∀ net : Net S M O, ¬ p net → p (net.run A as) →
      ∃ pre a post, as = pre ++ a :: post ∧ ¬ p (net.run A pre) ∧ p (net.run A (pre ++ [a])) := by
  induction as with
  | nil => intro net hnot h; exact absurd h hnot
  | cons a as ih =>
      intro net hnot h
      by_cases hstep : p (net.step A a)
      · exact ⟨[], a, as, rfl, hnot, hstep⟩
      · obtain ⟨pre, b, post, rfl, hpre, hpost⟩ := ih _ hstep h
        exact ⟨a :: pre, b, post, rfl, hpre, hpost⟩

/-! ### What a step changes -/

@[simp] lemma init_node (node : Side → S) (s : Side) :
    (init node : Net S M O).node s = node s := rfl

@[simp] lemma init_sent (node : Side → S) (s : Side) :
    (init node : Net S M O).sent s = [] := rfl

@[simp] lemma init_got (node : Side → S) (s : Side) :
    (init node : Net S M O).got s = [] := rfl

@[simp] lemma init_log (node : Side → S) (s : Side) :
    (init node : Net S M O).log s = [] := rfl

@[simp] lemma sendAt_node_self (net : Net S M O) (s : Side) (r : R) :
    (net.sendAt A s r).node s = (A.send (net.node s) r).1 := by simp [sendAt]

@[simp] lemma sendAt_node_other (net : Net S M O) (s : Side) (r : R) :
    (net.sendAt A s r).node s.other = net.node s.other := by simp [sendAt]

@[simp] lemma sendAt_sent_self (net : Net S M O) (s : Side) (r : R) :
    (net.sendAt A s r).sent s = net.sent s ++ (A.send (net.node s) r).2.1.toList := by
  simp [sendAt]

@[simp] lemma sendAt_sent_other (net : Net S M O) (s : Side) (r : R) :
    (net.sendAt A s r).sent s.other = net.sent s.other := by simp [sendAt]

@[simp] lemma sendAt_got (net : Net S M O) (s : Side) (r : R) :
    (net.sendAt A s r).got = net.got := rfl

@[simp] lemma sendAt_log_self (net : Net S M O) (s : Side) (r : R) :
    (net.sendAt A s r).log s = net.log s ++ (A.send (net.node s) r).2.2 := by simp [sendAt]

@[simp] lemma sendAt_log_other (net : Net S M O) (s : Side) (r : R) :
    (net.sendAt A s r).log s.other = net.log s.other := by simp [sendAt]

@[simp] lemma recvAt_node_self (net : Net S M O) (s : Side) (m : M) (r : R) :
    (net.recvAt A s m r).node s = (A.recv (net.node s) m r).1 := by simp [recvAt]

@[simp] lemma recvAt_node_other (net : Net S M O) (s : Side) (m : M) (r : R) :
    (net.recvAt A s m r).node s.other = net.node s.other := by simp [recvAt]

@[simp] lemma recvAt_sent (net : Net S M O) (s : Side) (m : M) (r : R) :
    (net.recvAt A s m r).sent = net.sent := rfl

@[simp] lemma recvAt_got (net : Net S M O) (s : Side) (m : M) (r : R) :
    (net.recvAt A s m r).got = net.got := rfl

@[simp] lemma recvAt_log_self (net : Net S M O) (s : Side) (m : M) (r : R) :
    (net.recvAt A s m r).log s = net.log s ++ (A.recv (net.node s) m r).2 := by simp [recvAt]

@[simp] lemma recvAt_log_other (net : Net S M O) (s : Side) (m : M) (r : R) :
    (net.recvAt A s m r).log s.other = net.log s.other := by simp [recvAt]

@[simp] lemma deliverAt_node (net : Net S M O) (s : Side) (i : ℕ) (m : M) (r : R) :
    (net.deliverAt A s i m r).node = (net.recvAt A s m r).node := rfl

@[simp] lemma deliverAt_sent (net : Net S M O) (s : Side) (i : ℕ) (m : M) (r : R) :
    (net.deliverAt A s i m r).sent = net.sent := rfl

@[simp] lemma deliverAt_log (net : Net S M O) (s : Side) (i : ℕ) (m : M) (r : R) :
    (net.deliverAt A s i m r).log = (net.recvAt A s m r).log := rfl

@[simp] lemma deliverAt_got_self (net : Net S M O) (s : Side) (i : ℕ) (m : M) (r : R) :
    (net.deliverAt A s i m r).got s = net.got s ++ [i] := by simp [deliverAt]

@[simp] lemma deliverAt_got_other (net : Net S M O) (s : Side) (i : ℕ) (m : M) (r : R) :
    (net.deliverAt A s i m r).got s.other = net.got s.other := by simp [deliverAt, recvAt]

lemma step_send (net : Net S M O) (s : Side) (r : R) :
    net.step A (.send s r) = net.sendAt A s r := rfl

lemma step_inject (net : Net S M O) (s : Side) (m : M) (r : R) :
    net.step A (.inject s m r) = net.recvAt A s m r := rfl

lemma step_deliver_none {net : Net S M O} {s : Side} {i : ℕ} (r : R)
    (h : (net.sent s.other)[i]? = none) : net.step A (.deliver s i r) = net := by
  simp [step, h]

lemma step_deliver_some {net : Net S M O} {s : Side} {i : ℕ} {m : M} (r : R)
    (h : (net.sent s.other)[i]? = some m) :
    net.step A (.deliver s i r) = net.deliverAt A s i m r := by
  simp [step, h]

/-- **One honest step.**  It is a send, the delivery of a message that was sent, or nothing. -/
lemma step_honest {P : Net S M O → Prop} {net : Net S M O} {a : Action R M} (ha : a.Honest)
    (hsame : P net) (hsend : ∀ s r, P (net.sendAt A s r))
    (hdeliver : ∀ s i m r, (net.sent s.other)[i]? = some m → P (net.deliverAt A s i m r)) :
    P (net.step A a) := by
  rcases a with ⟨s, r⟩ | ⟨s, i, r⟩ | ⟨s, m, r⟩
  · exact hsend s r
  · rcases hm : (net.sent s.other)[i]? with _ | m
    · rw [step_deliver_none r hm]
      exact hsame
    · rw [step_deliver_some r hm]
      exact hdeliver s i m r hm
  · exact ha.elim

/-- What a step by `s` leaves when the call it makes is known: the state of the caller, what it
sent and what it reported.  The peer is where it was. -/
structure Moves (net net' : Net S M O) (s : Side) (st : S) (out : List M) (evs : List O) :
    Prop where
  node_self : net'.node s = st
  node_other : net'.node s.other = net.node s.other
  sent_self : net'.sent s = net.sent s ++ out
  sent_other : net'.sent s.other = net.sent s.other
  got_other : net'.got s.other = net.got s.other
  log_self : net'.log s = net.log s ++ evs
  log_other : net'.log s.other = net.log s.other

lemma moves_send (net : Net S M O) (s : Side) {r : R} {st : S} {om : Option M} {evs : List O}
    (h : A.send (net.node s) r = (st, om, evs)) :
    Moves net (net.step A (.send s r)) s st om.toList evs := by
  rw [step_send]
  refine ⟨?_, sendAt_node_other net s r, ?_, sendAt_sent_other net s r, rfl, ?_,
    sendAt_log_other net s r⟩
  · rw [sendAt_node_self, h]
  · rw [sendAt_sent_self, h]
  · rw [sendAt_log_self, h]

lemma moves_deliver (net : Net S M O) (s : Side) {i : ℕ} {m : M} {r : R} {st : S} {evs : List O}
    (hm : (net.sent s.other)[i]? = some m) (h : A.recv (net.node s) m r = (st, evs)) :
    Moves net (net.step A (.deliver s i r)) s st [] evs := by
  rw [step_deliver_some r hm]
  refine ⟨?_, recvAt_node_other net s m r, (List.append_nil _).symm, rfl,
    deliverAt_got_other net s i m r, ?_, recvAt_log_other net s m r⟩
  · rw [deliverAt_node, recvAt_node_self, h]
  · rw [deliverAt_log, recvAt_log_self, h]

/-- What a connection remembers: deliveries, messages and observations are only ever added. -/
structure Grows (net net' : Net S M O) (s : Side) : Prop where
  got : net.got s <+: net'.got s
  sent : net.sent s <+: net'.sent s
  log : net.log s <+: net'.log s

lemma Grows.refl (net : Net S M O) (s : Side) : Grows net net s :=
  ⟨List.prefix_rfl, List.prefix_rfl, List.prefix_rfl⟩

lemma Grows.trans {net net' net'' : Net S M O} {s : Side} (h : Grows net net' s)
    (h' : Grows net' net'' s) : Grows net net'' s :=
  ⟨h.got.trans h'.got, h.sent.trans h'.sent, h.log.trans h'.log⟩

lemma grows_recvAt (net : Net S M O) (t : Side) (m : M) (r : R) (s : Side) :
    Grows net (net.recvAt A t m r) s := by
  refine ⟨List.prefix_rfl, List.prefix_rfl, ?_⟩
  rcases Side.eq_or_eq_other t s with rfl | rfl
  · rw [recvAt_log_self]
    exact List.prefix_append _ _
  · rw [recvAt_log_other]

lemma grows_step (net : Net S M O) (a : Action R M) (s : Side) : Grows net (net.step A a) s := by
  cases a with
  | send t r =>
      rw [step_send]
      rcases Side.eq_or_eq_other t s with rfl | rfl
      · refine ⟨List.prefix_rfl, ?_, ?_⟩
        · rw [sendAt_sent_self]
          exact List.prefix_append _ _
        · rw [sendAt_log_self]
          exact List.prefix_append _ _
      · refine ⟨List.prefix_rfl, ?_, ?_⟩
        · rw [sendAt_sent_other]
        · rw [sendAt_log_other]
  | deliver t i r =>
      cases hm : (net.sent t.other)[i]? with
      | none =>
          rw [step_deliver_none r hm]
          exact .refl net s
      | some m =>
          have hrecv := grows_recvAt (A := A) net t m r s
          rw [step_deliver_some r hm]
          refine ⟨?_, hrecv.sent, hrecv.log⟩
          rcases Side.eq_or_eq_other t s with rfl | rfl
          · rw [deliverAt_got_self]
            exact List.prefix_append _ _
          · rw [deliverAt_got_other]
  | inject t m r => exact grows_recvAt net t m r s

lemma grows_run (as : List (Action R M)) (s : Side) : ∀ net : Net S M O,
    Grows net (net.run A as) s := by
  induction as with
  | nil => intro net; exact .refl net s
  | cons a as ih =>
      intro net
      exact (grows_step net a s).trans (ih (net.step A a))

/-- A property of both ends: once for the side that moved, once for its peer. -/
lemma forall_side {p : Side → Prop} (s : Side) (hself : p s) (hother : p s.other) :
    ∀ t, p t := by
  intro t
  rcases Side.eq_or_eq_other s t with rfl | rfl
  · exact hself
  · exact hother

/-! ### Local invariants -/

/-- The action hands `m` to `s`. -/
def Hands (net : Net S M O) (s : Side) (m : M) (r : R) : Action R M → Prop
  | .send _ _ => False
  | .deliver t i r' => t = s ∧ r' = r ∧ (net.sent s.other)[i]? = some m
  | .inject t m' r' => t = s ∧ m' = m ∧ r' = r

/-- **Local invariants under a condition on what is handed over.**  An invariant that a send keeps,
and that a receive keeps if it meets `Q`, holds at both ends after every run whose receives all
meet `Q`. -/
theorem local_run {P : Side → S → List O → Prop} {Q : Side → S → M → R → Prop}
    (hsend : ∀ s st log r, P s st log → P s (A.send st r).1 (log ++ (A.send st r).2.2))
    (hrecv : ∀ s st log m r, P s st log → Q s st m r →
      P s (A.recv st m r).1 (log ++ (A.recv st m r).2))
    (as : List (Action R M)) : ∀ net : Net S M O, (∀ s, P s (net.node s) (net.log s)) →
      Along A (fun net a => ∀ s m r, net.Hands s m r a → Q s (net.node s) m r) net as →
      ∀ s, P s ((net.run A as).node s) ((net.run A as).log s) := by
  have hrecvAt : ∀ (net : Net S M O) (s : Side) (m : M) (r : R),
      (∀ t, P t (net.node t) (net.log t)) → Q s (net.node s) m r →
      ∀ t, P t ((net.recvAt A s m r).node t) ((net.recvAt A s m r).log t) := by
    intro net s m r h hq
    refine forall_side s ?_ ?_
    · simpa using hrecv s _ _ m r (h s) hq
    · simpa using h s.other
  induction as with
  | nil => intro net h _; exact h
  | cons a as ih =>
      intro net h hq
      rw [run_cons]
      refine ih _ ?_ hq.2
      cases a with
      | send s r =>
          refine forall_side s ?_ ?_
          · simpa [step_send] using hsend s _ _ r (h s)
          · simpa [step_send] using h s.other
      | deliver s i r =>
          cases hm : (net.sent s.other)[i]? with
          | none => simpa [step_deliver_none r hm] using h
          | some m =>
              simpa [step_deliver_some r hm] using hrecvAt net s m r h (hq.1 s m r ⟨rfl, rfl, hm⟩)
      | inject s m r =>
          simpa [step_inject] using hrecvAt net s m r h (hq.1 s m r ⟨rfl, rfl, rfl⟩)

/-- **Local invariants hold in every network**, even against an attacker who injects what
it likes. -/
theorem inductive_run {P : Side → S → List O → Prop} (hP : ∀ s, A.Inductive (P s))
    (as : List (Action R M)) (net : Net S M O) (h : ∀ s, P s (net.node s) (net.log s)) :
    ∀ s, P s ((net.run A as).node s) ((net.run A as).log s) := by
  refine local_run (Q := fun _ _ _ _ => True) (fun s => (hP s).send)
    (fun s st log m r h _ => (hP s).recv st log m r h) as net h ?_
  exact along_mono (fun _ _ _ _ _ _ _ => trivial) as net
    (along_of_forall (p := fun _ => True) as net (fun _ _ => trivial))

/-- What a network does to one end, calls on the machine there could have done. -/
theorem exists_exec (as : List (Action R M)) (net : Net S M O) (s : Side) :
    ∃ cs, A.exec (net.node s, net.log s) cs = ((net.run A as).node s, (net.run A as).log s) := by
  -- to be reached by calls is a local invariant
  have hreached : ∀ t, A.Inductive (fun st log =>
      ∃ cs, A.exec (net.node t, net.log t) cs = (st, log)) := by
    intro t
    refine ⟨?_, ?_⟩
    · rintro st log r ⟨cs, hcs⟩
      refine ⟨cs ++ [.send r], ?_⟩
      rw [Machine.exec_append, hcs]
      rfl
    · rintro st log m r ⟨cs, hcs⟩
      refine ⟨cs ++ [.recv m r], ?_⟩
      rw [Machine.exec_append, hcs]
      rfl
  exact inductive_run hreached as net (fun _ => ⟨[], rfl⟩) s

/-! ### Observations of the traffic -/

/-- If a machine reports what it sends, the reports are what it sent. -/
theorem sent_eq_filterMap {o : O → Option M}
    (hsend : ∀ st r, (A.send st r).2.2.filterMap o = (A.send st r).2.1.toList)
    (hrecv : ∀ st m r, (A.recv st m r).2.filterMap o = []) (as : List (Action R M)) :
    ∀ net : Net S M O, (∀ s, net.sent s = (net.log s).filterMap o) →
      ∀ s, (net.run A as).sent s = ((net.run A as).log s).filterMap o := by
  have hrecvAt : ∀ (net : Net S M O) (t : Side) (m : M) (r : R),
      (∀ s, net.sent s = (net.log s).filterMap o) →
      ∀ s, (net.recvAt A t m r).sent s = ((net.recvAt A t m r).log s).filterMap o := by
    intro net t m r h
    refine forall_side t ?_ ?_
    · rw [recvAt_sent, recvAt_log_self, List.filterMap_append, hrecv, List.append_nil, h]
    · rw [recvAt_sent, recvAt_log_other, h]
  induction as with
  | nil => intro net h; exact h
  | cons a as ih =>
      intro net h
      rw [run_cons]
      apply ih
      cases a with
      | send t r =>
          rw [step_send]
          refine forall_side t ?_ ?_
          · rw [sendAt_sent_self, sendAt_log_self, List.filterMap_append, hsend, h]
          · rw [sendAt_sent_other, sendAt_log_other, h]
      | deliver t i r =>
          cases hm : (net.sent t.other)[i]? with
          | none => rwa [step_deliver_none r hm]
          | some m =>
              rw [step_deliver_some r hm, deliverAt_sent, deliverAt_log]
              exact hrecvAt net t m r h
      | inject t m r => exact hrecvAt net t m r h

/-- Everything that is reported was delivered. -/
def Traced (o : O → Option M) (net : Net S M O) : Prop :=
  ∀ s, ∀ m ∈ (net.log s).filterMap o, ∃ i ∈ net.got s, (net.sent s.other)[i]? = some m

/-- A message keeps its position. -/
lemma Grows.getElem? {net net' : Net S M O} {s : Side} (h : Grows net net' s) {i : ℕ} {m : M}
    (hm : (net.sent s)[i]? = some m) : (net'.sent s)[i]? = some m := by
  obtain ⟨more, hmore⟩ := h.sent
  rw [← hmore, List.getElem?_append_left (List.getElem?_eq_some_iff.mp hm).1]
  exact hm

lemma Grows.getElem?_of_lt {net net' : Net S M O} {s : Side} (h : Grows net net' s) {i : ℕ}
    (hi : i < (net.sent s).length) : (net'.sent s)[i]? = (net.sent s)[i]? := by
  have hget := List.getElem?_eq_getElem hi
  rw [h.getElem? hget, hget]

/-- If a machine reports only messages it was handed, then on an honest network everything it
reports was delivered to it. -/
theorem traced_run {o : O → Option M} (hsend : ∀ st r, (A.send st r).2.2.filterMap o = [])
    (hrecv : ∀ st m r, ∀ m' ∈ (A.recv st m r).2.filterMap o, m' = m) (as : List (Action R M))
    (has : ∀ a ∈ as, a.Honest) {net : Net S M O} (h : Traced o net) : Traced o (net.run A as) := by
  refine run_invariant (P := Traced o) (Q := fun _ a => a.Honest) ?_ as net h
    (along_of_forall as net has)
  intro net a h ha s m hm
  -- what was reported before was delivered before
  have hold : m ∈ (net.log s).filterMap o →
      ∃ i ∈ (net.step A a).got s, ((net.step A a).sent s.other)[i]? = some m := by
    intro hm
    obtain ⟨i, hi, hget⟩ := h s m hm
    exact ⟨i, (grows_step net a s).got.subset hi, (grows_step net a s.other).getElem? hget⟩
  cases a with
  | send t r =>
      rcases Side.eq_or_eq_other t s with rfl | rfl
      · rw [step_send, sendAt_log_self, List.filterMap_append, hsend, List.append_nil] at hm
        exact hold hm
      · rw [step_send, sendAt_log_other] at hm
        exact hold hm
  | deliver t i r =>
      cases hget : (net.sent t.other)[i]? with
      | none =>
          rw [step_deliver_none r hget] at hm ⊢
          exact h s m hm
      | some m₀ =>
          rcases Side.eq_or_eq_other t s with rfl | rfl
          · rw [step_deliver_some r hget, deliverAt_log, recvAt_log_self, List.filterMap_append,
              List.mem_append] at hm
            rcases hm with hm | hm
            · exact hold hm
            · obtain rfl := hrecv _ _ _ m hm
              refine ⟨i, ?_, ?_⟩
              · rw [step_deliver_some r hget, deliverAt_got_self]
                exact List.mem_append_right _ (List.mem_singleton_self i)
              · rw [step_deliver_some r hget, deliverAt_sent]
                exact hget
          · rw [step_deliver_some r hget, deliverAt_log, recvAt_log_other] at hm
            exact hold hm
  | inject t m r => exact ha.elim

/-! ### A machine inside a machine -/

section Projection

variable {S' M' O' : Type}

/-- The network in which each party is replaced by what is inside it. -/
def map (f : S → S') (g : M → M') (o : O → Option O') (net : Net S M O) : Net S' M' O' where
  node s := f (net.node s)
  sent s := (net.sent s).map g
  got := net.got
  log s := (net.log s).filterMap o

variable {B : Machine S' R M' O'} {f : S → S'} {g : M → M'} {o : O → Option O'}
  {I : Side → S → List O → Prop}

/-- While `I` holds, every call on `A` is a call on the `B` inside it. -/
structure Contains (A : Machine S R M O) (B : Machine S' R M' O') (f : S → S') (g : M → M')
    (o : O → Option O') (I : Side → S → List O → Prop) : Prop where
  send : ∀ s st log r, I s st log → B.send (f st) r =
    (f (A.send st r).1, (A.send st r).2.1.map g, (A.send st r).2.2.filterMap o)
  recv : ∀ s st log m r, I s st log → B.recv (f st) (g m) r =
    (f (A.recv st m r).1, (A.recv st m r).2.filterMap o)

lemma map_recvAt (h : Contains A B f g o I) {net : Net S M O}
    (hI : ∀ s, I s (net.node s) (net.log s)) (s : Side) (m : M) (r : R) :
    (net.recvAt A s m r).map f g o = (net.map f g o).recvAt B s (g m) r := by
  have hcall := h.recv s (net.node s) (net.log s) m r (hI s)
  unfold map recvAt
  congr 1
  · funext t
    rcases Side.eq_or_eq_other s t with rfl | rfl <;> simp [hcall]
  · funext t
    rcases Side.eq_or_eq_other s t with rfl | rfl <;> simp [hcall]

lemma map_step (h : Contains A B f g o I) {net : Net S M O}
    (hI : ∀ s, I s (net.node s) (net.log s)) (a : Action R M) :
    (net.step A a).map f g o = (net.map f g o).step B (a.map g) := by
  cases a with
  | send s r =>
      have hcall := h.send s (net.node s) (net.log s) r (hI s)
      rw [step_send, Action.map, step_send]
      unfold map sendAt
      congr 1
      · funext t
        rcases Side.eq_or_eq_other s t with rfl | rfl <;> simp [hcall]
      · funext t
        rcases Side.eq_or_eq_other s t with rfl | rfl <;> simp [hcall, Option.toList_map]
      · funext t
        rcases Side.eq_or_eq_other s t with rfl | rfl <;> simp [hcall]
  | deliver s i r =>
      have hsent : ((net.map f g o).sent s.other)[i]? = ((net.sent s.other)[i]?).map g :=
        List.getElem?_map
      cases hm : (net.sent s.other)[i]? with
      | none =>
          rw [hm] at hsent
          rw [step_deliver_none r hm, Action.map, step_deliver_none r hsent]
      | some m =>
          rw [hm] at hsent
          rw [step_deliver_some r hm, Action.map, step_deliver_some r hsent]
          have hrecv := map_recvAt h hI s m r
          unfold deliverAt
          rw [← hrecv]
          rfl
  | inject s m r => exact map_recvAt h hI s m r

/-- **A run on the outer machine is a run on the inner one.** -/
theorem map_run (h : Contains A B f g o I) (hind : ∀ s, A.Inductive (I s))
    (as : List (Action R M)) : ∀ net : Net S M O, (∀ s, I s (net.node s) (net.log s)) →
      (net.run A as).map f g o = (net.map f g o).run B (as.map (Action.map g)) := by
  induction as with
  | nil => intro net _; rfl
  | cons a as ih =>
      intro net hI
      have hI' : ∀ s, I s ((net.step A a).node s) ((net.step A a).log s) :=
        inductive_run hind [a] net hI
      rw [run_cons, List.map_cons, run_cons, ih _ hI', map_step h hI]

end Projection

/-! ### Loss-free rounds -/

variable (A)

/-- `s` sends, and its message (if the call made one) reaches the peer at once. -/
def exchange (net : Net S M O) (s : Side) (r r' : R) : Net S M O :=
  (net.sendAt A s r).step A (.deliver s.other (net.sent s).length r')

/-- The randomness of one round: a send and a receive for each side. -/
structure Round (R : Type) where
  aliceSend : R
  bobRecv : R
  bobSend : R
  aliceRecv : R

/-- Alice sends, Bob receives, Bob sends, Alice receives. -/
def round (net : Net S M O) (ρ : Round R) : Net S M O :=
  (net.exchange A .alice ρ.aliceSend ρ.bobRecv).exchange A .bob ρ.bobSend ρ.aliceRecv

/-- Rounds, one after the other. -/
def rounds (net : Net S M O) (ρs : List (Round R)) : Net S M O := ρs.foldl (round A) net

variable {A}

@[simp] lemma rounds_nil (net : Net S M O) : net.rounds A [] = net := rfl

@[simp] lemma rounds_cons (net : Net S M O) (ρ : Round R) (ρs : List (Round R)) :
    net.rounds A (ρ :: ρs) = (net.round A ρ).rounds A ρs := rfl

lemma exchange_of_some {net : Net S M O} {s : Side} {r : R} (r' : R) {m : M}
    (h : (A.send (net.node s) r).2.1 = some m) :
    net.exchange A s r r' =
      (net.sendAt A s r).deliverAt A s.other (net.sent s).length m r' := by
  rw [exchange, step_deliver_some]
  simp [h]

/-- An exchange is a run of two honest actions. -/
lemma exists_run_exchange (net : Net S M O) (s : Side) (r r' : R) :
    ∃ as : List (Action R M), (∀ a ∈ as, a.Honest) ∧ net.run A as = net.exchange A s r r' := by
  refine ⟨[.send s r, .deliver s.other (net.sent s).length r'], ?_, rfl⟩
  intro a ha
  simp only [List.mem_cons, List.not_mem_nil, or_false] at ha
  rcases ha with rfl | rfl <;> trivial

/-- Rounds are a run of honest actions. -/
lemma exists_run_rounds (ρs : List (Round R)) : ∀ net : Net S M O,
    ∃ as : List (Action R M), (∀ a ∈ as, a.Honest) ∧ net.run A as = net.rounds A ρs := by
  induction ρs with
  | nil => intro net; exact ⟨[], by simp, rfl⟩
  | cons ρ ρs ih =>
      intro net
      obtain ⟨as₁, h₁, hrun₁⟩ := exists_run_exchange (A := A) net .alice ρ.aliceSend ρ.bobRecv
      obtain ⟨as₂, h₂, hrun₂⟩ := exists_run_exchange (A := A)
        (net.exchange A .alice ρ.aliceSend ρ.bobRecv) .bob ρ.bobSend ρ.aliceRecv
      obtain ⟨as₃, h₃, hrun₃⟩ := ih (net.round A ρ)
      refine ⟨as₁ ++ (as₂ ++ as₃), ?_, ?_⟩
      · intro a ha
        simp only [List.mem_append] at ha
        rcases ha with ha | ha | ha
        · exact h₁ a ha
        · exact h₂ a ha
        · exact h₃ a ha
      · rw [run_append, run_append, hrun₁, hrun₂]
        exact hrun₃

/-- **The progress rule.**  If `B n` bounds the rounds still needed by `n` and every round
brings the bound down by one, then `n` rounds (or more) are enough. -/
theorem rounds_reach {B : ℕ → Net S M O → Prop}
    (hround : ∀ n net ρ, B n net → B (n - 1) (round A net ρ)) (ρs : List (Round R)) :
    ∀ n net, B n net → n ≤ ρs.length → B 0 (net.rounds A ρs) := by
  induction ρs with
  | nil =>
      intro n net h hn
      have hzero : n = 0 := Nat.le_zero.mp hn
      rwa [hzero] at h
  | cons ρ ρs ih =>
      intro n net h hn
      rw [rounds_cons]
      refine ih (n - 1) _ (hround n net ρ h) ?_
      rw [List.length_cons] at hn
      omega

end Net

end Duplex
