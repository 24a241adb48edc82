import Hushwire.Ratchet.Books
import Hushwire.Ratchet.SessionNetwork

/-!
# Taking turns

The Diffie-Hellman ratchets of two sessions move in turns: a party draws a new key pair when it
sees its peer's newest one, so one of them is always one step ahead.  `Turn P Q` says that `P` is
ahead of `Q` and what that means:

* `P` receives on the chain that `Q` sends on, and the root key and the sending chain of `P` are
  those that `Q` will derive when it sees the newest key of `P`;
* every message of `Q` belongs to a chain in the books of `P`, and its number has been moved past
  or the chain is the one `P` receives on;
* every message of `P` does so for `Q`, or it is under the key that `Q` has not seen; and it is this
  message's `previous_chain_length` that tells `Q` how far to go on the chain before.

A send keeps the roles (`Turn.send_ahead`, `Turn.send_behind`), and so does a delivery to the party
ahead (`Turn.receive_ahead`).  A delivery to the party behind keeps them or exchanges them
(`Turn.receive_behind`).  In each case a message that has not arrived before gets the key it was
sealed with, unless a gap is too large.
-/

namespace Hushwire

open Duplex RatchetSession

variable {Key : Type}

/-! ## What was sealed -/

/-- A message that left a session, with the keys it was sealed with. -/
structure SealedMessage (Key : Type) where
  header : MessageHeader Key
  ecMk : Key
  pqMk : Key
  plaintext : Bytes
  message : RatchetMessage

namespace SealedMessage

/-- The ratchet key of a message. -/
abbrev dh (e : SealedMessage Key) : Key := e.header.dhPublicKey

/-- The number of a message in its chain. -/
abbrev number (e : SealedMessage Key) : ℕ := e.header.messageNumber

end SealedMessage

/-- What was sealed. -/
def SessionEvent.sealed? : SessionEvent Key → Option (SealedMessage Key)
  | .sealed header ecMk pqMk plaintext message => some ⟨header, ecMk, pqMk, plaintext, message⟩
  | _ => none

/-- The messages a session has sent. -/
def sealedMessages (log : List (SessionEvent Key)) : List (SealedMessage Key) :=
  log.filterMap SessionEvent.sealed?

/-- The public half of a key pair that was drawn. -/
def SessionEvent.ownKey? : SessionEvent Key → Option Key
  | .ratcheted _ _ own => some own
  | _ => none

/-! ## One party -/

/-- The gaps that the EC ratchet has to skip for a message are at most `maxSkip`: to the message
itself, and before a Diffie-Hellman step to the end of the old chain. -/
def RatchetSession.EcReach [DecidableEq Key] (s : RatchetSession Key) (header : MessageHeader Key) :
    Prop :=
  s.skipped.find header.dhPublicKey header.messageNumber = none →
    if s.dhRemote = some header.dhPublicKey then
      ∀ c, s.receivingChain = some c → header.messageNumber ≤ c.messageNumber + maxSkip
    else
      (∀ c, s.receivingChain = some c → header.previousChainLength ≤ c.messageNumber + maxSkip) ∧
        header.messageNumber ≤ maxSkip

/-- A session, what it has sealed, the keys it had before the current one, its books and the
messages that have arrived. -/
structure Party (Key : Type) where
  node : RatchetSession Key
  sealed : List (SealedMessage Key)
  older : List Key
  book : Book Key
  taken : Key → ℕ → Prop

/-- All keys of a party, the current one last. -/
def Party.keys (p : Party Key) : List Key := p.older ++ [p.node.dhSelfPublic]

lemma Party.dhSelfPublic_notMem_older {p : Party Key} (h : p.keys.Nodup) :
    p.node.dhSelfPublic ∉ p.older := by
  intro hmem
  exact (List.nodup_append.mp h).2.2 _ hmem _ (List.mem_singleton_self _) rfl

/-- What a send does to the EC ratchet. -/
inductive EcSends (H : Hash Key) (s : RatchetSession Key) :
    RatchetSession Key → List (SealedMessage Key) → Prop
  | quiet (spqr : SpqrState Key) : EcSends H s { s with spqr } []
  | lost {c : ChainState Key} (spqr : SpqrState Key) (hc : s.sendingChain = some c) :
      EcSends H s { s with spqr, sendingChain := some (c.advance H).2 } []
  | sealed {c : ChainState Key} (spqr : SpqrState Key) (hc : s.sendingChain = some c) (m : Message)
      (pqN : ℕ) (pqMk : Key) (plaintext : Bytes) (message : RatchetMessage) :
      EcSends H s { s with spqr, sendingChain := some (c.advance H).2 }
        [⟨⟨s.dhSelfPublic, s.previousSendingChainLength, c.messageNumber, m, pqN⟩,
          (c.advance H).1, pqMk, plaintext, message⟩]

/-- A send advances the sending chain, or it does not get that far; a message that is sealed has
the chain's number and key. -/
lemma EcSends.cases {H : Hash Key} {s s' : RatchetSession Key} {out : List (SealedMessage Key)}
    (h : EcSends H s s' out) :
    (∃ spqr, s' = { s with spqr } ∧ out = []) ∨
      ∃ c spqr, s.sendingChain = some c ∧
        s' = { s with spqr, sendingChain := some (c.advance H).2 } ∧
        ∀ e ∈ out, out = [e] ∧ e.dh = s.dhSelfPublic ∧
          e.header.previousChainLength = s.previousSendingChainLength ∧
          e.number = c.messageNumber ∧ e.ecMk = (c.advance H).1 := by
  rcases h with ⟨spqr⟩ | ⟨spqr, hc⟩ | ⟨spqr, hc, m, pqN, pqMk, plaintext, message⟩
  · exact .inl ⟨spqr, rfl, rfl⟩
  · refine .inr ⟨_, spqr, hc, rfl, ?_⟩
    intro e he
    cases he
  · refine .inr ⟨_, spqr, hc, rfl, ?_⟩
    intro e he
    obtain rfl := List.mem_singleton.mp he
    exact ⟨rfl, rfl, rfl, rfl, rfl⟩

lemma EcSends.dhSelfPublic_eq {H : Hash Key} {s s' : RatchetSession Key}
    {out : List (SealedMessage Key)} (h : EcSends H s s' out) :
    s'.dhSelfPublic = s.dhSelfPublic := by
  rcases h.cases with ⟨_, rfl, -⟩ | ⟨_, _, -, rfl, -⟩
  · rfl
  · rfl

/-- The sessions differ at most in the receiving chain, the store and the SPQR state. -/
def SameRatchet (s s' : RatchetSession Key) : Prop :=
  ∃ c store spqr, s' = { s with receivingChain := c, skipped := store, spqr }

lemma SameRatchet.setSpqr {s s' : RatchetSession Key} (h : SameRatchet s s')
    (spqr : SpqrState Key) :
    SameRatchet s { s' with spqr } := by
  obtain ⟨c, store, spqr', rfl⟩ := h
  exact ⟨c, store, spqr, rfl⟩

variable [DecidableEq Key]

/-- What holds of a party on its own. -/
structure Party.Sound (C : Suite Key) (p : Party Key) : Prop where
  dhSelfPublic_eq : p.node.dhSelfPublic = C.x25519.publicKey p.node.dhSelf
  pendingPrekey : p.node.pendingPrekey = none
  keyed : ∀ e ∈ p.sealed, e.dh ∈ p.keys
  below : ∀ e ∈ p.sealed, e.dh = p.node.dhSelfPublic →
    ∃ c, p.node.sendingChain = some c ∧ e.number < c.messageNumber
  distinct : (p.sealed.map (fun e => (e.dh, e.number))).Nodup
  books : Books C.hash p.book p.taken p.node

/-- `P` is a step of the Diffie-Hellman ratchet ahead of `Q`. -/
structure Turn (C : Suite Key) (P Q : Party Key) : Prop where
  ahead : P.Sound C
  behind : Q.Sound C
  dhRemote : P.node.dhRemote = some Q.node.dhSelfPublic
  rootKey : P.node.rootKey = (C.hash.kdfRk Q.node.rootKey
    (C.x25519.diffieHellman Q.node.dhSelf P.node.dhSelfPublic)).rootKey
  sending : ∃ l, P.node.sendingChain = some (.at C.hash (C.hash.kdfRk Q.node.rootKey
    (C.x25519.diffieHellman Q.node.dhSelf P.node.dhSelfPublic)).chainKey l)
  receiving : ∀ c, Q.node.sendingChain = some c →
    ∃ base b, c = .at C.hash base c.messageNumber ∧ P.book Q.node.dhSelfPublic = some (base, b)
  seen : ∀ dh, (P.book dh).isSome → dh ∈ Q.keys
  unseen : ∀ dh, Q.node.dhRemote = some dh ∨ (Q.book dh).isSome → dh ∈ P.older
  toAhead : ∀ e ∈ Q.sealed, ∃ base b, P.book e.dh = some (base, b) ∧
    e.ecMk = ecKey C.hash base e.number ∧ (e.number < b ∨ e.dh = Q.node.dhSelfPublic)
  toBehind : ∀ e ∈ P.sealed,
    (e.dh = P.node.dhSelfPublic ∧
      e.header.previousChainLength = P.node.previousSendingChainLength ∧
      e.ecMk = ecKey C.hash (C.hash.kdfRk Q.node.rootKey
        (C.x25519.diffieHellman Q.node.dhSelf P.node.dhSelfPublic)).chainKey e.number) ∨
    ∃ base b, Q.book e.dh = some (base, b) ∧ e.ecMk = ecKey C.hash base e.number ∧
      (e.number < b ∨
        Q.node.dhRemote = some e.dh ∧ e.number < P.node.previousSendingChainLength)

/-! ## Sends -/

section Sends

variable {C : Suite Key} {P Q p : Party Key} {s' : RatchetSession Key}
  {out : List (SealedMessage Key)}

/-- A party after a send. -/
def Party.send (p : Party Key) (s' : RatchetSession Key) (out : List (SealedMessage Key)) :
    Party Key :=
  { p with node := s', sealed := p.sealed ++ out }

lemma Party.Sound.send (hp : p.Sound C) (hs : EcSends C.hash p.node s' out) :
    (p.send s' out).Sound C := by
  rcases hs.cases with ⟨spqr, rfl, rfl⟩ | ⟨c, spqr, hc, rfl, hout⟩
  · have hnil : p.sealed ++ [] = p.sealed := List.append_nil _
    refine ⟨hp.dhSelfPublic_eq, hp.pendingPrekey, ?_, ?_, ?_, hp.books.congr rfl rfl rfl⟩
    all_goals simp only [Party.send, hnil]
    · exact hp.keyed
    · exact hp.below
    · exact hp.distinct
  · refine ⟨hp.dhSelfPublic_eq, hp.pendingPrekey, ?_, ?_, ?_, hp.books.congr rfl rfl rfl⟩
    · intro e he
      rcases List.mem_append.mp he with he | he
      · exact hp.keyed e he
      · refine List.mem_append_right _ (List.mem_singleton.mpr ?_)
        exact (hout e he).2.1
    · intro e he hdh
      refine ⟨_, rfl, ?_⟩
      rcases List.mem_append.mp he with he | he
      · obtain ⟨c', hc', hlt⟩ := hp.below e he hdh
        obtain rfl := Option.some.inj (hc.symm.trans hc')
        exact hlt.trans (Nat.lt_succ_self _)
      · obtain ⟨-, -, -, hnumber, -⟩ := hout e he
        rw [hnumber]
        exact Nat.lt_succ_self _
    · rw [Party.send, List.map_append]
      refine List.nodup_append.mpr ⟨hp.distinct, ?_, ?_⟩
      · rcases out with _ | ⟨e, out⟩
        · exact List.nodup_nil
        · rw [(hout e List.mem_cons_self).1]
          exact List.nodup_singleton _
      · intro a ha b hb hab
        obtain ⟨e, he, rfl⟩ := List.mem_map.mp ha
        obtain ⟨e', he', rfl⟩ := List.mem_map.mp hb
        obtain ⟨-, hdh', -, hnumber', -⟩ := hout e' he'
        obtain ⟨hdh, hnumber⟩ := Prod.mk.inj hab
        -- under the current key all numbers so far are below the chain's
        obtain ⟨c', hc', hlt⟩ := hp.below e he (hdh.trans hdh')
        obtain rfl := Option.some.inj (hc.symm.trans hc')
        rw [hnumber, hnumber'] at hlt
        exact absurd hlt (lt_irrefl _)

/-- The party ahead sends. -/
lemma Turn.send_ahead (h : Turn C P Q) (hs : EcSends C.hash P.node s' out) :
    Turn C (P.send s' out) Q := by
  have hsound := h.ahead.send hs
  rcases hs.cases with ⟨spqr, rfl, rfl⟩ | ⟨c, spqr, hc, rfl, hout⟩
  · refine ⟨hsound, h.behind, h.dhRemote, h.rootKey, h.sending, h.receiving, h.seen, h.unseen,
      h.toAhead, ?_⟩
    simp only [Party.send, List.append_nil]
    exact h.toBehind
  · obtain ⟨l, hl⟩ := h.sending
    obtain rfl := Option.some.inj (hl.symm.trans hc)
    refine ⟨hsound, h.behind, h.dhRemote, h.rootKey, ⟨l + 1, rfl⟩, h.receiving, h.seen, h.unseen,
      h.toAhead, ?_⟩
    intro e he
    rcases List.mem_append.mp he with he | he
    · exact h.toBehind e he
    · obtain ⟨-, hdh, hprevious, hnumber, hkey⟩ := hout e he
      refine .inl ⟨hdh, hprevious, ?_⟩
      rw [hkey, hnumber]
      rfl

/-- The party behind sends. -/
lemma Turn.send_behind (h : Turn C P Q) (hs : EcSends C.hash Q.node s' out) :
    Turn C P (Q.send s' out) := by
  have hsound := h.behind.send hs
  rcases hs.cases with ⟨spqr, rfl, rfl⟩ | ⟨c, spqr, hc, rfl, hout⟩
  · refine ⟨h.ahead, hsound, h.dhRemote, h.rootKey, h.sending, h.receiving, h.seen, h.unseen, ?_,
      h.toBehind⟩
    simp only [Party.send, List.append_nil]
    exact h.toAhead
  · obtain ⟨base, b, hat, hbook⟩ := h.receiving c hc
    refine ⟨h.ahead, hsound, h.dhRemote, h.rootKey, h.sending, ?_, h.seen, h.unseen, ?_,
      h.toBehind⟩
    · intro c' hc'
      obtain rfl := Option.some.inj hc'
      refine ⟨base, b, ?_, hbook⟩
      rw [hat]
      rfl
    · intro e he
      rcases List.mem_append.mp he with he | he
      · exact h.toAhead e he
      · obtain ⟨-, hdh, -, hnumber, hkey⟩ := hout e he
        refine ⟨base, b, ?_, ?_, .inr hdh⟩
        · rw [hdh, hbook]
        · rw [hkey, hnumber, hat]
          rfl

end Sends

/-! ## Deliveries -/

section Deliveries

variable {C : Suite Key} {P Q p : Party Key} {s' : RatchetSession Key} {rng : Rng}
  {e : SealedMessage Key} {r : Result Key} {base : Key} {b : ℕ} {taken' : Key → ℕ → Prop}

/-- A party after a delivery on a chain it knows. -/
def Party.receive (p : Party Key) (s' : RatchetSession Key) (book' : Book Key)
    (taken' : Key → ℕ → Prop) : Party Key :=
  { p with node := s', book := book', taken := taken' }

/-- The message gets the key it was sealed with, unless a gap is too large. -/
def Resolved (s : RatchetSession Key) (e : SealedMessage Key) (r : Result Key) : Prop :=
  r = .ok e.ecMk ∨ (∃ err, r = .error err) ∧ ¬ s.EcReach e.header

/-- A message of a chain in the books. -/
lemma Party.Sound.resolve_known (hp : p.Sound C) (hbook : p.book e.dh = some (base, b))
    (hkey : e.ecMk = ecKey C.hash base e.number)
    (hpos : e.number < b ∨ p.node.dhRemote = some e.dh) (hnew : ¬ p.taken e.dh e.number)
    (hle : ∀ d i, p.taken d i → taken' d i) (htaken : taken' e.dh e.number)
    (hec : Resolves C rng e.header p.node r s') (hlen : s'.skipped.len < maxSkip) :
    ∃ book', p.book.Grows book' ∧ SameRatchet p.node s' ∧ Books C.hash book' taken' s' ∧
      Resolved p.node e r := by
  rcases Nat.lt_or_ge e.number b with hlt | hge
  · obtain ⟨rfl, rfl, hbooks⟩ := hp.books.resolve_stored hbook hlt hnew hle htaken hec
    exact ⟨p.book, .refl _, ⟨_, _, _, rfl⟩, hbooks, .inl (congrArg _ hkey.symm)⟩
  · have hdh := hpos.resolve_left (not_lt.mpr hge)
    rcases hp.books.resolve_current hdh hbook hge hle htaken hec hlen with
      ⟨herror, rfl, hfar⟩ | ⟨rfl, ⟨store, rfl⟩, hbooks⟩
    · refine ⟨p.book, .refl _, ⟨_, _, _, rfl⟩, hp.books.mono hle, .inr ⟨herror, ?_⟩⟩
      intro hreach
      have hnone : p.node.skipped.find e.dh e.number = none := by
        refine hp.books.find_eq_none ?_
        intro base' b' hbook'
        obtain ⟨-, rfl⟩ := Prod.mk.inj (Option.some.inj (hbook.symm.trans hbook'))
        exact hge
      have hgap := hreach hnone
      rw [if_pos hdh] at hgap
      exact absurd (hgap _ (hp.books.receivingChain_eq hdh hbook)) (not_le.mpr hfar)
    · exact ⟨_, Book.grows_raise _ _ _, ⟨_, _, _, rfl⟩, hbooks, .inl (congrArg _ hkey.symm)⟩

lemma Party.Sound.receive (hp : p.Sound C) {book' : Book Key} (hsame : SameRatchet p.node s')
    (hbooks : Books C.hash book' taken' s') : (p.receive s' book' taken').Sound C := by
  obtain ⟨c, store, spqr, rfl⟩ := hsame
  exact ⟨hp.dhSelfPublic_eq, hp.pendingPrekey, hp.keyed, hp.below, hp.distinct, hbooks⟩

/-- The party ahead moves on in its books. -/
lemma Turn.set_ahead (h : Turn C P Q) {book' : Book Key} (hgrows : P.book.Grows book')
    (hsame : SameRatchet P.node s') (hbooks : Books C.hash book' taken' s') :
    Turn C (P.receive s' book' taken') Q := by
  have hsound := h.ahead.receive hsame hbooks
  obtain ⟨c, store, spqr, rfl⟩ := hsame
  refine ⟨hsound, h.behind, h.dhRemote, h.rootKey, h.sending, ?_, ?_, h.unseen, ?_, h.toBehind⟩
  · intro c' hc'
    obtain ⟨base, b, hat, hbook⟩ := h.receiving c' hc'
    obtain ⟨b', -, hbook'⟩ := hgrows.keeps _ _ _ hbook
    exact ⟨base, b', hat, hbook'⟩
  · intro dh hdh
    exact h.seen dh (hgrows.isSome dh hdh)
  · intro e he
    obtain ⟨base, b, hbook, hkey, hpos⟩ := h.toAhead e he
    obtain ⟨b', hb', hbook'⟩ := hgrows.keeps _ _ _ hbook
    exact ⟨base, b', hbook', hkey, hpos.imp_left (fun hlt => hlt.trans_le hb')⟩

/-- The party behind moves on in its books. -/
lemma Turn.set_behind (h : Turn C P Q) {book' : Book Key} (hgrows : Q.book.Grows book')
    (hsame : SameRatchet Q.node s') (hbooks : Books C.hash book' taken' s') :
    Turn C P (Q.receive s' book' taken') := by
  have hsound := h.behind.receive hsame hbooks
  obtain ⟨c, store, spqr, rfl⟩ := hsame
  refine ⟨h.ahead, hsound, h.dhRemote, h.rootKey, h.sending, h.receiving, h.seen, ?_, h.toAhead, ?_⟩
  · intro dh hdh
    exact h.unseen dh (hdh.imp_right (hgrows.isSome dh))
  · intro e he
    refine (h.toBehind e he).imp_right ?_
    rintro ⟨base, b, hbook, hkey, hpos⟩
    obtain ⟨b', hb', hbook'⟩ := hgrows.keeps _ _ _ hbook
    exact ⟨base, b', hbook', hkey, hpos.imp_left (fun hlt => hlt.trans_le hb')⟩

/-- **A delivery to the party ahead** keeps the roles. -/
lemma Turn.receive_ahead (h : Turn C P Q) (he : e ∈ Q.sealed) (hnew : ¬ P.taken e.dh e.number)
    (hle : ∀ d i, P.taken d i → taken' d i) (htaken : taken' e.dh e.number)
    (hec : Resolves C rng e.header P.node r s') (hlen : s'.skipped.len < maxSkip)
    (spqr : SpqrState Key) :
    Resolved P.node e r ∧ SameRatchet P.node s' ∧
      ∃ book', Turn C (P.receive { s' with spqr } book' taken') Q := by
  obtain ⟨base, b, hbook, hkey, hpos⟩ := h.toAhead e he
  have hpos' : e.number < b ∨ P.node.dhRemote = some e.dh := by
    refine hpos.imp_right ?_
    intro hdh
    rw [h.dhRemote, hdh]
  obtain ⟨book', hgrows, hsame, hbooks, hresolved⟩ :=
    h.ahead.resolve_known hbook hkey hpos' hnew hle htaken hec hlen
  exact ⟨hresolved, hsame, book',
    h.set_ahead hgrows (hsame.setSpqr spqr) (hbooks.congr rfl rfl rfl)⟩

/-- A party after a Diffie-Hellman step. -/
def Party.ratchet (p : Party Key) (s' : RatchetSession Key) (book' : Book Key)
    (taken' : Key → ℕ → Prop) : Party Key :=
  { p.receive s' book' taken' with older := p.keys }

lemma Party.Sound.ratchet (hp : p.Sound C) {header : MessageHeader Key} {book' : Book Key}
    {c : Option (ChainState Key)} {store : SkippedKeys Key} {spqr : SpqrState Key}
    (hs' : s' = { p.node.performDhRatchetStep C rng header with
      receivingChain := c, skipped := store, spqr })
    (hbooks : Books C.hash book' taken' s') (hfresh : s'.dhSelfPublic ∉ p.keys) :
    (p.ratchet s' book' taken').Sound C := by
  refine ⟨?_, ?_, ?_, ?_, hp.distinct, hbooks⟩
  · rw [Party.ratchet, Party.receive, hs']
    rfl
  · rw [Party.ratchet, Party.receive, hs']
    exact hp.pendingPrekey
  · intro e he
    exact List.mem_append_left _ (hp.keyed e he)
  · intro e he hkey
    exact absurd (hkey ▸ hp.keyed e he) hfresh

/-- **The roles are exchanged.**  The party behind makes a step on the newest key of its peer. -/
lemma Turn.exchange (hX : C.x25519.Commutes) (h : Turn C P Q) (hP : P.keys.Nodup)
    {header : MessageHeader Key} (hdh : header.dhPublicKey = P.node.dhSelfPublic)
    (hprevious : header.previousChainLength = P.node.previousSendingChainLength) {k : ℕ}
    {store : SkippedKeys Key} {spqr : SpqrState Key} {book' : Book Key}
    (hbase : base = (C.hash.kdfRk Q.node.rootKey
      (C.x25519.diffieHellman Q.node.dhSelf P.node.dhSelfPublic)).chainKey)
    (hs' : s' = { Q.node.performDhRatchetStep C rng header with
      receivingChain := some (.at C.hash base k), skipped := store, spqr })
    (hbook' : book' = Function.update (Q.book.raise Q.node.dhRemote
      header.previousChainLength) P.node.dhSelfPublic (some (base, k)))
    (hbooks : Books C.hash book' taken' s') (hfresh : s'.dhSelfPublic ∉ Q.keys) :
    Turn C (Q.ratchet s' book' taken') P := by
  have hnew : book' P.node.dhSelfPublic = some (base, k) := by rw [hbook', Function.update_self]
  have hold : ∀ dh, dh ≠ P.node.dhSelfPublic →
      book' dh = Q.book.raise Q.node.dhRemote header.previousChainLength dh := by
    intro dh hne
    rw [hbook', Function.update_of_ne hne]
  have hsound := h.behind.ratchet hs' hbooks hfresh
  -- the agreement of the step's second half, with the halves exchanged
  have hagree : C.x25519.diffieHellman P.node.dhSelf (C.x25519.publicKey (rng.fill 32)) =
      C.x25519.diffieHellman (rng.fill 32) header.dhPublicKey := by
    rw [hX, hdh, h.ahead.dhSelfPublic_eq]
  have hroot : P.node.rootKey = (C.hash.kdfRk Q.node.rootKey
      (C.x25519.diffieHellman Q.node.dhSelf header.dhPublicKey)).rootKey := by
    rw [h.rootKey, hdh]
  refine ⟨hsound, h.ahead, ?_, ?_, ?_, ?_, ?_, ?_, ?_, ?_⟩
  · rw [Party.ratchet, Party.receive, hs', ← hdh]
    rfl
  · rw [Party.ratchet, Party.receive, hs', hroot]
    exact congrArg (fun dh => (C.hash.kdfRk _ dh).rootKey) hagree.symm
  · refine ⟨0, ?_⟩
    rw [Party.ratchet, Party.receive, hs', hroot]
    exact congrArg (fun dh => some (ChainState.new (C.hash.kdfRk _ dh).chainKey)) hagree.symm
  · intro c hc
    obtain ⟨l, hl⟩ := h.sending
    obtain rfl := Option.some.inj (hl.symm.trans hc)
    refine ⟨base, k, ?_, hnew⟩
    rw [hbase]
    rfl
  · intro dh hknown
    by_cases hcurrent : dh = P.node.dhSelfPublic
    · exact List.mem_append_right _ (List.mem_singleton.mpr hcurrent)
    · have hknown' : (book' dh).isSome := hknown
      rw [hold dh hcurrent, Book.raise_isSome] at hknown'
      exact List.mem_append_left _ (h.unseen dh (.inr hknown'))
  · rintro dh (hremote | hknown)
    · obtain rfl := Option.some.inj (h.dhRemote.symm.trans hremote)
      exact List.mem_append_right _ (List.mem_singleton_self _)
    · exact h.seen dh hknown
  · intro e he
    rcases h.toBehind e he with ⟨hkey, -, hec⟩ | ⟨base', b, hbook, hec, hpos⟩
    · refine ⟨base, k, ?_, ?_, .inr hkey⟩
      · rw [hkey]
        exact hnew
      · rw [hec, hbase]
    · -- the chain before is closed at the length that the header gives
      have hne : e.dh ≠ P.node.dhSelfPublic := by
        intro heq
        refine Party.dhSelfPublic_notMem_older hP ?_
        rw [← heq]
        exact h.unseen e.dh (.inr (by rw [hbook]; rfl))
      rcases hpos with hlt | ⟨hremote, hlt⟩
      · obtain ⟨b', hb', hraised⟩ := (Book.grows_raise Q.book Q.node.dhRemote
          header.previousChainLength).keeps _ _ _ hbook
        exact ⟨base', b', (hold e.dh hne).trans hraised, hec, .inl (hlt.trans_le hb')⟩
      · refine ⟨base', _, (hold e.dh hne).trans (Book.raise_of_eq hremote hbook), hec, .inl ?_⟩
        rw [hprevious]
        exact hlt.trans_le (le_max_right _ _)
  · intro e he
    obtain ⟨base', b, hbook, hec, hpos⟩ := h.toAhead e he
    refine .inr ⟨base', b, hbook, hec, hpos.imp_right ?_⟩
    intro hkey
    obtain ⟨c, hc, hlt⟩ := h.behind.below e he hkey
    refine ⟨by rw [h.dhRemote, hkey], ?_⟩
    rw [Party.ratchet, Party.receive, hs']
    show e.number < (Q.node.sendingChain.map ChainState.messageNumber).getD 0
    rwa [hc]

/-- **A delivery to the party behind** keeps the roles or exchanges them. -/
lemma Turn.receive_behind (hX : C.x25519.Commutes) (h : Turn C P Q) (hP : P.keys.Nodup)
    (he : e ∈ P.sealed) (hnew : ¬ Q.taken e.dh e.number)
    (hle : ∀ d i, Q.taken d i → taken' d i) (htaken : taken' e.dh e.number)
    (hec : Resolves C rng e.header Q.node r s') (hlen : s'.skipped.len < maxSkip)
    (hfresh : s'.dhRemote ≠ Q.node.dhRemote → s'.dhSelfPublic ∉ Q.keys) (spqr : SpqrState Key) :
    Resolved Q.node e r ∧
      (SameRatchet Q.node s' ∧ (∃ book', Turn C P (Q.receive { s' with spqr } book' taken')) ∨
        s'.dhRemote ≠ Q.node.dhRemote ∧
          ∃ book', Turn C (Q.ratchet { s' with spqr } book' taken') P) := by
  rcases h.toBehind e he with ⟨hkey, hprevious, hsealed⟩ | ⟨base, b, hbook, hsealed, hpos⟩
  · have hnot := Party.dhSelfPublic_notMem_older hP
    have hbook : Q.book e.dh = none := by
      rw [← Option.not_isSome_iff_eq_none]
      intro hsome
      exact hnot (hkey ▸ h.unseen e.dh (.inr hsome))
    have hremote : Q.node.dhRemote ≠ some e.dh := by
      intro hsome
      exact hnot (hkey ▸ h.unseen e.dh (.inl hsome))
    have hnone : Q.node.skipped.find e.dh e.number = none := by
      refine h.behind.books.find_eq_none ?_
      intro base b hbook'
      rw [hbook] at hbook'
      cases hbook'
    rcases h.behind.books.resolve_new hremote hbook hle htaken hec hlen with
      ⟨herror, rfl, c, hc, hfar⟩ | ⟨base, k, store, hbase, hs', hbooks, hr⟩
    · refine ⟨.inr ⟨herror, ?_⟩, .inl ⟨⟨_, _, _, rfl⟩, Q.book, ?_⟩⟩
      · intro hreach
        have hgap := hreach hnone
        rw [if_neg hremote] at hgap
        exact absurd (hgap.1 c hc) (not_le.mpr hfar)
      · exact h.set_behind (.refl _) ⟨_, _, _, rfl⟩ ((h.behind.books.mono hle).congr rfl rfl rfl)
    · have hstepped : s'.dhRemote ≠ Q.node.dhRemote := by
        rw [hs']
        exact hremote.symm
      have hkey' : e.header.dhPublicKey = P.node.dhSelfPublic := hkey
      rw [hkey'] at hbase hbooks
      refine ⟨?_, .inr ⟨hstepped, Function.update (Q.book.raise Q.node.dhRemote
        e.header.previousChainLength) P.node.dhSelfPublic (some (base, k)), ?_⟩⟩
      · rcases hr with ⟨herror, hfar⟩ | rfl
        · refine .inr ⟨herror, ?_⟩
          intro hreach
          have hgap := hreach hnone
          rw [if_neg hremote] at hgap
          exact absurd hgap.2 (not_le.mpr hfar)
        · rw [hbase]
          exact .inl (congrArg _ hsealed.symm)
      · have hshape : ({ s' with spqr } : RatchetSession Key) =
            { Q.node.performDhRatchetStep C rng e.header with
              receivingChain := some (.at C.hash base k), skipped := store, spqr } := by
          rw [hs']
        exact h.exchange hX hP hkey hprevious hbase hshape rfl (hbooks.congr rfl rfl rfl)
          (hfresh hstepped)
  · have hpos' := hpos.imp_right And.left
    obtain ⟨book', hgrows, hsame, hbooks, hresolved⟩ :=
      h.behind.resolve_known hbook hsealed hpos' hnew hle htaken hec hlen
    exact ⟨hresolved, .inl ⟨hsame, book',
      h.set_behind hgrows (hsame.setSpqr spqr) (hbooks.congr rfl rfl rfl)⟩⟩

end Deliveries

end Hushwire
