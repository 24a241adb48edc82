import Hushwire.Ratchet.Holdings

/-!
# The moves of the EC ratchet

What any call on a session can do to the keys of its EC ratchet, said once.  A call is made up of
the moves of `EcMove`: the next key of a chain is used, or put into the store, a stored key is used,
or both chains are replaced in a Diffie-Hellman step.  Besides the session a move has the list of
keys that were used so far.

`ecMoves_inductive` is the rule: what every move preserves, every call on a session preserves, on a
message of anyone's making.
-/

namespace Hushwire

open Duplex

variable {Key : Type}

/-! ## Keys that were used -/

/-- The EC key a session has taken, for a message it sent or was handed. -/
def SessionEvent.ecKey? : SessionEvent Key → Option Key
  | .sealed _ ecMk _ _ _ => some ecMk
  | .handedOut _ _ ecMk => some ecMk
  | _ => none

/-- The EC keys a session has taken. -/
def ecKeysUsed (log : List (SessionEvent Key)) : List Key := log.filterMap SessionEvent.ecKey?

@[simp] lemma ecKeysUsed_append (log log' : List (SessionEvent Key)) :
    ecKeysUsed (log ++ log') = ecKeysUsed log ++ ecKeysUsed log' := List.filterMap_append

@[simp] lemma ecKeysUsed_map (evs : List (SpqrEvent Key)) : ecKeysUsed (evs.map .spqr) = [] := by
  simp [ecKeysUsed, SessionEvent.ecKey?]

/-- A send that seals a message takes one key. -/
lemma ecKeysUsed_sealed (evs : List (SpqrEvent Key)) (header : MessageHeader Key) (ecMk pqMk : Key)
    (plaintext : Bytes) (message : RatchetMessage) :
    ecKeysUsed (evs.map .spqr ++ [.sealed header ecMk pqMk plaintext message]) = [ecMk] := by
  rw [ecKeysUsed_append, ecKeysUsed_map]
  rfl

lemma ecKeysUsed_ratchetEvents [DecidableEq Key] (C : Suite Key) (header : MessageHeader Key)
    (s : RatchetSession Key) (remote : Option Key) (own : Key) :
    ecKeysUsed (ratchetEvents C header s remote own) = [] := by
  unfold ratchetEvents
  split <;> rfl

/-! ## Moves -/

section Moves

variable [DecidableEq Key]

/-- A move, from a session and the keys it has used to a session and the keys that one has used. -/
inductive EcMove (H : Hash Key) :
    RatchetSession Key × List Key → RatchetSession Key × List Key → Prop
  /-- The keys of the EC ratchet stay where they are. -/
  | still {s s' : RatchetSession Key} {used : List Key} (hslot : s'.ecSlot = s.ecSlot) :
      EcMove H (s, used) (s', used)
  /-- The next key of the sending chain is used. -/
  | send {s : RatchetSession Key} {used : List Key} {chain : ChainState Key}
      (hc : s.sendingChain = some chain) :
      EcMove H (s, used) ({ s with sendingChain := some (chain.advance H).2 },
        used ++ [(chain.advance H).1])
  /-- The next key of the receiving chain is stored, if there is room. -/
  | store {s : RatchetSession Key} {used : List Key} {chain : ChainState Key}
      (hc : s.receivingChain = some chain) (n : ℕ) (dh : Key) :
      EcMove H (s, used) ({ s with
        receivingChain := some (chain.advance H).2
        skipped := s.skipped.insert n dh (chain.advance H).1 }, used)
  /-- A Diffie-Hellman step with these two outputs. -/
  | step {s : RatchetSession Key} {used : List Key} (d₁ d₂ : Key) :
      EcMove H (s, used) ({ s with
        rootKey := (H.kdfRk (H.kdfRk s.rootKey d₁).rootKey d₂).rootKey
        receivingChain := some (.new (H.kdfRk s.rootKey d₁).chainKey)
        sendingChain := some (.new (H.kdfRk (H.kdfRk s.rootKey d₁).rootKey d₂).chainKey) }, used)
  /-- A stored key is used. -/
  | take {s : RatchetSession Key} {used : List Key} {dh key : Key} {n : ℕ}
      (hkey : s.skipped.find dh n = some key) :
      EcMove H (s, used) ({ s with skipped := s.skipped.remove dh n }, used ++ [key])
  /-- The next key of the receiving chain is used. -/
  | receive {s : RatchetSession Key} {used : List Key} {chain : ChainState Key}
      (hc : s.receivingChain = some chain) :
      EcMove H (s, used) ({ s with receivingChain := some (chain.advance H).2 },
        used ++ [(chain.advance H).1])
  /-- The last key that was used is not reported. -/
  | forget {s : RatchetSession Key} {used : List Key} {k : Key} :
    EcMove H (s, used ++ [k]) (s, used)

/-- Any number of moves. -/
def EcMoves (H : Hash Key) (p q : RatchetSession Key × List Key) : Prop :=
  Relation.ReflTransGen (EcMove H) p q

variable {C : Suite Key} {H : Hash Key} {s s' : RatchetSession Key} {used : List Key}

namespace EcMoves

lemma single {p q : RatchetSession Key × List Key} (h : EcMove H p q) : EcMoves H p q :=
  Relation.ReflTransGen.single h

lemma still (hslot : s'.ecSlot = s.ecSlot) :
    EcMoves H (s, used) (s', used) := .single (.still hslot)

/-- What every move preserves, any number of moves preserves. -/
lemma preserves {I : RatchetSession Key → List Key → Prop}
    (hI : ∀ {s s' : RatchetSession Key} {used used' : List Key}, EcMove H (s, used) (s', used') →
      I s used → I s' used') {p q : RatchetSession Key × List Key} (h : EcMoves H p q)
    (hp : I p.1 p.2) : I q.1 q.2 := by
  induction h with
  | refl => exact hp
  | tail _ hmove ih => exact hI hmove ih

/-! ### Receiving -/

lemma skipKeys (dh : Key) (k : ℕ) :
    ∀ {s : RatchetSession Key} {chain : ChainState Key}, s.receivingChain = some chain →
      EcMoves H (s, used) ({ s with
        receivingChain := some (RatchetSession.skipKeys H dh k chain s.skipped).1
        skipped := (RatchetSession.skipKeys H dh k chain s.skipped).2 }, used) := by
  induction k with
  | zero =>
      intro s chain hc
      refine .still ?_
      simp only [RatchetSession.skipKeys, ← hc]
  | succ k ih =>
      intro s chain hc
      exact .head (.store hc ((chain.advance H).2.messageNumber - 1) dh) (ih rfl)

lemma skips {upTo : ℕ} {r : Result Unit} (hskip : RatchetSession.Skips H upTo s r s') :
    EcMoves H (s, used) (s', used) := by
  cases hskip with
  | noChain _ => exact .refl
  | passed _ _ => exact .refl
  | tooFar _ _ => exact .refl
  | stored hc _ _ => exact skipKeys _ _ hc

lemma performDhRatchetStep (rng : Rng) (header : MessageHeader Key) :
    EcMoves C.hash (s, used) (s.performDhRatchetStep C rng header, used) :=
  .tail (.single (.step (C.x25519.diffieHellman s.dhSelf header.dhPublicKey)
    (C.x25519.diffieHellman (rng.fill 32) header.dhPublicKey))) (.still rfl)

lemma ratchets {rng : Rng} {header : MessageHeader Key} {r : Result Unit}
    (hratchet : RatchetSession.Ratchets C rng header s r s') :
    EcMoves C.hash (s, used) (s', used) := by
  cases hratchet with
  | same _ => exact .refl
  | refused _ hskip => exact skips hskip
  | stepped _ hskip => exact (skips hskip).trans (performDhRatchetStep rng header)

/-- **The EC half of a delivery**, whatever it makes of the message. -/
theorem resolves {rng : Rng} {header : MessageHeader Key} {r : Result Key}
    (hresolves : RatchetSession.Resolves C rng header s r s') :
    EcMoves C.hash (s, used) (s', used ++ r.toOption.toList) := by
  have hnothing : ∀ e : CryptoError, used ++ (Except.error e : Result Key).toOption.toList = used :=
    fun _ => List.append_nil used
  cases hresolves with
  | stored hkey => exact .single (.take hkey)
  | refused _ hratchet =>
      rw [hnothing]
      exact ratchets hratchet
  | tooFar _ hratchet hskip =>
      rw [hnothing]
      exact (ratchets hratchet).trans (skips hskip)
  | noChain _ hratchet hskip _ =>
      rw [hnothing]
      exact (ratchets hratchet).trans (skips hskip)
  | advanced _ hratchet hskip hc =>
      exact ((ratchets hratchet).trans (skips hskip)).tail (.receive hc)

/-! ### Sending -/

/-- A send takes the next key of the sending chain, if it gets that far. -/
lemma sendKeys (rng : Rng) : EcMoves C.hash (s, used) ((s.sendKeys C rng).2,
    used ++ ((s.sendKeys C rng).1.toOption.map (fun keys => keys.2.1)).toList) := by
  obtain ⟨r, spqr, -, ⟨⟨e, hkeys⟩, -⟩ | ⟨m, pqN, pqMk, chain, -, hc, hkeys⟩⟩ :=
    RatchetSession.sendKeys_eq C rng s
  · rw [hkeys]
    show EcMoves C.hash (s, used) ({ s with spqr }, used ++ [])
    rw [List.append_nil]
    exact .still rfl
  · rw [hkeys]
    exact (single (.send hc)).tail (.still rfl)

end EcMoves

/-- **The rule for invariants of the EC ratchet.**  What every move preserves, every call on a
session preserves. -/
theorem ecMoves_inductive {I : RatchetSession Key → List Key → Prop}
    (hI : ∀ {s s' : RatchetSession Key} {used used' : List Key},
      EcMove C.hash (s, used) (s', used') → I s used → I s' used') :
    (sessionMachine C).Inductive (fun s log => I s (ecKeysUsed log)) where
  send s log input h := by
    cases hpending : s.pendingPrekey with
    | some initial =>
        rw [sessionMachine_send_pending input (by rw [hpending]; rfl), List.append_nil]
        exact h
    | none =>
        obtain ⟨om, own, hcall, hown⟩ := sessionMachine_send (C := C) input hpending
        have h' : I (s.sendKeys C input.rng).2 (ecKeysUsed log ++
            ((s.sendKeys C input.rng).1.toOption.map (fun keys => keys.2.1)).toList) :=
          (EcMoves.sendKeys input.rng).preserves hI h
        rw [hcall, ecKeysUsed_append, ecKeysUsed_append, ecKeysUsed_map, List.nil_append]
        rcases hown with ⟨-, rfl⟩ | ⟨header, ecMk, pqMk, ciphertext, hkeys, -, -, rfl⟩
        · -- the key is gone even if the message was not sealed
          have hnone : ecKeysUsed log ++ ecKeysUsed [] = ecKeysUsed log := List.append_nil _
          rw [hnone]
          generalize s.sendKeys C input.rng = out at h' ⊢
          obtain ⟨e | keys, s'⟩ := out
          · rwa [Except.toOption, Option.map_none, Option.toList_none, List.append_nil] at h'
          · exact hI .forget h'
        · rw [hkeys] at h'
          exact h'
  recv s log message input h := by
    rcases sessionMachine_recv (C := C) (s := s) message input with ⟨-, hcall⟩ | ⟨header, -,
      ⟨e, s', hec, hcall⟩ | ⟨ecMk, s₁, own, hec, hcall, hown⟩⟩
    · rw [hcall, List.append_nil]
      exact h
    · have h' : I s' (ecKeysUsed log ++ []) := (EcMoves.resolves (.of_eq hec)).preserves hI h
      rw [hcall, ecKeysUsed_append, ecKeysUsed_ratchetEvents]
      exact h'
    · have h' : I s₁ (ecKeysUsed log ++ [ecMk]) :=
        (EcMoves.resolves (.of_eq hec)).preserves hI h
      have hown' : ecKeysUsed own = [] := by
        rcases hown with rfl | ⟨_, _, _, -, rfl⟩ <;> rfl
      rw [hcall, ecKeysUsed_append, ecKeysUsed_append, ecKeysUsed_ratchetEvents, List.nil_append]
      have hlog : ∀ evs : List (SpqrEvent Key), ecKeysUsed
          (.handedOut header.dhPublicKey header.messageNumber ecMk :: (evs.map .spqr ++ own)) =
            [ecMk] := by
        intro evs
        show ecMk :: ecKeysUsed (evs.map .spqr ++ own) = [ecMk]
        rw [ecKeysUsed_append, ecKeysUsed_map, hown']
        rfl
      rw [hlog]
      exact hI (.still (s := s₁) rfl) h'

end Moves

end Hushwire
