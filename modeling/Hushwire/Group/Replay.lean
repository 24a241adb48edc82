import Hushwire.Group.Delivery

/-!
# Sender keys and messages of anyone's making

What calls of `group_decrypt` do to a receiver when the messages are arbitrary: forged, replayed,
out of order, authenticated or not.

* `groupDecrypt_window` — one call.  A receiver made from a distribution message stands at a
  `Window` all the time; a call either fails and leaves it there, or it takes the message's
  iteration as `Window.accept` does.
* `replay_rejected` — all calls.  An iteration is accepted at most once, and the store is what it
  should be at every point.
* `group_rejected_unchanged_iff` — a call that fails.  It changes the receiver exactly if the
  message is authenticated and its key is in the store: the key is taken out before it is tried.
-/

namespace Hushwire

variable {Key : Type}

/-! ## One call -/

section Call

variable {G : GroupSuite Key} {d : SenderKeyDistributionMessage Key} {w : Window}

/-- The message key of iteration `i` on the chain that the distribution message starts. -/
def SenderKeyDistributionMessage.messageKey (H : Hash Key) (d : SenderKeyDistributionMessage Key)
    (i : ℕ) : Key :=
  senderMessageKey H d.chainKey (i - d.iteration)

/-- The receiver of the distribution message, standing where the window says. -/
def SenderKeyState.onWindow (H : Hash Key) (d : SenderKeyDistributionMessage Key) (w : Window) :
    SenderKeyState Key :=
  { SenderKeyState.fromDistribution d with
    chainKey := senderChainKey H d.chainKey (w.next - d.iteration)
    iteration := w.next
    skippedMessageKeys := w.kept.map (fun i => (i, d.messageKey H i)) }

lemma fromDistribution_eq_onWindow (H : Hash Key) (d : SenderKeyDistributionMessage Key) :
    SenderKeyState.fromDistribution d = .onWindow H d ⟨d.iteration, []⟩ := by
  simp only [SenderKeyState.onWindow, Nat.sub_self]
  rfl

lemma onWindow_eq_standing : SenderKeyState.onWindow G.hash d w =
    (SenderKeyState.fromDistribution d).standing G.hash d.chainKey d.iteration w := rfl

/-- **One call on any message.**  It fails and leaves the receiver as it was, or it takes the
message's iteration.  A kept key is taken whether or not it opens the message. -/
theorem groupDecrypt_window (hw : w.Within d.iteration maxGroupSkip) (m : SenderKeyMessage) :
    (∃ e, groupDecrypt G m (.onWindow G.hash d w) = (.error e, .onWindow G.hash d w)) ∨
      ∃ w', w.accept maxGroupSkip m.iteration = some w' ∧
        (groupDecrypt G m (.onWindow G.hash d w)).2 = .onWindow G.hash d w' := by
  simp only [onWindow_eq_standing]
  rcases hauth : authenticate G ((SenderKeyState.fromDistribution d).standing G.hash d.chainKey
      d.iteration w) m with e | _
  · exact .inl ⟨e, by simp only [groupDecrypt, hauth]⟩
  by_cases hkept : m.iteration ∈ w.kept
  · exact .inr ⟨_, Window.accept_of_mem hkept, congrArg Prod.snd (groupDecrypt_kept hauth hkept)⟩
  · have hcall := groupDecrypt_notKept hauth hw.start_le hkept
    rw [Window.accept_of_notMem hkept]
    rcases hahead : w.ahead maxGroupSkip m.iteration with - | w'
    · rw [hahead] at hcall
      exact .inl hcall
    · rw [hahead] at hcall
      dsimp only at hcall
      rcases hopen : Aead.decrypt G.hash G.xchacha (senderMessageKey G.hash d.chainKey
          (m.iteration - d.iteration)) m.ciphertext m.groupId with e | plaintext
      · rw [hopen] at hcall
        exact .inl ⟨e, hcall⟩
      · rw [hopen] at hcall
        exact .inr ⟨w', rfl, congrArg Prod.snd hcall⟩

end Call

/-! ## All calls -/

/-- The iterations of the messages for which the results are `Ok`. -/
def acceptedIterations : List SenderKeyMessage → List (Result Bytes) → List ℕ
  | m :: ms, .ok _ :: results => m.iteration :: acceptedIterations ms results
  | _ :: ms, .error _ :: results => acceptedIterations ms results
  | _, _ => []

section Calls

variable {G : GroupSuite Key} {d : SenderKeyDistributionMessage Key}

/-- **Calls on any messages.**  The receiver ends at a window again.  What is accepted was not spent
before and is spent afterwards, so it is accepted once. -/
lemma groupDecryptAll_window (ms : List SenderKeyMessage) : ∀ w : Window, w.Valid →
    w.Within d.iteration maxGroupSkip →
    ∃ w' : Window, (groupDecryptAll G (.onWindow G.hash d w) ms).2 = .onWindow G.hash d w' ∧
      w'.Valid ∧ w'.Within d.iteration maxGroupSkip ∧
      (acceptedIterations ms (groupDecryptAll G (.onWindow G.hash d w) ms).1).Nodup ∧
      ∀ i ∈ acceptedIterations ms (groupDecryptAll G (.onWindow G.hash d w) ms).1,
        ¬ w.Spent i := by
  induction ms with
  | nil =>
      intro w hvalid hwithin
      exact ⟨w, rfl, hvalid, hwithin, List.nodup_nil, fun i hi => absurd hi List.not_mem_nil⟩
  | cons m ms ih =>
      intro w hvalid hwithin
      rw [groupDecryptAll]
      rcases groupDecrypt_window hwithin m with ⟨e, hcall⟩ | ⟨w₁, haccept, hstate⟩
      · rw [hcall]
        exact ih w hvalid hwithin
      · obtain ⟨hnew, hspent, hmono⟩ := hvalid.spent_accept haccept
        obtain ⟨w', hend, hvalid', hwithin', hnodup, hfresh⟩ :=
          ih w₁ (hvalid.accept haccept) (hwithin.accept haccept)
        simp only [hstate]
        refine ⟨w', hend, hvalid', hwithin', ?_⟩
        have hrest : ∀ i ∈ acceptedIterations ms
            (groupDecryptAll G (.onWindow G.hash d w₁) ms).1, ¬ w.Spent i :=
          fun i hi hold => hfresh i hi (hmono i hold)
        -- what is accepted now is spent for the rest of the run
        rcases (groupDecrypt G m (.onWindow G.hash d w)).1 with e | plaintext
        · exact ⟨hnodup, hrest⟩
        · refine ⟨List.nodup_cons.mpr ⟨fun hi => hfresh _ hi hspent, hnodup⟩, ?_⟩
          intro i hi
          rcases List.mem_cons.mp hi with rfl | hi
          · exact hnew
          · exact hrest i hi

end Calls

/-- **Sender-key replay rejection.**  Take a receiver made from any distribution message and any
calls of `group_decrypt` on it, on messages of anyone's making.  No iteration is accepted twice.
The store has at most 2000 entries, for distinct iterations that the chain has passed, each with the
message key of its iteration. -/
theorem replay_rejected (G : GroupSuite Key) (d : SenderKeyDistributionMessage Key)
    (ms : List SenderKeyMessage) :
    let out := groupDecryptAll G (.fromDistribution d) ms
    (acceptedIterations ms out.1).Nodup ∧
      out.2.skippedMessageKeys.length ≤ maxGroupSkip ∧
      (out.2.skippedMessageKeys.map Prod.fst).Nodup ∧
      ∀ i mk, (i, mk) ∈ out.2.skippedMessageKeys →
        d.iteration ≤ i ∧ i < out.2.iteration ∧ mk = d.messageKey G.hash i := by
  intro out
  obtain ⟨w, hend, hvalid, hwithin, hnodup, -⟩ := groupDecryptAll_window (G := G) (d := d) ms
    ⟨d.iteration, []⟩ ⟨fun i hi => absurd hi List.not_mem_nil, List.nodup_nil⟩
    ⟨le_rfl, fun i hi => absurd hi List.not_mem_nil, Nat.zero_le _⟩
  rw [← fromDistribution_eq_onWindow] at hend hnodup
  have hstore : out.2.skippedMessageKeys = w.kept.map (fun i => (i, d.messageKey G.hash i)) :=
    congrArg SenderKeyState.skippedMessageKeys hend
  have hiteration : out.2.iteration = w.next := congrArg SenderKeyState.iteration hend
  refine ⟨hnodup, ?_, ?_, ?_⟩
  · rw [hstore, List.length_map]
    exact hwithin.length_le
  · rw [hstore, List.map_map]
    exact (List.map_id' w.kept).symm ▸ hvalid.nodup
  · intro i mk hmem
    rw [hstore] at hmem
    obtain ⟨j, hj, heq⟩ := List.mem_map.mp hmem
    obtain ⟨rfl, rfl⟩ := Prod.mk.inj heq
    exact ⟨hwithin.kept_ge j hj, hiteration ▸ hvalid.behind j hj, rfl⟩

/-! ## A call that fails -/

section Failure

variable {G : GroupSuite Key} {m : SenderKeyMessage} {state : SenderKeyState Key}

/-- Any other failure leaves the state alone. -/
lemma groupDecrypt_error_unchanged
    (hfind : authenticate G state m = .ok () →
      state.skippedMessageKeys.find? (fun p => p.1 = m.iteration) = none)
    {e : CryptoError} {state' : SenderKeyState Key}
    (h : groupDecrypt G m state = (.error e, state')) : state' = state := by
  rcases groupDecrypt_cases G m state with ⟨e', hcall⟩ | ⟨p, hauth, hstored, -⟩ |
    ⟨skipped, plaintext, hcall⟩
  · exact (congrArg Prod.snd (hcall.symm.trans h)).symm
  · cases (hfind hauth).symm.trans hstored
  · cases congrArg Prod.fst (hcall.symm.trans h)

end Failure

/-- **When a rejected message leaves no trace.**  The receiver is as it was unless the message was
authenticated and the key of its iteration was in the store.  Then the key is gone. -/
theorem group_rejected_unchanged_iff (G : GroupSuite Key) (m : SenderKeyMessage)
    {state state' : SenderKeyState Key} {e : CryptoError}
    (h : groupDecrypt G m state = (.error e, state')) :
    state' = state ↔ ¬ (authenticate G state m = .ok () ∧
      ∃ mk, (m.iteration, mk) ∈ state.skippedMessageKeys) := by
  constructor
  · rintro rfl ⟨hauth, mk, hmem⟩
    rcases hfind : state'.skippedMessageKeys.find? (fun p => p.1 = m.iteration) with - | p
    · exact absurd (decide_eq_true rfl) (List.find?_eq_none.mp hfind _ hmem)
    · rw [groupDecrypt_of_stored hauth hfind] at h
      have hstore := congrArg (fun s => s.skippedMessageKeys.length) (Prod.mk.inj h).2
      have hlen := List.length_eraseP_of_mem (List.mem_of_find?_eq_some hfind)
        (List.find?_some hfind)
      have hpos := List.length_pos_of_mem hmem
      simp only at hstore
      omega
  · intro hnot
    apply groupDecrypt_error_unchanged _ h
    intro hauth
    apply List.find?_eq_none.mpr
    rintro ⟨j, mk⟩ hmem hj
    obtain rfl : j = m.iteration := of_decide_eq_true hj
    exact hnot ⟨hauth, mk, hmem⟩

/-- A message that the sender has signed and that opens under no key. -/
def signedGarbage : SenderKeyMessage where
  groupId := []
  iteration := 0
  ciphertext := []
  auth := .signature (Ideal.ed25519.sign [] (authenticatedData [] 0 []))

/-- Of two messages only the second has arrived, so the receiver holds the key of the first. -/
lemma deliver_second :
    let run := groupRun idealGroup 0 [] [] .signed [] twoCalls
    (deliver idealGroup run.1 [1] run.2).2 = run.2.atWindow idealGroup.hash 0 ⟨2, [0]⟩ := by
  intro run
  obtain ⟨-, -, hdeliver⟩ := groupRun_window idealGroup_correct 0 [] [] .signed [] twoCalls
  have hplain : run.1.map Prod.snd = [[10], [11]] := plaintexts_twoCalls .signed
  have htake : (takeAll .signed [[10], [11]] (.after 0 []) [1]).2 = ⟨2, [0]⟩ := by decide
  rw [← htake, ← hplain]
  exact (hdeliver [1]).2

/-- That key is taken out for the signed garbage and does not fit. -/
lemma groupDecrypt_signedGarbage :
    let run := groupRun idealGroup 0 [] [] .signed [] twoCalls
    authenticate idealGroup (run.2.atWindow idealGroup.hash 0 ⟨2, [0]⟩) signedGarbage = .ok () ∧
      groupDecrypt idealGroup signedGarbage (run.2.atWindow idealGroup.hash 0 ⟨2, [0]⟩) =
        (.error .invalidCiphertext, run.2.atWindow idealGroup.hash 0 ⟨2, []⟩) := by
  intro run
  obtain ⟨hr, -, -⟩ := groupRun_window idealGroup_correct 0 [] [] .signed [] twoCalls
  have hauth : authenticate idealGroup (run.2.atWindow idealGroup.hash 0 ⟨2, [0]⟩) signedGarbage =
      .ok () := authenticate_of_signature idealGroup_correct hr.atWindow rfl
  exact ⟨hauth, groupDecrypt_of_stored hauth rfl⟩

/-- With a key in the store: the signed garbage is rejected and costs it, an HMAC tag on the signed
chain is rejected and costs nothing. -/
theorem group_rejected_unchanged_iff_one_stored :
    let run := groupRun idealGroup 0 [] [] .signed [] twoCalls
    let state := (deliver idealGroup run.1 [1] run.2).2
    (∃ state', groupDecrypt idealGroup signedGarbage state = (.error .invalidCiphertext, state') ∧
        state' ≠ state) ∧
      ∃ state', groupDecrypt idealGroup ⟨[], 0, [], .hmac []⟩ state =
          (.error .invalidSignature, state') ∧ state' = state := by
  intro run state
  have hstate : state = run.2.atWindow idealGroup.hash 0 ⟨2, [0]⟩ := deliver_second
  obtain ⟨hauth, hgarbage⟩ := groupDecrypt_signedGarbage
  have hwrong : authenticate idealGroup (run.2.atWindow idealGroup.hash 0 ⟨2, [0]⟩)
      ⟨[], 0, [], .hmac []⟩ = .error .invalidSignature := rfl
  obtain ⟨state', hunauthentic⟩ : ∃ state', groupDecrypt idealGroup ⟨[], 0, [], .hmac []⟩
      (run.2.atWindow idealGroup.hash 0 ⟨2, [0]⟩) = (.error .invalidSignature, state') := by
    rw [groupDecrypt, hwrong]
    exact ⟨_, rfl⟩
  rw [hstate]
  refine ⟨⟨_, hgarbage, ?_⟩, state', hunauthentic, ?_⟩
  · intro heq
    exact (group_rejected_unchanged_iff idealGroup signedGarbage hgarbage).mp heq
      ⟨hauth, _, List.mem_singleton_self _⟩
  · refine (group_rejected_unchanged_iff idealGroup _ hunauthentic).mpr ?_
    rintro ⟨hok, -⟩
    cases hwrong.symm.trans hok

/-- **A rejected message costs a key.**  Of two messages only the second has arrived, so the
receiver holds the key of the first.  A message with the iteration of the first one is authenticated
and does not open: it is rejected, and the first message, which could be opened before, cannot be
opened any more. -/
theorem rejected_message_costs_key :
    let run := groupRun idealGroup 0 [] [] .signed [] twoCalls
    let state := (deliver idealGroup run.1 [1] run.2).2
    ∃ m state', run.1[0]? = some (m, [10]) ∧ (groupDecrypt idealGroup m state).1 = .ok [10] ∧
      groupDecrypt idealGroup signedGarbage state = (.error .invalidCiphertext, state') ∧
      state' ≠ state ∧ ∃ e, (groupDecrypt idealGroup m state').1 = .error e := by
  intro run state
  obtain ⟨hr, hgenuine, -⟩ := groupRun_window idealGroup_correct 0 [] [] .signed [] twoCalls
  have hplain : run.1.map Prod.snd = [[10], [11]] := plaintexts_twoCalls .signed
  have hstate : state = run.2.atWindow idealGroup.hash 0 ⟨2, [0]⟩ := deliver_second
  obtain ⟨m, hm⟩ : ∃ m, run.1[0]? = some (m, [10]) := by
    obtain ⟨⟨m, plaintext⟩, rest, hrun⟩ := List.exists_cons_of_ne_nil
      (fun hnil => by simp [hnil] at hplain : run.1 ≠ [])
    rw [hrun] at hplain
    obtain ⟨rfl, -⟩ := List.cons.inj hplain
    exact ⟨m, by rw [hrun]; rfl⟩
  have hm' := hgenuine 0 m [10] hm
  -- with the key in the store the first message opens
  have hbefore := groupDecrypt_genuine (w := ⟨2, [0]⟩) idealGroup_correct hr
    ⟨by decide, by decide⟩ hm'
  obtain ⟨-, hgarbage⟩ := groupDecrypt_signedGarbage
  -- and without it the iteration is one that was passed
  obtain ⟨e, hafter⟩ := groupDecrypt_genuine (w := ⟨2, []⟩) idealGroup_correct hr
    ⟨by decide, by decide⟩ hm'
  rw [hstate]
  refine ⟨m, _, hm, ?_, hgarbage, ?_, e, ?_⟩
  · exact congrArg Prod.fst hbefore
  · intro heq
    cases congrArg SenderKeyState.skippedMessageKeys heq
  · rw [hafter]

end Hushwire
