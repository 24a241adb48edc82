import Hushwire.Group.Secrecy

/-!
# Who has written a group message

All who hold a copy of a sender's chain have the keys of its messages.  What they cannot do, on a
signed chain, is write one: the seed of the signing key is in no distribution message.

* `signed_group_agreement` — on a signed chain, in any run of all parties, what a party opens was
  sent by the party that made the chain, with the same group, iteration, ciphertext and plaintext,
  and it is opened once.  The messages that parties are handed may be of anyone's making, also of
  another party's; signatures are not forged (`SignaturesGenuine`).
* `member_writes_iff_hmac` — on an HMAC chain a party that is not the sender needs nothing but a
  flag.  A message that it makes from its own copy is opened by every party that can reach its
  iteration.

A signature covers the group's id, the iteration and the ciphertext in one string, so that the two
of variable length can only be told apart where group ids have one length (`GroupEvent.Sized`).
-/

namespace Hushwire

variable {Key : Type}

/-! ## What happens in a run -/

/-- A message that a party has sent, or has opened. -/
inductive GroupEvent
  | sent (party : ℕ) (m : SenderKeyMessage) (plaintext : Bytes)
  | opened (party : ℕ) (m : SenderKeyMessage) (plaintext : Bytes)

namespace GroupEvent

/-- What a message says, but for the signature. -/
def content (m : SenderKeyMessage) (plaintext : Bytes) : Bytes × ℕ × Bytes × Bytes :=
  (m.groupId, m.iteration, m.ciphertext, plaintext)

/-- What party `p` has sent. -/
def sent? (p : ℕ) : GroupEvent → Option (Bytes × ℕ × Bytes × Bytes)
  | sent q m plaintext => if q = p then some (content m plaintext) else none
  | opened _ _ _ => none

/-- What party `p` has opened. -/
def opened? (p : ℕ) : GroupEvent → Option (Bytes × ℕ × Bytes × Bytes)
  | sent _ _ _ => none
  | opened q m plaintext => if q = p then some (content m plaintext) else none

/-- Group ids have `n` bytes, and the iteration is a `u32`. -/
def Sized (n : ℕ) : GroupEvent → Prop
  | sent _ m _ => m.groupId.length = n ∧ m.iteration < 2 ^ 32
  | opened _ m _ => m.groupId.length = n ∧ m.iteration < 2 ^ 32

end GroupEvent

section Events

variable (G : GroupSuite Key)

/-- What a use does, seen from outside. -/
def SenderKeyUse.event (party : ℕ) (state : SenderKeyState Key) : SenderKeyUse → Option GroupEvent
  | encrypt call =>
      match (groupEncrypt G call.rng call.groupId call.plaintext state).1 with
      | .error _ => none
      | .ok m => some (.sent party m call.plaintext)
  | decrypt m =>
      match (groupDecrypt G m state).1 with
      | .error _ => none
      | .ok plaintext => some (.opened party m plaintext)
  | reload => none

/-- What an action does. -/
def GroupAction.event (parties : List (SenderKeyState Key)) : GroupAction → Option GroupEvent
  | use party call => parties[party]?.bind (fun state => call.event G party state)
  | share _ _ => none

/-- All that happens from given states on. -/
def eventsFrom (parties : List (SenderKeyState Key)) : List GroupAction → List GroupEvent
  | [] => []
  | action :: actions =>
      (action.event G parties).toList ++ eventsFrom (action.apply G parties) actions

/-- All that happens in a run. -/
def groupLog (chainKey : Key) (seed groupId : Bytes) (auth : SenderKeyAuth)
    (actions : List GroupAction) : List GroupEvent :=
  eventsFrom G [(createSenderKeyDistributionMessage G chainKey seed groupId auth).1] actions

end Events

section Logs

variable {G : GroupSuite Key}

lemma eventsFrom_append (actions actions' : List GroupAction) :
    ∀ parties, eventsFrom G parties (actions ++ actions') = eventsFrom G parties actions ++
      eventsFrom G (actions.foldl (GroupAction.apply G) parties) actions' := by
  induction actions with
  | nil => intro parties; rfl
  | cons action actions ih =>
      intro parties
      rw [List.cons_append, eventsFrom, ih, eventsFrom, List.append_assoc, List.foldl_cons]

lemma groupLog_concat (chainKey : Key) (seed groupId : Bytes) (auth : SenderKeyAuth)
    (actions : List GroupAction) (action : GroupAction) :
    groupLog G chainKey seed groupId auth (actions ++ [action]) =
      groupLog G chainKey seed groupId auth actions ++
        (action.event G (groupAfter G chainKey seed groupId auth actions)).toList := by
  rw [groupLog, eventsFrom_append, eventsFrom, eventsFrom, List.append_nil]
  rfl

lemma groupAfter_concat {chainKey : Key} {seed groupId : Bytes} {auth : SenderKeyAuth}
    (actions : List GroupAction) (action : GroupAction) :
    groupAfter G chainKey seed groupId auth (actions ++ [action]) =
      action.apply G (groupAfter G chainKey seed groupId auth actions) := List.foldl_concat _ _ _ _

/-- What is behind an event. -/
lemma of_event {parties : List (SenderKeyState Key)} {action : GroupAction} {e : GroupEvent}
    (h : action.event G parties = some e) :
    (∃ p state call m, parties[p]? = some state ∧ action = .use p (.encrypt call) ∧
      (groupEncrypt G call.rng call.groupId call.plaintext state).1 = .ok m ∧
      e = .sent p m call.plaintext) ∨
    ∃ p state m plaintext, parties[p]? = some state ∧ action = .use p (.decrypt m) ∧
      (groupDecrypt G m state).1 = .ok plaintext ∧ e = .opened p m plaintext := by
  cases action with
  | share p groupId => cases h
  | use p call =>
      obtain ⟨state, hstate, hevent⟩ := Option.bind_eq_some_iff.mp h
      cases call with
      | reload => cases hevent
      | encrypt call =>
          rw [SenderKeyUse.event] at hevent
          split at hevent
          · cases hevent
          · rename_i m hm
            exact .inl ⟨p, state, call, m, hstate, rfl, hm, (Option.some.inj hevent).symm⟩
      | decrypt m =>
          rw [SenderKeyUse.event] at hevent
          split at hevent
          · cases hevent
          · rename_i plaintext hopen
            exact .inr ⟨p, state, m, plaintext, hstate, rfl, hopen, (Option.some.inj hevent).symm⟩

end Logs

/-! ## Who holds which key -/

/-- A party's part in a chain: it verifies with the sender's key, and only party 0 can send and
sign. -/
structure HolderOf (G : GroupSuite Key) (seed : Bytes) (auth : SenderKeyAuth) (p : ℕ)
    (state : SenderKeyState Key) : Prop where
  receiver : ReceiverOf G seed auth state
  isSender_eq : p ≠ 0 → state.isSender = false
  signingPrivate_eq : p ≠ 0 → state.signingPrivate = none

section Holders

variable {G : GroupSuite Key} {seed : Bytes} {auth : SenderKeyAuth} {p : ℕ}
  {state : SenderKeyState Key}

/-- A receiver is told by its mode and its key. -/
lemma ReceiverOf.congr {state' : SenderKeyState Key} (h : ReceiverOf G seed auth state)
    (hmode : state'.authMode = state.authMode)
    (hpublic : state'.signingPublic = state.signingPublic) :
    ReceiverOf G seed auth state' := by
  cases auth with
  | signed => exact ⟨hmode.trans h.authMode_eq, hpublic.trans h.signingPublic_eq⟩
  | hmac => exact ⟨hmode.trans h.authMode_eq, hpublic.trans h.signingPublic_eq⟩

/-- No use changes what a party may do. -/
lemma apply_sender (state : SenderKeyState Key) (use : SenderKeyUse) :
    (use.apply G state).isSender = state.isSender ∧
    (use.apply G state).signingPrivate = state.signingPrivate := by
  cases use with
  | encrypt call =>
      rw [SenderKeyUse.apply]
      rcases groupEncrypt_cases G call.rng call.groupId call.plaintext state with
        ⟨e, hcall⟩ | ⟨ciphertext, auth, hcall⟩ <;> exact hcall ▸ ⟨rfl, rfl⟩
  | decrypt message =>
      rw [SenderKeyUse.apply]
      rcases groupDecrypt_cases G message state with ⟨e, hcall⟩ | ⟨p, -, -, hcall⟩ |
        ⟨skipped, plaintext, hcall⟩ <;> exact hcall ▸ ⟨rfl, rfl⟩
  | reload => exact ⟨rfl, rfl⟩

lemma HolderOf.apply (h : HolderOf G seed auth p state) (use : SenderKeyUse) :
    HolderOf G seed auth p (use.apply G state) := by
  obtain ⟨hmode, hpublic⟩ :
      (use.apply G state).authMode = state.authMode ∧
        (use.apply G state).signingPublic = state.signingPublic := apply_mode use
  obtain ⟨hsender, hprivate⟩ := apply_sender (G := G) state use
  refine ⟨h.receiver.congr hmode hpublic, ?_, ?_⟩
  · exact fun hp => hsender.trans (h.isSender_eq hp)
  · exact fun hp => hprivate.trans (h.signingPrivate_eq hp)

/-- A distribution message carries the public half of the key, and nothing to send with. -/
lemma HolderOf.shared (h : HolderOf G seed auth p state) (groupId : Bytes) (q : ℕ) :
    HolderOf G seed auth q (processSenderKeyDistributionMessage
      (distributionMessageForExisting state groupId)) := by
  refine ⟨h.receiver.congr ?_ rfl, fun _ => rfl, fun _ => rfl⟩
  apply (redistributed_authMode groupId).mpr
  rw [SenderKeyState.ModeFits, h.receiver.authMode_eq, h.receiver.signingPublic_eq]
  cases auth with
  | signed => exact iff_of_true rfl rfl
  | hmac => exact iff_of_false SenderKeyAuth.noConfusion Bool.noConfusion

/-- **Who holds which key**, after any actions. -/
theorem holderOf_groupAfter (base : Key) (seed groupId : Bytes) (auth : SenderKeyAuth)
    (actions : List GroupAction) :
    ∀ p state, (groupAfter G base seed groupId auth actions)[p]? = some state →
      HolderOf G seed auth p state := by
  induction actions using List.reverseRecOn with
  | nil =>
      intro p state hstate
      obtain ⟨hlt, rfl⟩ := List.getElem?_eq_some_iff.mp hstate
      rw [groupAfter, List.foldl_nil, List.length_singleton] at hlt
      refine ⟨?_, fun hp => absurd (Nat.lt_one_iff.mp hlt) hp,
        fun hp => absurd (Nat.lt_one_iff.mp hlt) hp⟩
      simp only [groupAfter, List.foldl_nil, List.getElem_singleton, create_eq]
      cases auth <;> exact ⟨rfl, rfl⟩
  | append_singleton actions action ih =>
      intro p state hstate
      rw [groupAfter_concat] at hstate
      rcases exists_before hstate with hold | ⟨old, call, hold, -, rfl⟩ |
        ⟨q, old, groupId, hold, -, -, rfl⟩
      · exact ih p state hold
      · exact (ih p old hold).apply call
      · exact (ih q old hold).shared groupId p

end Holders

/-! ## A message that was sent -/

section Sent

variable {G : GroupSuite Key} {base : Key} {state : SenderKeyState Key} {rng : Rng}
  {groupId plaintext : Bytes} {m : SenderKeyMessage}

/-- What `group_encrypt` puts into a message. -/
lemma groupEncrypt_eq_ok (h : (groupEncrypt G rng groupId plaintext state).1 = .ok m) :
    state.isSender = true ∧ m.groupId = groupId ∧ m.iteration = state.iteration ∧
      Aead.encrypt G.hash G.xchacha rng (hmacDerive G.hash state.chainKey 0x01) plaintext groupId =
        .ok m.ciphertext ∧
      messageAuth G state (authenticatedData groupId state.iteration m.ciphertext) =
        .ok m.auth := by
  simp only [groupEncrypt] at h
  split at h
  · cases h
  rename_i hsender
  split at h
  · cases h
  rename_i ciphertext hseal
  split at h
  · cases h
  rename_i auth hauth
  obtain rfl := Except.ok.inj h
  exact ⟨Bool.not_eq_false _ |>.mp hsender, rfl, rfl, hseal, hauth⟩

/-- It opens with the key of its iteration. -/
lemma decrypt_of_sent (hG : G.Correct) (hstate : state.OnChain G.hash base)
    (h : (groupEncrypt G rng groupId plaintext state).1 = .ok m) :
    Aead.decrypt G.hash G.xchacha (senderMessageKey G.hash base m.iteration)
      m.ciphertext m.groupId =
      .ok plaintext := by
  obtain ⟨-, hgroup, hiteration, hseal, -⟩ := groupEncrypt_eq_ok h
  obtain ⟨w, -, hw⟩ := hstate
  have hkey : senderMessageKey G.hash base m.iteration = hmacDerive G.hash state.chainKey 0x01 := by
    rw [hiteration, hw]
    rfl
  rw [hkey, hgroup]
  exact Aead.decrypt_encrypt G.hash hG.xchacha hseal

end Sent

/-! ## Signed chains -/

/-- **Signatures are not forged**, as a condition on a run: what a party authenticates on a signed
chain is what party 0 has signed before. -/
def SignaturesGenuine (G : GroupSuite Key) (base : Key) (seed groupId : Bytes)
    (actions : List GroupAction) : Prop :=
  ∀ before p m after, actions = before ++ .use p (.decrypt m) :: after →
    ∀ state, (groupAfter G base seed groupId .signed before)[p]? = some state →
      authenticate G state m = .ok () →
        ∃ m' plaintext, .sent 0 m' plaintext ∈ groupLog G base seed groupId .signed before ∧
          authenticatedData m'.groupId m'.iteration m'.ciphertext =
            authenticatedData m.groupId m.iteration m.ciphertext

/-- What holds of an event in the log of a run: a message that was sent or opened is one that the
key of its iteration opens; party 0 has sent it; if it was opened, its iteration is spent now. -/
def EventSound (G : GroupSuite Key) (base : Key) (parties : List (SenderKeyState Key))
    (log : List GroupEvent) : GroupEvent → Prop
  | .sent p m plaintext => p = 0 ∧
      Aead.decrypt G.hash G.xchacha (senderMessageKey G.hash base m.iteration) m.ciphertext
        m.groupId = .ok plaintext
  | .opened p m plaintext =>
      Aead.decrypt G.hash G.xchacha (senderMessageKey G.hash base m.iteration) m.ciphertext
        m.groupId = .ok plaintext ∧
      (∃ m' plaintext', .sent 0 m' plaintext' ∈ log ∧
        authenticatedData m'.groupId m'.iteration m'.ciphertext =
          authenticatedData m.groupId m.iteration m.ciphertext) ∧
      ∃ state, parties[p]? = some state ∧ state.window.Spent m.iteration

/-- What holds of a log. -/
structure LogSound (G : GroupSuite Key) (base : Key) (parties : List (SenderKeyState Key))
    (log : List GroupEvent) : Prop where
  sound : ∀ e ∈ log, EventSound G base parties log e
  nodup : ∀ p, (log.filterMap (GroupEvent.opened? p)).Nodup

section Signed

variable {G : GroupSuite Key} {base : Key} {seed groupId : Bytes}
  {parties : List (SenderKeyState Key)} {log : List GroupEvent}

/-- The log grows, and what is spent stays so. -/
lemma EventSound.mono {e : GroupEvent} (h : EventSound G base parties log e)
    (hchains : OnChains G.hash base parties) (action : GroupAction) (more : List GroupEvent) :
    EventSound G base (action.apply G parties) (log ++ more) e := by
  cases e with
  | sent p m plaintext => exact h
  | opened p m plaintext =>
      obtain ⟨hopens, ⟨m', plaintext', hmem, hdata⟩, state, hstate, hspent⟩ := h
      exact ⟨hopens, ⟨m', plaintext', List.mem_append_left _ hmem, hdata⟩,
        hchains.spent_foldl hstate hspent [action]⟩

lemma mem_opened? {p : ℕ} {x : Bytes × ℕ × Bytes × Bytes} :
    x ∈ log.filterMap (GroupEvent.opened? p) ↔
      ∃ m plaintext, .opened p m plaintext ∈ log ∧ GroupEvent.content m plaintext = x := by
  rw [List.mem_filterMap]
  constructor
  · rintro ⟨e, he, hx⟩
    cases e with
    | sent q m plaintext => cases hx
    | opened q m plaintext =>
        rw [GroupEvent.opened?] at hx
        split at hx
        · rename_i hq
          subst hq
          exact ⟨m, plaintext, he, Option.some.inj hx⟩
        · cases hx
  · rintro ⟨m, plaintext, he, rfl⟩
    exact ⟨_, he, if_pos rfl⟩

/-- A message of an iteration that is not spent has not been opened. -/
lemma LogSound.nodup_opened (h : LogSound G base parties log) {p : ℕ} {state : SenderKeyState Key}
    (hstate : parties[p]? = some state) {m : SenderKeyMessage}
    (hnew : ¬ state.window.Spent m.iteration) (plaintext : Bytes) (q : ℕ) :
    ((log ++ [GroupEvent.opened p m plaintext]).filterMap (GroupEvent.opened? q)).Nodup := by
  rw [List.filterMap_append]
  by_cases hq : p = q
  · subst hq
    have hlast : [GroupEvent.opened p m plaintext].filterMap (GroupEvent.opened? p) =
        [GroupEvent.content m plaintext] := by simp [GroupEvent.opened?]
    rw [hlast]
    refine List.nodup_append.mpr ⟨h.nodup p, List.nodup_singleton _, ?_⟩
    rintro x hx y hy rfl
    obtain rfl := List.mem_singleton.mp hy
    obtain ⟨m', plaintext', hmem, hcontent⟩ := mem_opened?.mp hx
    obtain ⟨-, -, state', hstate', hspent⟩ := h.sound _ hmem
    obtain rfl := Option.some.inj (hstate.symm.trans hstate')
    have hiteration : m'.iteration = m.iteration := (Prod.mk.inj (Prod.mk.inj hcontent).2).1
    exact hnew (hiteration ▸ hspent)
  · have hlast : [GroupEvent.opened p m plaintext].filterMap (GroupEvent.opened? q) = [] := by
      simp [GroupEvent.opened?, hq]
    rw [hlast, List.append_nil]
    exact h.nodup q

/-- The state of a party after its use. -/
lemma getElem?_use {p : ℕ} {state : SenderKeyState Key} (hstate : parties[p]? = some state)
    (call : SenderKeyUse) :
    (GroupAction.apply G parties (.use p call))[p]? = some (call.apply G state) := by
  rw [GroupAction.apply, List.getElem?_modify, hstate]
  exact congrArg some (if_pos rfl)

/-- **The log of a run.**  After any actions all events are sound, and no party has opened an
iteration twice. -/
theorem logSound_groupLog (hG : G.Correct) (actions : List GroupAction)
    (hgenuine : SignaturesGenuine G base seed groupId actions) :
    LogSound G base (groupAfter G base seed groupId .signed actions)
      (groupLog G base seed groupId .signed actions) := by
  induction actions using List.reverseRecOn with
  | nil =>
      refine ⟨fun e he => absurd he List.not_mem_nil, fun p => ?_⟩
      exact List.nodup_nil
  | append_singleton actions action ih =>
      have hbefore : SignaturesGenuine G base seed groupId actions := by
        rintro before p m after rfl
        exact hgenuine before p m (after ++ [action]) (by simp)
      have h := ih hbefore
      have hchains := onChain_groupAfter (G := G) base seed groupId .signed actions
      have hold : ∀ more, ∀ e ∈ groupLog G base seed groupId .signed actions,
          EventSound G base (action.apply G (groupAfter G base seed groupId .signed actions))
            (groupLog G base seed groupId .signed actions ++ more) e :=
        fun more e he => (h.sound e he).mono hchains action more
      rw [groupLog_concat, groupAfter_concat]
      rcases hevent : action.event G (groupAfter G base seed groupId .signed actions) with - | e
      · rw [Option.toList_none]
        refine ⟨fun e he => hold [] e ?_, fun p => ?_⟩
        · rwa [List.append_nil] at he
        · rw [List.append_nil]
          exact h.nodup p
      rw [Option.toList_some]
      rcases of_event hevent with ⟨p, state, call, m, hstate, rfl, hsent, rfl⟩ |
        ⟨p, state, m, plaintext, hstate, rfl, hopened, rfl⟩
      · -- only party 0 can send
        have hp : p = 0 := by
          by_contra hp
          have hfalse := (holderOf_groupAfter base seed groupId .signed actions p state
            hstate).isSender_eq hp
          rw [(groupEncrypt_eq_ok hsent).1] at hfalse
          cases hfalse
        subst hp
        refine ⟨fun e he => ?_, fun q => ?_⟩
        · rcases List.mem_append.mp he with he | he
          · exact hold _ e he
          · obtain rfl := List.mem_singleton.mp he
            exact ⟨rfl, decrypt_of_sent hG (hchains 0 state hstate) hsent⟩
        · rw [List.filterMap_append]
          exact (List.append_nil _).symm ▸ h.nodup q
      · obtain ⟨w, hw, hcopy⟩ := hchains p state hstate
        have hwindow : state.window = w := by rw [hcopy, window_atWindow]
        rcases groupDecrypt_atWindow (G := G) base state w m with
          ⟨e, hcall⟩ | ⟨w', hauth, haccept, hcall⟩
        · rw [← hcopy] at hcall
          rw [hcall] at hopened
          cases hopened
        rw [← hcopy] at hcall hauth
        rw [hcall] at hopened
        obtain ⟨hnew, hspent, -⟩ := hw.spent_accept haccept
        refine ⟨fun e he => ?_, h.nodup_opened hstate (hwindow ▸ hnew) plaintext⟩
        rcases List.mem_append.mp he with he | he
        · exact hold _ e he
        · obtain rfl := List.mem_singleton.mp he
          obtain ⟨m', plaintext', hmem, hdata⟩ :=
            hgenuine actions p m [] rfl state hstate hauth
          refine ⟨hopened, ⟨m', plaintext', List.mem_append_left _ hmem, hdata⟩, _,
            getElem?_use hstate (.decrypt m), ?_⟩
          rw [SenderKeyUse.apply, hcall, window_atWindow]
          exact hspent

end Signed

/-- **Agreement on a signed chain.**  Take any run of all parties that hold a copy of a signed
chain, in which parties are handed messages of anyone's making, also of each other's, and no
signature is forged.  The messages that a party has opened are messages that the maker of the chain
has sent, with the same group id, iteration, ciphertext and plaintext, each of them once at most. -/
theorem signed_group_agreement {G : GroupSuite Key} (hG : G.Correct) (base : Key)
    (seed groupId : Bytes) (actions : List GroupAction)
    (hgenuine : SignaturesGenuine G base seed groupId actions) {n : ℕ}
    (hsized : ∀ e ∈ groupLog G base seed groupId .signed actions, e.Sized n) (p : ℕ) :
    ((groupLog G base seed groupId .signed actions).filterMap (GroupEvent.opened? p)).Subperm
      ((groupLog G base seed groupId .signed actions).filterMap (GroupEvent.sent? 0)) := by
  have hlog := logSound_groupLog hG actions hgenuine
  refine List.subperm_of_subset (hlog.nodup p) ?_
  intro x hx
  obtain ⟨m, plaintext, hmem, rfl⟩ := mem_opened?.mp hx
  obtain ⟨hopens, ⟨m', plaintext', hmem', hdata⟩, -⟩ := hlog.sound _ hmem
  obtain ⟨-, hopens'⟩ := hlog.sound _ hmem'
  obtain ⟨hlength, hi⟩ := hsized _ hmem
  obtain ⟨hlength', hi'⟩ := hsized _ hmem'
  obtain ⟨hgroup, hiteration, hciphertext⟩ :=
    eq_of_authenticatedData (hlength'.trans hlength.symm) hi' hi hdata
  -- one key, one ciphertext, one plaintext
  rw [hgroup, hiteration, hciphertext, hopens] at hopens'
  refine List.mem_filterMap.mpr ⟨_, hmem', ?_⟩
  rw [GroupEvent.sent?, if_pos rfl, GroupEvent.content, GroupEvent.content, hgroup, hiteration,
    hciphertext, Except.ok.inj hopens']

lemma freeGroup_correct : freeGroup.Correct where
  xchacha := Ideal.xchacha_correct
  ed25519 := Ideal.ed25519_correct

/-- A member joins, the sender sends, and the member is handed `m`. -/
def firstDelivery (m : SenderKeyMessage) : List GroupAction :=
  [.share 0 [], .use 0 (.encrypt ⟨constRng 1, [], [10]⟩), .use 1 (.decrypt m)]

/-- The member opens what was sent. -/
theorem signed_group_agreement_first_message :
    ∃ m, (groupEncrypt freeGroup (constRng 1) [] [10]
        (createSenderKeyDistributionMessage freeGroup 1 [] [] .signed).1).1 = .ok m ∧
      ((groupLog freeGroup 1 [] [] .signed (firstDelivery m)).filterMap
          (GroupEvent.opened? 1)).Subperm
        ((groupLog freeGroup 1 [] [] .signed (firstDelivery m)).filterMap
          (GroupEvent.sent? 0)) := by
  obtain ⟨m, hm⟩ : ∃ m, (groupEncrypt freeGroup (constRng 1) [] [10]
      (createSenderKeyDistributionMessage freeGroup 1 [] [] .signed).1).1 = .ok m := ⟨_, rfl⟩
  have hgroup : m.groupId.length = 0 ∧ m.iteration < 2 ^ 32 := by
    obtain ⟨-, hgroup, hiteration, -⟩ := groupEncrypt_eq_ok hm
    rw [hgroup, hiteration]
    exact ⟨rfl, by decide⟩
  have hsent : groupLog freeGroup 1 [] [] .signed ((firstDelivery m).take 2) =
      [.sent 0 m [10]] := by
    have hevent : SenderKeyUse.event freeGroup 0
        (createSenderKeyDistributionMessage freeGroup 1 [] [] .signed).1
        (.encrypt ⟨constRng 1, [], [10]⟩) = some (.sent 0 m [10]) := by
      rw [SenderKeyUse.event, hm]
    exact congrArg Option.toList hevent
  refine ⟨m, hm, signed_group_agreement freeGroup_correct 1 [] [] (firstDelivery m) ?_
    (n := 0) ?_ 1⟩
  · -- the only message that is handed over is the one that was sent
    intro before p m' after h state _ _
    rcases before with _ | ⟨a, _ | ⟨b, _ | ⟨c, before⟩⟩⟩
    · cases h
    · cases h
    · cases h
      exact ⟨m, [10], by exact hsent ▸ List.mem_singleton_self _, rfl⟩
    · have hlength := congrArg List.length h
      simp [firstDelivery] at hlength
  · intro e he
    have hlog := groupLog_concat (G := freeGroup) 1 [] [] .signed ((firstDelivery m).take 2)
      (.use 1 (.decrypt m))
    rw [hsent] at hlog
    rcases List.mem_append.mp (hlog ▸ he : e ∈ [GroupEvent.sent 0 m [10]] ++ _) with he | he
    · obtain rfl := List.mem_singleton.mp he
      exact hgroup
    · rcases of_event (Option.mem_toList.mp he) with ⟨p, state, call, m', -, h, -⟩ |
        ⟨p, state, m', plaintext, -, h, -, rfl⟩
      · cases h
      · cases h
        exact hgroup

/-! ## HMAC chains -/

section Hmac

variable {G : GroupSuite Key} {base : Key} {seed : Bytes} {state : SenderKeyState Key} {rng : Rng}
  {groupId plaintext : Bytes} {m : SenderKeyMessage}

/-- What a party with a copy makes is a message of the chain, whoever the party is. -/
lemma genuineMessage_of_copy (hG : G.Correct) (hchain : state.OnChain G.hash base)
    (hmode : state.authMode = .hmac)
    (h : (groupEncrypt G rng groupId plaintext { state with isSender := true }).1 = .ok m) :
    GenuineMessage G base seed .hmac state.iteration m plaintext := by
  obtain ⟨-, hgroup, hiteration, -, hauth⟩ := groupEncrypt_eq_ok h
  have hchain' : SenderKeyState.OnChain G.hash base { state with isSender := true } := by
    obtain ⟨w, hw, hcopy⟩ := hchain
    refine ⟨w, hw, ?_⟩
    rw [hcopy]
    rfl
  refine ⟨hiteration, hiteration ▸ decrypt_of_sent hG hchain' h, ?_⟩
  obtain ⟨w, -, hcopy⟩ := hchain
  have hkey : state.chainKey = senderChainKey G.hash base state.iteration := by
    rw [hcopy]
    rfl
  simp only [messageAuth, hmode] at hauth
  rw [← Except.ok.inj hauth, hgroup, hkey]

/-- A party that can reach an iteration opens what any other party makes of it. -/
lemma opens_of_copy (hG : G.Correct) {state' : SenderKeyState Key}
    (hchain : state.OnChain G.hash base) (hmode : state.authMode = .hmac)
    (hchain' : state'.OnChain G.hash base) (hr : ReceiverOf G seed .hmac state')
    (hreach : state'.iteration ≤ state.iteration ∧
      state.iteration - state'.iteration ≤ maxGroupSkip)
    (h : (groupEncrypt G rng groupId plaintext { state with isSender := true }).1 = .ok m) :
    (groupDecrypt G m state').1 = .ok plaintext := by
  obtain ⟨w, hw, hcopy⟩ := hchain'
  have hnext : state'.iteration = w.next := by
    rw [hcopy]
    rfl
  have hgenuine : GenuineMessage G base seed .hmac state.iteration m plaintext :=
    genuineMessage_of_copy hG hchain hmode h
  have hcall := groupDecrypt_genuine (w := w) hG hr hw hgenuine
  rw [takes, Window.ahead, if_pos (hnext ▸ hreach)] at hcall
  rw [hcopy]
  exact congrArg Prod.fst hcall

end Hmac

/-- **Who can write.**  Take any run of all parties that hold a copy of a chain, and a party other
than the one that made it.  It sets the flag that says it is the sender.  On a signed chain it still
cannot make a message.  On an HMAC chain, whatever it makes is opened, to the plaintext it has
chosen, by every party whose copy is not ahead of its own and not more than 2000 iterations
behind. -/
theorem member_writes_iff_hmac {G : GroupSuite Key} (hG : G.Correct) (base : Key)
    (seed groupId : Bytes) (auth : SenderKeyAuth) (actions : List GroupAction) {p : ℕ} (hp : p ≠ 0)
    {state : SenderKeyState Key}
    (hstate : (groupAfter G base seed groupId auth actions)[p]? = some state) (rng : Rng)
    (group plaintext : Bytes) :
    match auth with
    | .signed =>
        ∃ e, (groupEncrypt G rng group plaintext { state with isSender := true }).1 = .error e
    | .hmac =>
        ∀ m, (groupEncrypt G rng group plaintext { state with isSender := true }).1 = .ok m →
          ∀ (q : ℕ) (state' : SenderKeyState Key),
            (groupAfter G base seed groupId .hmac actions)[q]? = some state' →
            state'.iteration ≤ state.iteration ∧ state.iteration - state'.iteration ≤ maxGroupSkip →
              (groupDecrypt G m state').1 = .ok plaintext := by
  have hholder := holderOf_groupAfter base seed groupId auth actions p state hstate
  have hchain := onChain_groupAfter base seed groupId auth actions p state hstate
  cases auth with
  | signed =>
      rcases hcall : (groupEncrypt G rng group plaintext { state with isSender := true }).1 with
        e | m
      · exact ⟨e, rfl⟩
      · -- there is nothing to sign with
        obtain ⟨-, -, -, -, hauth⟩ := groupEncrypt_eq_ok hcall
        simp only [messageAuth, hholder.receiver.authMode_eq, hholder.signingPrivate_eq hp] at hauth
        cases hauth
  | hmac =>
      intro m hm q state' hstate' hreach
      exact opens_of_copy hG hchain hholder.receiver.authMode_eq
        (onChain_groupAfter base seed groupId .hmac actions q state' hstate')
        (holderOf_groupAfter base seed groupId .hmac actions q state' hstate').receiver hreach hm

/-- A member who has just joined writes in the sender's name, to the sender itself. -/
theorem member_writes_iff_hmac_new_member :
    ∃ m, (groupEncrypt freeGroup (constRng 1) [] [10]
        { processSenderKeyDistributionMessage (distributionMessageForExisting
            (createSenderKeyDistributionMessage freeGroup 1 [] [] .hmac).1 []) with
          isSender := true }).1 = .ok m ∧
      (groupDecrypt freeGroup m (createSenderKeyDistributionMessage freeGroup 1 [] [] .hmac).1).1 =
        .ok [10] :=
  ⟨_, rfl, member_writes_iff_hmac freeGroup_correct 1 [] [] .hmac [.share 0 []] Nat.one_ne_zero rfl
    (constRng 1) [] [10] _ rfl 0 _ rfl ⟨le_rfl, Nat.zero_le _⟩⟩

end Hushwire
