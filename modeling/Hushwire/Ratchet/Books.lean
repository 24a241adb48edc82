import Hushwire.Ratchet.SessionSteps

/-!
# A receiver's books

What a session knows of the chains its peer sends on.  `Book` records, for each ratchet key of the
peer, the chain that the key started and how many of its keys the receiver has moved past.
`Books` says that the session is kept in accordance with such a record: the store holds nothing but
keys of the record, every key that was moved past is stored or belongs to a message that has
arrived, and the receiving chain stands where the record says.

Each step of `decrypt` has a rule that says what becomes of the record:

* `Books.remove` — a key is taken from the store;
* `Books.skips` — the receiving chain moves up to a number;
* `Books.advance` — the next key is taken from the receiving chain;
* `Books.start` — a new chain is opened.

`Books.resolve_stored`, `Books.resolve_current` and `Books.resolve_new` put them together: what
the first half of `decrypt` does with a message of a chain the receiver has moved past, of the
current chain and of a chain it does not know yet.
-/

namespace Hushwire

open RatchetSession

variable {Key : Type}

/-- For a ratchet key of the peer, the first key of the chain it started and the number of keys
that the receiver has moved past. -/
abbrev Book (Key : Type) := Key → Option (Key × ℕ)

/-- No chain is lost or gone back on, and none is added. -/
structure Book.Grows (book book' : Book Key) : Prop where
  keeps : ∀ dh base b, book dh = some (base, b) → ∃ b' ≥ b, book' dh = some (base, b')
  isSome : ∀ dh, (book' dh).isSome → (book dh).isSome

lemma Book.Grows.refl (book : Book Key) : book.Grows book :=
  ⟨fun _ _ b h => ⟨b, le_rfl, h⟩, fun _ h => h⟩

variable [DecidableEq Key]

namespace Book

/-- Move past the keys up to `upTo` of the chain under the key `remote`. -/
def raise (book : Book Key) (remote : Option Key) (upTo : ℕ) : Book Key := fun dh =>
  if remote = some dh then (book dh).map (fun p => (p.1, max p.2 upTo)) else book dh

variable {book : Book Key} {remote : Option Key} {dh base : Key} {b upTo : ℕ}

lemma raise_of_ne (h : remote ≠ some dh) : book.raise remote upTo dh = book dh := if_neg h

lemma raise_of_eq (h : remote = some dh) (hbook : book dh = some (base, b)) :
    book.raise remote upTo dh = some (base, max b upTo) := by
  rw [raise, if_pos h, hbook]
  rfl

/-- A chain is raised or left alone. -/
lemma raise_eq_some (h : book.raise remote upTo dh = some (base, b)) :
    ∃ b₀ ≤ b, book dh = some (base, b₀) ∧
      (remote = some dh ∧ b = max b₀ upTo ∨ remote ≠ some dh ∧ b = b₀) := by
  unfold raise at h
  split at h
  · rename_i hremote
    obtain ⟨⟨base₀, b₀⟩, hbook, heq⟩ := Option.map_eq_some_iff.mp h
    obtain ⟨rfl, rfl⟩ := Prod.mk.inj heq
    exact ⟨b₀, le_max_left _ _, hbook, .inl ⟨hremote, rfl⟩⟩
  · rename_i hremote
    exact ⟨b, le_rfl, h, .inr ⟨hremote, rfl⟩⟩

lemma raise_isSome : (book.raise remote upTo dh).isSome = (book dh).isSome := by
  unfold raise
  split
  · rw [Option.isSome_map]
  · rfl

lemma raise_eq_self (h : ∀ dh base b, remote = some dh → book dh = some (base, b) → upTo ≤ b) :
    book.raise remote upTo = book := by
  funext dh
  by_cases hremote : remote = some dh
  · rcases hbook : book dh with _ | ⟨base, b⟩
    · rw [raise, if_pos hremote, hbook]
      rfl
    · rw [raise_of_eq hremote hbook, max_eq_left (h dh base b hremote hbook)]
  · exact raise_of_ne hremote

lemma raise_raise {upTo' : ℕ} (h : upTo ≤ upTo') :
    (book.raise remote upTo).raise remote upTo' = book.raise remote upTo' := by
  funext dh
  by_cases hremote : remote = some dh
  · rcases hbook : book dh with _ | ⟨base, b⟩
    · simp only [raise, if_pos hremote, hbook, Option.map_none]
    · rw [raise_of_eq hremote (raise_of_eq hremote hbook), raise_of_eq hremote hbook, max_assoc,
        max_eq_right h]
  · rw [raise_of_ne hremote, raise_of_ne hremote, raise_of_ne hremote]

lemma raise_update : Book.raise (Function.update book dh (some (base, b))) (some dh) upTo =
    Function.update book dh (some (base, max b upTo)) := by
  funext d
  by_cases hd : d = dh
  · subst hd
    rw [raise_of_eq rfl (Function.update_self _ _ _), Function.update_self]
  · have hne : some dh ≠ some d := fun heq => hd (Option.some.inj heq).symm
    rw [raise_of_ne hne, Function.update_of_ne hd, Function.update_of_ne hd]

/-- Nothing is lost by raising. -/
lemma exists_raise (hbook : book dh = some (base, b)) :
    ∃ b' ≥ b, book.raise remote upTo dh = some (base, b') := by
  by_cases h : remote = some dh
  · exact ⟨_, le_max_left _ _, raise_of_eq h hbook⟩
  · exact ⟨b, le_rfl, (raise_of_ne h).trans hbook⟩

lemma grows_raise (book : Book Key) (remote : Option Key) (upTo : ℕ) :
    book.Grows (book.raise remote upTo) where
  keeps _ _ _ hbook := exists_raise hbook
  isSome dh h := by rwa [raise_isSome] at h

end Book

/-! ## What skipping leaves alone -/

section Skipping

variable {H : Hash Key} {C : Suite Key} {upTo : ℕ} {r : Result Unit} {s s' : RatchetSession Key}

lemma RatchetSession.len_le_skipKeys (dh : Key) (k : ℕ) (chain : ChainState Key)
    (store : SkippedKeys Key) : store.len ≤ (skipKeys H dh k chain store).2.len := by
  induction k with
  | zero => exact le_rfl
  | succ k ih =>
      rw [skipKeys_succ]
      exact ih.trans SkippedKeys.len_le_len_insert

lemma RatchetSession.Skips.len_le (h : Skips H upTo s r s') : s.skipped.len ≤ s'.skipped.len := by
  rcases h with - | - | - | -
  · exact le_rfl
  · exact le_rfl
  · exact le_rfl
  · exact len_le_skipKeys _ _ _ _

/-- A Diffie-Hellman step does not look at what was skipped before it. -/
lemma RatchetSession.Skips.performDhRatchetStep_eq (h : Skips C.hash upTo s r s') (rng : Rng)
    (header : MessageHeader Key) : s'.performDhRatchetStep C rng header =
      { s.performDhRatchetStep C rng header with skipped := s'.skipped } := by
  rcases h with - | - | - | -
  · rfl
  · rfl
  · rfl
  · rfl

end Skipping

/-! ## Books -/

/-- The session is kept in accordance with a record.  `Taken` are the messages that have arrived,
by ratchet key and number. -/
structure Books (H : Hash Key) (book : Book Key) (Taken : Key → ℕ → Prop) (s : RatchetSession Key) :
    Prop where
  sound : ∀ dh n key, s.skipped.find dh n = some key →
    ∃ base b, book dh = some (base, b) ∧ n < b ∧ key = ecKey H base n
  covered : ∀ dh base b n, book dh = some (base, b) → n < b →
    s.skipped.find dh n = some (ecKey H base n) ∨ Taken dh n
  chain : s.receivingChain = (s.dhRemote.bind book).map (fun p => .at H p.1 p.2)

namespace Books

variable {H : Hash Key} {book : Book Key} {Taken Taken' : Key → ℕ → Prop}
  {s s' : RatchetSession Key} {dh base : Key} {b n upTo : ℕ}

/-- Only the receiving half matters. -/
lemma congr (h : Books H book Taken s) (hstore : s'.skipped = s.skipped)
    (hdh : s'.dhRemote = s.dhRemote) (hchain : s'.receivingChain = s.receivingChain) :
    Books H book Taken s' where
  sound := by rw [hstore]; exact h.sound
  covered := by rw [hstore]; exact h.covered
  chain := by rw [hchain, hdh]; exact h.chain

lemma mono (h : Books H book Taken s) (hle : ∀ dh n, Taken dh n → Taken' dh n) :
    Books H book Taken' s where
  sound := h.sound
  covered dh base b n hbook hn := (h.covered dh base b n hbook hn).imp_right (hle dh n)
  chain := h.chain

/-- A session that has not received anything. -/
lemma empty (hstore : s.skipped = .new) (hchain : s.receivingChain = none) :
    Books H (fun _ => none) Taken s where
  sound dh n key hfind := by
    rw [hstore, SkippedKeys.find_new] at hfind
    cases hfind
  covered _ _ _ _ hbook := by cases hbook
  chain := by
    rw [hchain]
    cases s.dhRemote <;> rfl

lemma find_eq_none (h : Books H book Taken s)
    (hb : ∀ base b, book dh = some (base, b) → b ≤ n) : s.skipped.find dh n = none := by
  rcases hfind : s.skipped.find dh n with _ | key
  · rfl
  · obtain ⟨base, b, hbook, hlt, -⟩ := h.sound dh n key hfind
    exact absurd hlt (not_lt.mpr (hb base b hbook))

lemma find_eq_some (h : Books H book Taken s) (hbook : book dh = some (base, b)) (hn : n < b)
    (hnew : ¬ Taken dh n) : s.skipped.find dh n = some (ecKey H base n) :=
  (h.covered dh base b n hbook hn).resolve_right hnew

lemma receivingChain_eq (h : Books H book Taken s) (hdh : s.dhRemote = some dh)
    (hbook : book dh = some (base, b)) : s.receivingChain = some (.at H base b) := by
  rw [h.chain, hdh, Option.bind_some, hbook]
  rfl

lemma exists_of_receivingChain (h : Books H book Taken s) {c : ChainState Key}
    (hc : s.receivingChain = some c) : ∃ dh base, s.dhRemote = some dh ∧
      book dh = some (base, c.messageNumber) ∧ c = .at H base c.messageNumber := by
  rw [h.chain] at hc
  obtain ⟨⟨base, b⟩, hbind, rfl⟩ := Option.map_eq_some_iff.mp hc
  obtain ⟨dh, hdh, hbook⟩ := Option.bind_eq_some_iff.mp hbind
  exact ⟨dh, base, hdh, hbook, rfl⟩

/-! ## Rules -/

/-- A key is taken from the store. -/
lemma remove (h : Books H book Taken s) (hle : ∀ d i, Taken d i → Taken' d i)
    (htaken : Taken' dh n) :
    Books H book Taken' { s with skipped := s.skipped.remove dh n } where
  sound d i key hfind := by
    have hfind' : (s.skipped.remove dh n).find d i = some key := hfind
    rw [SkippedKeys.find_remove] at hfind'
    split at hfind'
    · cases hfind'
    · exact h.sound d i key hfind'
  covered d base b i hbook hi := by
    by_cases heq : d = dh ∧ i = n
    · obtain ⟨rfl, rfl⟩ := heq
      exact .inr htaken
    · refine (h.covered d base b i hbook hi).imp ?_ (hle d i)
      intro hfind
      show (s.skipped.remove dh n).find d i = _
      rw [SkippedKeys.find_remove, if_neg heq, hfind]
  chain := h.chain

/-- The keys up to a number are stored, one by one. -/
lemma insertRange (h : Books H book Taken s) (hdh : s.dhRemote = some dh)
    (hbook : book dh = some (base, b)) (hle : b ≤ upTo)
    (hlen : (s.skipped.insertRange H base dh b (upTo - b)).len < maxSkip) :
    Books H (book.raise s.dhRemote upTo) Taken { s with
      receivingChain := some (.at H base upTo)
      skipped := s.skipped.insertRange H base dh b (upTo - b) } := by
  have hfind : ∀ d i, (s.skipped.insertRange H base dh b (upTo - b)).find d i =
      if d = dh ∧ b ≤ i ∧ i < upTo then some (ecKey H base i) else s.skipped.find d i := by
    intro d i
    rw [SkippedKeys.find_insertRange
      (fun j hj => (SkippedKeys.len_le_len_insertRange hj.le).trans_lt hlen),
      Nat.add_sub_cancel' hle]
  have hraised : book.raise s.dhRemote upTo dh = some (base, upTo) := by
    rw [Book.raise_of_eq hdh hbook, max_eq_right hle]
  refine ⟨?_, ?_, ?_⟩
  · intro d i key hkey
    have hkey' := (hfind d i).symm.trans hkey
    split at hkey'
    · rename_i hrange
      obtain ⟨rfl, -, hi⟩ := hrange
      exact ⟨base, upTo, hraised, hi, (Option.some.inj hkey').symm⟩
    · obtain ⟨base', b', hbook', hi, rfl⟩ := h.sound d i key hkey'
      obtain ⟨b'', hb'', hraised'⟩ := Book.exists_raise hbook'
      exact ⟨base', b'', hraised', hi.trans_le hb'', rfl⟩
  · intro d base' b' i hbook' hi
    show (s.skipped.insertRange H base dh b (upTo - b)).find d i = _ ∨ _
    rw [hfind]
    by_cases hrange : d = dh ∧ b ≤ i ∧ i < upTo
    · obtain ⟨rfl, hb, hi'⟩ := hrange
      obtain ⟨rfl, -⟩ := Prod.mk.inj (Option.some.inj (hraised.symm.trans hbook'))
      exact .inl (if_pos ⟨rfl, hb, hi'⟩)
    · -- below the range, or in another chain
      rw [if_neg hrange]
      obtain ⟨b₀, -, hbook₀, ⟨hd, rfl⟩ | ⟨-, rfl⟩⟩ := Book.raise_eq_some hbook'
      · obtain rfl := Option.some.inj (hdh.symm.trans hd)
        obtain ⟨rfl, rfl⟩ := Prod.mk.inj (Option.some.inj (hbook.symm.trans hbook₀))
        refine h.covered dh base b i hbook ?_
        rw [max_eq_right hle] at hi
        by_contra hge
        exact hrange ⟨rfl, not_lt.mp hge, hi⟩
      · exact h.covered d base' b' i hbook₀ hi
  · show some _ = (s.dhRemote.bind (book.raise s.dhRemote upTo)).map _
    rw [hdh, Option.bind_some, ← hdh, hraised]
    rfl

/-- The receiving chain moves up to a number. -/
lemma skips (h : Books H book Taken s) (hskip : Skips H upTo s (.ok ()) s')
    (hlen : s'.skipped.len < maxSkip) : Books H (book.raise s.dhRemote upTo) Taken s' := by
  rcases hskip with hc | ⟨hc, hpassed⟩ | - | ⟨hc, hle, -⟩
  · -- without a receiving chain there is nothing to raise
    rw [Book.raise_eq_self]
    · exact h
    · intro dh base b hdh hbook
      rw [h.receivingChain_eq hdh hbook] at hc
      cases hc
  · rw [Book.raise_eq_self]
    · exact h
    · intro dh base b hdh hbook
      obtain rfl := Option.some.inj ((h.receivingChain_eq hdh hbook).symm.trans hc)
      exact hpassed.le
  · obtain ⟨dh, base, hdh, hbook, hat⟩ := h.exists_of_receivingChain hc
    rename_i c
    rw [hdh, Option.getD_some, hat, skipKeys_at, ChainState.at_messageNumber] at hlen ⊢
    rw [← hdh]
    simp only [Nat.add_sub_cancel' hle] at hlen ⊢
    exact h.insertRange hdh hbook hle hlen

/-- The next key is taken from the receiving chain. -/
lemma advance (h : Books H book Taken s) (hdh : s.dhRemote = some dh)
    (hbook : book dh = some (base, n)) (hle : ∀ d i, Taken d i → Taken' d i)
    (htaken : Taken' dh n) :
    Books H (book.raise (some dh) (n + 1)) Taken'
      { s with receivingChain := some (.at H base (n + 1)) } := by
  have hraised : book.raise (some dh) (n + 1) dh = some (base, n + 1) := by
    rw [Book.raise_of_eq rfl hbook, max_eq_right n.le_succ]
  refine ⟨?_, ?_, ?_⟩
  · intro d i key hkey
    obtain ⟨base', b', hbook', hi, rfl⟩ := h.sound d i key hkey
    obtain ⟨b'', hb'', hraised'⟩ := Book.exists_raise hbook'
    exact ⟨base', b'', hraised', hi.trans_le hb'', rfl⟩
  · intro d base' b' i hbook' hi
    obtain ⟨b₀, -, hbook₀, ⟨hd, rfl⟩ | ⟨-, rfl⟩⟩ := Book.raise_eq_some hbook'
    · obtain rfl := Option.some.inj hd
      obtain ⟨rfl, rfl⟩ := Prod.mk.inj (Option.some.inj (hbook.symm.trans hbook₀))
      rw [max_eq_right n.le_succ] at hi
      rcases Nat.lt_succ_iff_lt_or_eq.mp hi with hlt | rfl
      · exact (h.covered dh base n i hbook hlt).imp_right (hle dh i)
      · exact .inr htaken
    · exact (h.covered d base' b' i hbook₀ hi).imp_right (hle d i)
  · show some _ = (s.dhRemote.bind (book.raise (some dh) (n + 1))).map _
    rw [hdh, Option.bind_some, hraised]
    rfl

/-- A new chain is opened. -/
lemma start (h : Books H book Taken s) (hnone : book dh = none) (hstore : s'.skipped = s.skipped)
    (hdh : s'.dhRemote = some dh) (hchain : s'.receivingChain = some (.at H base 0)) :
    Books H (Function.update book dh (some (base, 0))) Taken s' where
  sound d i key hkey := by
    rw [hstore] at hkey
    obtain ⟨base', b', hbook', hi, rfl⟩ := h.sound d i key hkey
    have hne : d ≠ dh := by
      rintro rfl
      rw [hnone] at hbook'
      cases hbook'
    exact ⟨base', b', (Function.update_of_ne hne _ _).trans hbook', hi, rfl⟩
  covered d base' b' i hbook' hi := by
    rw [hstore]
    by_cases hd : d = dh
    · subst hd
      rw [Function.update_self] at hbook'
      obtain ⟨-, rfl⟩ := Prod.mk.inj (Option.some.inj hbook')
      exact absurd hi (Nat.not_lt_zero i)
    · rw [Function.update_of_ne hd] at hbook'
      exact h.covered d base' b' i hbook' hi
  chain := by
    rw [hchain, hdh, Option.bind_some, Function.update_self]
    rfl

/-- The chain moves up to a message and its key is taken. -/
lemma take (h : Books H book Taken s) (hdh : s.dhRemote = some dh)
    (hbook : book dh = some (base, b)) (hn : b ≤ n) (hle : ∀ d i, Taken d i → Taken' d i)
    (htaken : Taken' dh n) (hskip : Skips H n s (.ok ()) s') {c : ChainState Key}
    (hc : s'.receivingChain = some c) (hlen : s'.skipped.len < maxSkip) :
    c = .at H base n ∧
      (∃ store, { s' with receivingChain := some (c.advance H).2 } =
        { s with receivingChain := some (.at H base (n + 1)), skipped := store }) ∧
      Books H (book.raise (some dh) (n + 1)) Taken'
        { s' with receivingChain := some (c.advance H).2 } := by
  have hbooks := h.skips hskip hlen
  have heq := hskip.eq_at (h.receivingChain_eq hdh hbook) hdh hn
  have hdh' : s'.dhRemote = some dh := hskip.dhRemote.trans hdh
  have hraised : book.raise s.dhRemote n dh = some (base, n) := by
    rw [Book.raise_of_eq hdh hbook, max_eq_right hn]
  obtain rfl := Option.some.inj ((hbooks.receivingChain_eq hdh' hraised).symm.trans hc)
  refine ⟨rfl, ⟨s'.skipped, ?_⟩, ?_⟩
  · rw [heq]
    rfl
  have hadvanced := hbooks.advance hdh' hraised hle htaken
  rwa [hdh, Book.raise_raise n.le_succ] at hadvanced

/-! ## The EC key of a message -/

variable {C : Suite Key} {rng : Rng} {header : MessageHeader Key} {r : Result Key}

/-- A message of a chain that the receiver has moved past. -/
lemma resolve_stored (h : Books C.hash book Taken s)
    (hbook : book header.dhPublicKey = some (base, b)) (hn : header.messageNumber < b)
    (hnew : ¬ Taken header.dhPublicKey header.messageNumber)
    (hle : ∀ d i, Taken d i → Taken' d i) (htaken : Taken' header.dhPublicKey header.messageNumber)
    (hec : Resolves C rng header s r s') :
    r = .ok (ecKey C.hash base header.messageNumber) ∧
      s' = { s with skipped := s.skipped.remove header.dhPublicKey header.messageNumber } ∧
      Books C.hash book Taken' s' := by
  have hfind := h.find_eq_some hbook hn hnew
  rcases hec with hkey | ⟨hnone, -⟩ | ⟨hnone, -, -⟩ | ⟨hnone, -, -, -⟩ | ⟨hnone, -, -, -⟩
  · obtain rfl := Option.some.inj (hfind.symm.trans hkey)
    exact ⟨rfl, rfl, h.remove hle htaken⟩
  all_goals
    rw [hfind] at hnone
    cases hnone

/-- A message of the current chain that the receiver has not reached. -/
lemma resolve_current (h : Books C.hash book Taken s) (hdh : s.dhRemote = some header.dhPublicKey)
    (hbook : book header.dhPublicKey = some (base, b)) (hn : b ≤ header.messageNumber)
    (hle : ∀ d i, Taken d i → Taken' d i) (htaken : Taken' header.dhPublicKey header.messageNumber)
    (hec : Resolves C rng header s r s') (hlen : s'.skipped.len < maxSkip) :
    (∃ e, r = .error e) ∧ s' = s ∧ b + maxSkip < header.messageNumber ∨
      r = .ok (ecKey C.hash base header.messageNumber) ∧
        (∃ store, s' = { s with
          receivingChain := some (.at C.hash base (header.messageNumber + 1)), skipped := store }) ∧
        Books C.hash (book.raise (some header.dhPublicKey) (header.messageNumber + 1))
          Taken' s' := by
  have hnone : s.skipped.find header.dhPublicKey header.messageNumber = none := by
    refine h.find_eq_none ?_
    intro base' b' hbook'
    obtain ⟨-, rfl⟩ := Prod.mk.inj (Option.some.inj (hbook.symm.trans hbook'))
    exact hn
  have hchain := h.receivingChain_eq hdh hbook
  -- the ratchet key is the current one, so there is no step
  have hsame : ∀ {r₁ s₁}, Ratchets C rng header s r₁ s₁ → r₁ = .ok () ∧ s₁ = s := by
    intro r₁ s₁ hratchet
    rcases hratchet with - | ⟨hne, -⟩ | ⟨hne, -⟩
    · exact ⟨rfl, rfl⟩
    · exact absurd hdh hne
    · exact absurd hdh hne
  rcases hec with hkey | ⟨-, hratchet⟩ | ⟨-, hratchet, hskip⟩ | ⟨-, hratchet, hskip, hc⟩ |
    ⟨-, hratchet, hskip, hc⟩
  · rw [hnone] at hkey
    cases hkey
  · cases (hsame hratchet).1
  · obtain ⟨-, rfl⟩ := hsame hratchet
    obtain ⟨rfl, c, hc, hfar⟩ := hskip.of_error
    obtain rfl := Option.some.inj (hchain.symm.trans hc)
    exact .inl ⟨⟨_, rfl⟩, rfl, hfar⟩
  · obtain ⟨-, rfl⟩ := hsame hratchet
    rcases hskip.receivingChain with ⟨-, hno⟩ | ⟨_, _, -, hc', -⟩
    · rw [hchain] at hno
      cases hno
    · rw [hc'] at hc
      cases hc
  · obtain ⟨-, rfl⟩ := hsame hratchet
    obtain ⟨rfl, hshape, hbooks⟩ := h.take hdh hbook hn hle htaken hskip hc hlen
    exact .inr ⟨rfl, hshape, hbooks⟩

/-- A message of a chain that the receiver does not know yet. -/
lemma resolve_new (h : Books C.hash book Taken s) (hdh : s.dhRemote ≠ some header.dhPublicKey)
    (hbook : book header.dhPublicKey = none) (hle : ∀ d i, Taken d i → Taken' d i)
    (htaken : Taken' header.dhPublicKey header.messageNumber)
    (hec : Resolves C rng header s r s') (hlen : s'.skipped.len < maxSkip) :
    (∃ e, r = .error e) ∧ s' = s ∧
        (∃ c, s.receivingChain = some c ∧
          c.messageNumber + maxSkip < header.previousChainLength) ∨
      ∃ base k store, base = (C.hash.kdfRk s.rootKey
          (C.x25519.diffieHellman s.dhSelf header.dhPublicKey)).chainKey ∧
        s' = { s.performDhRatchetStep C rng header with
          receivingChain := some (.at C.hash base k), skipped := store } ∧
        Books C.hash (Function.update (book.raise s.dhRemote header.previousChainLength)
          header.dhPublicKey (some (base, k))) Taken' s' ∧
        ((∃ e, r = .error e) ∧ maxSkip < header.messageNumber ∨
          r = .ok (ecKey C.hash base header.messageNumber)) := by
  have hnone : s.skipped.find header.dhPublicKey header.messageNumber = none := by
    refine h.find_eq_none ?_
    intro base' b' hbook'
    rw [hbook] at hbook'
    cases hbook'
  -- the step, on the session with the rest of the old chain stored
  have hstep : ∀ {s₁ : RatchetSession Key},
      Skips C.hash header.previousChainLength s (.ok ()) s₁ → s₁.skipped.len < maxSkip →
      Books C.hash (Function.update (book.raise s.dhRemote header.previousChainLength)
        header.dhPublicKey (some ((C.hash.kdfRk s.rootKey
          (C.x25519.diffieHellman s.dhSelf header.dhPublicKey)).chainKey, 0))) Taken
        (s₁.performDhRatchetStep C rng header) := by
    intro s₁ hskip hlen₁
    refine (h.skips hskip hlen₁).start ?_ rfl performDhRatchetStep_dhRemote ?_
    · rw [Book.raise_of_ne hdh, hbook]
    · rw [← hskip.root.1, ← hskip.root.2]
      rfl
  rcases hec with hkey | ⟨-, hratchet⟩ | ⟨-, hratchet, hskip⟩ | ⟨-, hratchet, hskip, hc⟩ |
    ⟨-, hratchet, hskip, hc⟩
  · rw [hnone] at hkey
    cases hkey
  · rcases hratchet with - | ⟨-, hskip⟩ | -
    obtain ⟨rfl, hfar⟩ := hskip.of_error
    exact .inl ⟨⟨_, rfl⟩, rfl, hfar⟩
  · rcases hratchet with hsame | - | @⟨s₀, -, hskip₁⟩
    · exact absurd hsame hdh
    · -- the step stays, although the message is refused
      obtain ⟨rfl, c, hc, hfar⟩ := hskip.of_error
      have hbooks := hstep hskip₁ hlen
      obtain rfl := Option.some.inj
        ((hbooks.receivingChain_eq performDhRatchetStep_dhRemote
          (Function.update_self _ _ _)).symm.trans hc)
      rw [ChainState.at_messageNumber, Nat.zero_add] at hfar
      refine .inr ⟨_, 0, s₀.skipped, rfl, ?_, hbooks.mono hle, .inl ⟨⟨_, rfl⟩, hfar⟩⟩
      rw [hskip₁.performDhRatchetStep_eq]
      rfl
  · rcases hratchet with hsame | - | ⟨-, hskip₁⟩
    · exact absurd hsame hdh
    · rcases hskip.receivingChain with ⟨-, hno⟩ | ⟨_, _, -, hc', -⟩
      · cases hno
      · rw [hc'] at hc
        cases hc
  · rcases hratchet with hsame | - | ⟨-, hskip₁⟩
    · exact absurd hsame hdh
    · have hbooks := hstep hskip₁ (hskip.len_le.trans_lt hlen)
      obtain ⟨rfl, ⟨store, hshape⟩, hbooks'⟩ := hbooks.take performDhRatchetStep_dhRemote
        (Function.update_self _ _ _) (Nat.zero_le _) hle htaken hskip hc hlen
      rw [Book.raise_update, Nat.zero_max] at hbooks'
      refine .inr ⟨_, header.messageNumber + 1, store, rfl, ?_, hbooks', .inr rfl⟩
      rw [hshape, hskip₁.performDhRatchetStep_eq]

end Books

end Hushwire
