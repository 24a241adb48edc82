import Hushwire.Primitives.Keys

/-!
# Device records

`src/protocol/sesame/`: the sessions held with one device of a remote user.  One of them is
active, that is, used for sending; the others are kept to decrypt what is still on its way.  Which
session is active changes in two ways: a new session takes the place at once, and a message that
was decrypted on an inactive one promotes it if its priority is higher.

The priority of a session is the id of its initial root key, which is the same number at both
ends.
-/

namespace Hushwire

/-- `Timestamp`, in seconds. -/
abbrev Timestamp := ℕ

/-! ## Lifecycle -/

/-- `MAXSEND`: 30 days. -/
def maxSend : ℕ := 30 * 24 * 60 * 60

/-- `MAXRECV`: 60 days. -/
def maxRecv : ℕ := 60 * 24 * 60 * 60

/-- `is_stale_for_sending`. -/
def isStaleForSending (createdAt now : Timestamp) : Bool := decide (maxSend < now - createdAt)

/-- `is_stale_for_receiving`. -/
def isStaleForReceiving (lastUsed now : Timestamp) : Bool := decide (maxRecv < now - lastUsed)

/-! ## Sessions -/

/-- `SessionState`. -/
inductive SessionState
  | initiating
  | regular
  deriving DecidableEq, Repr

/-- `SessionEntry`. -/
structure SessionEntry where
  sessionData : Bytes
  state : SessionState
  createdAt : Timestamp
  lastUsed : Timestamp
  convergencePriority : ℕ
  deriving DecidableEq

namespace SessionEntry

/-- `SessionEntry::new_with_priority`. -/
def newWithPriority (sessionData : Bytes) (state : SessionState) (now : Timestamp)
    (convergencePriority : ℕ) : SessionEntry where
  sessionData := sessionData
  state := state
  createdAt := now
  lastUsed := now
  convergencePriority := convergencePriority

/-- `SessionEntry::touch`. -/
def touch (now : Timestamp) (entry : SessionEntry) : SessionEntry := { entry with lastUsed := now }

/-- What `record_decrypt_success` writes to the entry it is about. -/
def decrypted (updatedData : Bytes) (now : Timestamp) (entry : SessionEntry) : SessionEntry :=
  { entry with
    sessionData := updatedData
    lastUsed := now
    state := if entry.state = .initiating then .regular else entry.state }

end SessionEntry

/-! ## Records -/

/-- `DeviceRecord`. -/
structure DeviceRecord where
  activeSession : Option SessionEntry
  inactiveSessions : List SessionEntry
  identityKey : Option IdentityPublicKey

namespace DeviceRecord

/-- `DeviceRecord::new`. -/
def new : DeviceRecord := ⟨none, [], none⟩

/-- `MAX_INACTIVE_SESSIONS`. -/
def maxInactiveSessions : ℕ := 10

/-- `DeviceRecord::insert_session`. -/
def insertSession (session : SessionEntry) (record : DeviceRecord) : DeviceRecord :=
  { record with
    activeSession := some session
    inactiveSessions :=
      (record.activeSession.toList ++ record.inactiveSessions).take maxInactiveSessions }

/-- The inactive branch of `record_decrypt_success`, on the entry at `idx` as it is written back:
it changes places with the active session if it outranks it. -/
def promote (idx : ℕ) (entry : SessionEntry) (record : DeviceRecord) : DeviceRecord :=
  let inactive := record.inactiveSessions.set idx entry
  let activePriority := (record.activeSession.map (·.convergencePriority)).getD 0
  if record.activeSession.isNone ∨ activePriority < entry.convergencePriority then
    { record with
      activeSession := some entry
      inactiveSessions := record.activeSession.toList ++ inactive.eraseIdx idx }
  else { record with inactiveSessions := inactive }

/-- `DeviceRecord::record_decrypt_success`. -/
def recordDecryptSuccess (logicalIndex : ℕ) (updatedData : Bytes) (now : Timestamp)
    (record : DeviceRecord) : Option Bytes × DeviceRecord :=
  let record' :=
    match logicalIndex with
    | 0 =>
        { record with activeSession := record.activeSession.map (·.decrypted updatedData now) }
    | idx + 1 =>
        match record.inactiveSessions[idx]? with
        | none => record
        | some entry => record.promote idx (entry.decrypted updatedData now)
  (record'.activeSession.map (·.sessionData), record')

/-- `DeviceRecord::prune_stale`. -/
def pruneStale (now : Timestamp) (record : DeviceRecord) : DeviceRecord :=
  { record with
    inactiveSessions :=
      record.inactiveSessions.filter (fun s => !isStaleForReceiving s.lastUsed now) }

/-- `DeviceRecord::needs_reestablish`. -/
def needsReestablish (now : Timestamp) (record : DeviceRecord) : Bool :=
  match record.activeSession with
  | none => true
  | some s => isStaleForSending s.createdAt now

/-! ## Priorities -/

/-- The sessions held, the active one first. -/
def sessions (record : DeviceRecord) : List SessionEntry :=
  record.activeSession.toList ++ record.inactiveSessions

/-- The priority of the active session, at the bottom if there is none. -/
def activePriority (record : DeviceRecord) : WithBot ℕ :=
  match record.activeSession with
  | none => ⊥
  | some s => (s.convergencePriority : WithBot ℕ)

/-- The priorities of all sessions, by logical index if there is an active one. -/
def priorities (record : DeviceRecord) : List ℕ :=
  record.sessions.map (·.convergencePriority)

/-- The index at which the session with the given priority is held: 0 for the active one, `n` for
`inactive_sessions[n - 1]`. -/
def logicalIndexOf (priority : ℕ) (record : DeviceRecord) : Option ℕ :=
  if record.activePriority = priority then some 0
  else (record.inactiveSessions.findIdx? (·.convergencePriority = priority)).map (· + 1)

variable {record : DeviceRecord} {priority : ℕ}

/-- **Promotion keeps every session.**  The entry is written back, and the others are as they were,
whether or not it changes places. -/
lemma sessions_promote {idx : ℕ} {old : SessionEntry}
    (hold : record.inactiveSessions[idx]? = some old) (entry : SessionEntry) :
    ∃ rest, record.sessions.Perm (old :: rest) ∧
      (record.promote idx entry).sessions.Perm (entry :: rest) := by
  obtain ⟨hlt, rfl⟩ := List.getElem?_eq_some_iff.mp hold
  refine ⟨record.activeSession.toList ++ record.inactiveSessions.eraseIdx idx, ?_, ?_⟩
  · exact ((List.getElem_cons_eraseIdx_perm hlt).symm.append_left _).trans List.perm_middle
  · rw [promote]
    split
    · rw [List.eraseIdx_set_eq]
      exact .refl _
    · exact ((List.set_perm_cons_eraseIdx hlt entry).append_left _).trans List.perm_middle

/-- **Promotion by priority.**  No session is lost, and the active one is the higher of the two. -/
lemma promote_spec {idx : ℕ} {old entry : SessionEntry}
    (hold : record.inactiveSessions[idx]? = some old)
    (hsame : entry.convergencePriority = old.convergencePriority) :
    (record.promote idx entry).priorities.Perm record.priorities ∧
      (record.promote idx entry).activePriority =
        max record.activePriority (entry.convergencePriority : WithBot ℕ) := by
  constructor
  · obtain ⟨rest, hbefore, hafter⟩ := sessions_promote hold entry
    have hafter' := hafter.map (·.convergencePriority)
    rw [List.map_cons, hsame] at hafter'
    exact hafter'.trans (hbefore.map _).symm
  · obtain ⟨active, inactive, key⟩ := record
    rcases active with _ | active
    · exact (max_eq_right bot_le).symm
    · by_cases hlt : active.convergencePriority < entry.convergencePriority
      · have hpromote : promote idx entry ⟨some active, inactive, key⟩ =
            ⟨some entry, active :: (inactive.set idx entry).eraseIdx idx, key⟩ :=
          if_pos (.inr hlt)
        rw [hpromote]
        exact (max_eq_right (WithBot.coe_le_coe.mpr hlt.le)).symm
      · have hpromote : promote idx entry ⟨some active, inactive, key⟩ =
            ⟨some active, inactive.set idx entry, key⟩ :=
          if_neg (not_or.mpr ⟨Bool.false_ne_true, hlt⟩)
        rw [hpromote]
        exact (max_eq_left (WithBot.coe_le_coe.mpr (not_lt.mp hlt))).symm

/-- A session that is held has an index. -/
lemma exists_logicalIndexOf (h : priority ∈ record.priorities) :
    ∃ k, record.logicalIndexOf priority = some k := by
  obtain ⟨active, inactive, key⟩ := record
  by_cases hactive : activePriority ⟨active, inactive, key⟩ = priority
  · exact ⟨0, if_pos hactive⟩
  · -- it is not the active one, so it is found among the others
    have hmem : ∃ e ∈ inactive, e.convergencePriority = priority := by
      obtain ⟨e, he, rfl⟩ := List.mem_map.mp h
      rcases List.mem_append.mp he with he | he
      · obtain rfl := Option.mem_toList.mp he
        exact absurd rfl hactive
      · exact ⟨e, he, rfl⟩
    rw [logicalIndexOf, if_neg hactive]
    rcases hidx : inactive.findIdx? (·.convergencePriority = priority) with _ | idx
    · obtain ⟨e, he, heq⟩ := hmem
      have := List.findIdx?_eq_none_iff.mp hidx e he
      exact absurd heq (of_decide_eq_false this)
    · exact ⟨idx + 1, congrArg (Option.map (· + 1)) hidx⟩

/-- **A decrypt, by priority.**  On the session of the given priority it loses no session, and
leaves the higher of the two active. -/
lemma recordDecryptSuccess_spec {k : ℕ} (h : record.logicalIndexOf priority = some k)
    (updatedData : Bytes) (now : Timestamp) :
    (record.recordDecryptSuccess k updatedData now).2.priorities.Perm record.priorities ∧
      (record.recordDecryptSuccess k updatedData now).2.activePriority =
        max record.activePriority (priority : WithBot ℕ) := by
  rw [logicalIndexOf] at h
  by_cases hactive : record.activePriority = priority
  · rw [if_pos hactive] at h
    obtain rfl := Option.some.inj h
    rw [hactive, max_self, ← hactive]
    obtain ⟨active, inactive, key⟩ := record
    rcases active with _ | active
    · exact ⟨.refl _, rfl⟩
    · exact ⟨.refl _, rfl⟩
  · rw [if_neg hactive] at h
    obtain ⟨idx, hidx, rfl⟩ := Option.map_eq_some_iff.mp h
    obtain ⟨hlt, heq, -⟩ := List.findIdx?_eq_some_iff_getElem.mp hidx
    have hold := List.getElem?_eq_getElem hlt
    have hcall : (record.recordDecryptSuccess (idx + 1) updatedData now).2 =
        record.promote idx (record.inactiveSessions[idx].decrypted updatedData now) := by
      simp only [recordDecryptSuccess, hold]
    have hsame : (record.inactiveSessions[idx].decrypted updatedData now).convergencePriority =
        record.inactiveSessions[idx].convergencePriority := rfl
    obtain ⟨hperm, hpriority⟩ := promote_spec hold hsame
    rw [hcall]
    refine ⟨hperm, ?_⟩
    rw [hpriority, hsame, of_decide_eq_true heq]

end DeviceRecord

end Hushwire
