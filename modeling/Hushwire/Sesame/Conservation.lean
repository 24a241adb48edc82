import Hushwire.Sesame.DeviceRecord

/-!
# Where the sessions of a device go

`DeviceRecord` of `src/protocol/sesame/mod.rs`, under any sequence of its three calls
(`insert_session`, `record_decrypt_success` with whatever index, `prune_stale`).  A session that got
lost on the way would cost the messages still encrypted to it, and one held twice would be advanced
at one place and stale at the other.

* `DecryptEffect`, `InsertEffect`, `PruneEffect` — which sessions are held after a call: a decrypt
  permutes them and writes to the one it addresses, an insertion pushes at most the last one out,
  pruning takes the stale ones.
* `sessions_conserved` — every call on a record that was reached by any calls has its effect, the
  inactive sessions stay within their cap, and there is an active one for good.
* `sessions_accounted` — the whole run: the sessions that were ever inserted are, each once, those
  still held and those that a call discarded.
-/

namespace Hushwire

/-- What a decrypt leaves of the session it addresses: only the data, the time of use and the state
are written, and an initiating session is a regular one from here on. -/
lemma SessionEntry.decrypted_eq (updatedData : Bytes) (now : Timestamp) (entry : SessionEntry) :
    entry.decrypted updatedData now =
      { entry with sessionData := updatedData, lastUsed := now, state := .regular } := by
  obtain ⟨sessionData, state, createdAt, lastUsed, priority⟩ := entry
  cases state <;> rfl

/-- What no call writes to, and by which a session is recognised throughout a run. -/
def SessionEntry.origin (entry : SessionEntry) : Timestamp × ℕ :=
  (entry.createdAt, entry.convergencePriority)

/-- The origins of a number of sessions, with their multiplicities. -/
def origins (sessions : List SessionEntry) : Multiset (Timestamp × ℕ) :=
  sessions.map SessionEntry.origin

lemma origins_append (l l' : List SessionEntry) : origins (l ++ l') = origins l + origins l' :=
  congrArg Multiset.ofList List.map_append

lemma origins_perm {l l' : List SessionEntry} (h : l.Perm l') : origins l = origins l' :=
  Multiset.coe_eq_coe.mpr (h.map _)

/-! ## Calls -/

/-- The calls on a device record. -/
inductive DeviceCall
  | insertSession (session : SessionEntry)
  | recordDecryptSuccess (logicalIndex : ℕ) (updatedData : Bytes) (now : Timestamp)
  | pruneStale (now : Timestamp)

namespace DeviceCall

/-- The record after a call. -/
def apply (record : DeviceRecord) : DeviceCall → DeviceRecord
  | insertSession session => record.insertSession session
  | recordDecryptSuccess logicalIndex updatedData now =>
      (record.recordDecryptSuccess logicalIndex updatedData now).2
  | pruneStale now => record.pruneStale now

/-- The session a call brings in. -/
def inserted? : DeviceCall → Option SessionEntry
  | insertSession session => some session
  | recordDecryptSuccess .. => none
  | pruneStale _ => none

/-- The sessions a call discards: what is beyond the cap, and what is stale. -/
def discarded (record : DeviceRecord) : DeviceCall → List SessionEntry
  | insertSession _ => record.sessions.drop DeviceRecord.maxInactiveSessions
  | recordDecryptSuccess .. => []
  | pruneStale now => record.inactiveSessions.filter (fun s => isStaleForReceiving s.lastUsed now)

end DeviceCall

namespace DeviceRecord

/-- The session that a logical index of `record_decrypt_success` addresses. -/
def sessionAt (logicalIndex : ℕ) (record : DeviceRecord) : Option SessionEntry :=
  match logicalIndex with
  | 0 => record.activeSession
  | idx + 1 => record.inactiveSessions[idx]?

/-- The record after a sequence of calls. -/
def runCalls (record : DeviceRecord) (calls : List DeviceCall) : DeviceRecord :=
  calls.foldl DeviceCall.apply record

/-- The sessions that the calls of a sequence discard. -/
def discardedBy (record : DeviceRecord) : List DeviceCall → List SessionEntry
  | [] => []
  | call :: calls => call.discarded record ++ (call.apply record).discardedBy calls

/-- What `record_decrypt_success` makes of a record: all sessions are still held, in whatever order,
and it has written to the data, the time of use and the state of the addressed one. -/
structure DecryptEffect (logicalIndex : ℕ) (updatedData : Bytes) (now : Timestamp)
    (record record' : DeviceRecord) : Prop where
  identityKey_eq : record'.identityKey = record.identityKey
  eq_of_none : record.sessionAt logicalIndex = none → record' = record
  perm_of_some : ∀ old, record.sessionAt logicalIndex = some old → ∃ rest,
    record.sessions.Perm (old :: rest) ∧
      record'.sessions.Perm
        ({ old with sessionData := updatedData, lastUsed := now, state := .regular } :: rest)

/-- What `insert_session` makes of a record: the new session is active, the one that was is the
first of the others, and if there are more than the cap allows, the last one is dropped. -/
structure InsertEffect (session : SessionEntry) (record record' : DeviceRecord) : Prop where
  identityKey_eq : record'.identityKey = record.identityKey
  active_eq : record'.activeSession = some session
  head_eq : ∀ old, record.activeSession = some old → record'.inactiveSessions.head? = some old
  dropped : ∃ dropped, record.sessions = record'.inactiveSessions ++ dropped ∧
    dropped.length ≤ 1 ∧ (dropped ≠ [] → record'.inactiveSessions.length = maxInactiveSessions)

/-- What `prune_stale` makes of a record: the inactive sessions that were not used for `MAXRECV` are
gone, and the rest is as it was. -/
structure PruneEffect (now : Timestamp) (record record' : DeviceRecord) : Prop where
  identityKey_eq : record'.identityKey = record.identityKey
  active_eq : record'.activeSession = record.activeSession
  inactive_eq : record'.inactiveSessions =
    record.inactiveSessions.filter (fun s => now ≤ s.lastUsed + maxRecv)

variable {record : DeviceRecord}

/-! ## One call -/

/-- An index that addresses no session changes nothing. -/
lemma recordDecryptSuccess_of_none {logicalIndex : ℕ} (h : record.sessionAt logicalIndex = none)
    (updatedData : Bytes) (now : Timestamp) :
    (record.recordDecryptSuccess logicalIndex updatedData now).2 = record := by
  obtain ⟨active, inactive, key⟩ := record
  rcases logicalIndex with _ | idx
  · obtain rfl : active = none := h
    rfl
  · have hnone : inactive[idx]? = none := h
    simp only [recordDecryptSuccess, hnone]

/-- **A decrypt permutes.**  Next to the session it addresses, all others are held before and after
as they are. -/
lemma sessions_recordDecryptSuccess {logicalIndex : ℕ} {old : SessionEntry}
    (h : record.sessionAt logicalIndex = some old) (updatedData : Bytes) (now : Timestamp) :
    ∃ rest, record.sessions.Perm (old :: rest) ∧
      (record.recordDecryptSuccess logicalIndex updatedData now).2.sessions.Perm
        (old.decrypted updatedData now :: rest) := by
  rcases logicalIndex with _ | idx
  · obtain ⟨active, inactive, key⟩ := record
    obtain rfl : active = some old := h
    exact ⟨inactive, .refl _, .refl _⟩
  · have hold : record.inactiveSessions[idx]? = some old := h
    simp only [recordDecryptSuccess, hold]
    exact sessions_promote hold _

/-- It leaves an active session where there was one. -/
lemma isSome_recordDecryptSuccess (h : record.activeSession.isSome) (logicalIndex : ℕ)
    (updatedData : Bytes) (now : Timestamp) :
    (record.recordDecryptSuccess logicalIndex updatedData now).2.activeSession.isSome := by
  rcases logicalIndex with _ | idx
  · rwa [recordDecryptSuccess, Option.isSome_map]
  · rcases hold : record.inactiveSessions[idx]? with _ | old
    · simp only [recordDecryptSuccess, hold, h]
    · simp only [recordDecryptSuccess, hold, promote]
      split
      · rfl
      · exact h

/-- A decrypt does not lengthen the inactive list. -/
lemma length_inactive_recordDecryptSuccess (logicalIndex : ℕ) (updatedData : Bytes)
    (now : Timestamp) :
    (record.recordDecryptSuccess logicalIndex updatedData now).2.inactiveSessions.length ≤
      record.inactiveSessions.length := by
  rcases hold : record.sessionAt logicalIndex with _ | old
  · rw [recordDecryptSuccess_of_none hold]
  · obtain ⟨rest, hbefore, hafter⟩ := sessions_recordDecryptSuccess hold updatedData now
    have hlength := hafter.length_eq.trans hbefore.length_eq.symm
    rw [sessions, sessions, List.length_append, List.length_append] at hlength
    rcases hactive : record.activeSession with _ | active
    · rw [hactive] at hlength
      simp only [Option.toList_none, List.length_nil] at hlength
      omega
    · have hsome := isSome_recordDecryptSuccess (by rw [hactive]; rfl) logicalIndex updatedData now
      obtain ⟨active', hactive'⟩ := Option.isSome_iff_exists.mp hsome
      rw [hactive, hactive'] at hlength
      simp only [Option.toList_some, List.length_singleton] at hlength
      omega

lemma decryptEffect (record : DeviceRecord) (logicalIndex : ℕ) (updatedData : Bytes)
    (now : Timestamp) :
    DecryptEffect logicalIndex updatedData now record
      (record.recordDecryptSuccess logicalIndex updatedData now).2 where
  identityKey_eq := by
    rcases logicalIndex with _ | idx
    · rfl
    · rcases hold : record.inactiveSessions[idx]? with _ | old
      · simp only [recordDecryptSuccess, hold]
      · simp only [recordDecryptSuccess, hold, promote]
        split <;> rfl
  eq_of_none hnone := recordDecryptSuccess_of_none hnone updatedData now
  perm_of_some old hold := by
    rw [← SessionEntry.decrypted_eq]
    exact sessions_recordDecryptSuccess hold updatedData now

/-- An insertion pushes the active session to the front of the inactive ones. -/
lemma head_insertSession {active : SessionEntry} (h : record.activeSession = some active)
    (session : SessionEntry) :
    (record.insertSession session).inactiveSessions.head? = some active := by
  rw [insertSession, h]
  rfl

lemma insertEffect (hcap : record.inactiveSessions.length ≤ maxInactiveSessions)
    (session : SessionEntry) : InsertEffect session record (record.insertSession session) where
  identityKey_eq := rfl
  active_eq := rfl
  head_eq _ hold := head_insertSession hold session
  dropped := by
    refine ⟨record.sessions.drop maxInactiveSessions, ?_, ?_, ?_⟩
    · exact (List.take_append_drop _ _).symm
    · have hactive : record.activeSession.toList.length ≤ 1 := Option.length_toList_le
      rw [List.length_drop, sessions, List.length_append]
      omega
    · intro hdropped
      rw [List.ne_nil_iff_length_pos, List.length_drop] at hdropped
      have hlong : maxInactiveSessions ≤ record.sessions.length := by omega
      exact List.length_take_of_le hlong

lemma pruneEffect (record : DeviceRecord) (now : Timestamp) :
    PruneEffect now record (record.pruneStale now) where
  identityKey_eq := rfl
  active_eq := rfl
  inactive_eq := by
    refine List.filter_congr (fun s _ => ?_)
    rw [isStaleForReceiving, ← decide_not, decide_eq_decide, not_lt]
    exact Nat.sub_le_iff_le_add'

/-- **No call loses the active session.**  It may be pushed to the inactive ones, and a decrypt may
write to it. -/
lemma active_kept {active : SessionEntry} (h : record.activeSession = some active)
    (call : DeviceCall) :
    ∃ entry ∈ (call.apply record).sessions, entry.origin = active.origin := by
  have hmem : active ∈ record.sessions := by
    rw [sessions, h]
    exact List.mem_cons_self
  cases call with
  | insertSession session =>
      have hhead := head_insertSession h session
      exact ⟨active, List.mem_append_right _ (List.mem_of_head? hhead), rfl⟩
  | recordDecryptSuccess logicalIndex updatedData now =>
      rcases hold : record.sessionAt logicalIndex with _ | old
      · refine ⟨active, ?_, rfl⟩
        rwa [DeviceCall.apply, recordDecryptSuccess_of_none hold]
      · obtain ⟨rest, hbefore, hafter⟩ := sessions_recordDecryptSuccess hold updatedData now
        rcases List.mem_cons.mp (hbefore.mem_iff.mp hmem) with rfl | hrest
        · exact ⟨_, hafter.mem_iff.mpr List.mem_cons_self, rfl⟩
        · exact ⟨active, hafter.mem_iff.mpr (List.mem_cons_of_mem _ hrest), rfl⟩
  | pruneStale now =>
      exact ⟨active, List.mem_append_left _ (Option.mem_toList.mpr h), rfl⟩

/-! ## Runs -/

/-- The two things every call preserves: the cap, and that there is an active session. -/
lemma apply_preserves (record : DeviceRecord) (call : DeviceCall) :
    (record.inactiveSessions.length ≤ maxInactiveSessions →
        (call.apply record).inactiveSessions.length ≤ maxInactiveSessions) ∧
      (record.activeSession.isSome → (call.apply record).activeSession.isSome) := by
  cases call with
  | insertSession session => exact ⟨fun _ => List.length_take_le _ _, fun _ => rfl⟩
  | recordDecryptSuccess logicalIndex updatedData now =>
      refine ⟨fun hcap => ?_, fun hactive => ?_⟩
      · exact (length_inactive_recordDecryptSuccess logicalIndex updatedData now).trans hcap
      · exact isSome_recordDecryptSuccess hactive logicalIndex updatedData now
  | pruneStale now =>
      exact ⟨fun hcap => (List.length_filter_le _ _).trans hcap, fun hactive => hactive⟩

lemma runCalls_preserves (calls : List DeviceCall) : ∀ record : DeviceRecord,
    (record.inactiveSessions.length ≤ maxInactiveSessions →
        (record.runCalls calls).inactiveSessions.length ≤ maxInactiveSessions) ∧
      (record.activeSession.isSome → (record.runCalls calls).activeSession.isSome) := by
  induction calls with
  | nil => exact fun record => ⟨id, id⟩
  | cons call calls ih =>
      intro record
      obtain ⟨hcap, hactive⟩ := apply_preserves record call
      obtain ⟨hcap', hactive'⟩ := ih (call.apply record)
      exact ⟨hcap' ∘ hcap, hactive' ∘ hactive⟩

/-- **Sessions are conserved.**  On a record that was reached by any calls: the inactive sessions
stay within their cap, there is an active session for good once there is one and no call loses it,
and it is said for every further call what becomes of each session. -/
theorem sessions_conserved (calls : List DeviceCall) :
    let record := DeviceRecord.new.runCalls calls
    record.inactiveSessions.length ≤ maxInactiveSessions ∧
      (∀ more, record.activeSession.isSome → (record.runCalls more).activeSession.isSome) ∧
      (∀ (call : DeviceCall) (active : SessionEntry), record.activeSession = some active →
        ∃ entry ∈ (call.apply record).sessions, entry.origin = active.origin) ∧
      (∀ logicalIndex updatedData now, DecryptEffect logicalIndex updatedData now record
        (record.recordDecryptSuccess logicalIndex updatedData now).2) ∧
      (∀ session, InsertEffect session record (record.insertSession session)) ∧
      ∀ now, PruneEffect now record (record.pruneStale now) := by
  intro record
  have hcap : record.inactiveSessions.length ≤ maxInactiveSessions :=
    (runCalls_preserves calls .new).1 (Nat.zero_le _)
  refine ⟨hcap, ?_, ?_, ?_, ?_, ?_⟩
  · intro more
    exact (runCalls_preserves more record).2
  · intro call active hactive
    exact active_kept hactive call
  · exact record.decryptEffect
  · exact insertEffect hcap
  · exact record.pruneEffect

/-! ## Accounts -/

/-- **A call, in the accounts.**  What it leaves and what it discards is what it brings in and what
was held. -/
lemma origins_apply (record : DeviceRecord) (call : DeviceCall) :
    origins (call.apply record).sessions + origins (call.discarded record) =
      origins call.inserted?.toList + origins record.sessions := by
  rw [← origins_append, ← origins_append]
  cases call with
  | insertSession session =>
      have hsplit := List.take_append_drop maxInactiveSessions record.sessions
      exact congrArg (fun l => origins (session :: l)) hsplit
  | recordDecryptSuccess logicalIndex updatedData now =>
      rw [DeviceCall.discarded, List.append_nil]
      rcases hold : record.sessionAt logicalIndex with _ | old
      · rw [DeviceCall.apply, recordDecryptSuccess_of_none hold]
        rfl
      · -- the entry that is written keeps its origin
        obtain ⟨rest, hbefore, hafter⟩ := sessions_recordDecryptSuccess hold updatedData now
        exact (origins_perm hafter).trans (origins_perm hbefore).symm
  | pruneStale now =>
      have hsplit := List.filter_append_perm (fun s => !isStaleForReceiving s.lastUsed now)
        record.inactiveSessions
      simp only [Bool.not_not] at hsplit
      refine origins_perm ?_
      rw [DeviceCall.apply, sessions, List.append_assoc]
      exact hsplit.append_left _

lemma origins_runCalls (calls : List DeviceCall) : ∀ record : DeviceRecord,
    origins (record.runCalls calls).sessions + origins (record.discardedBy calls) =
      origins (calls.filterMap DeviceCall.inserted?) + origins record.sessions := by
  induction calls with
  | nil => exact fun record => add_comm _ _
  | cons call calls ih =>
      intro record
      have hinserted : (call :: calls).filterMap DeviceCall.inserted? =
          call.inserted?.toList ++ calls.filterMap DeviceCall.inserted? := by
        cases call <;> rfl
      rw [hinserted, discardedBy, origins_append, origins_append]
      calc origins ((call.apply record).runCalls calls).sessions +
            (origins (call.discarded record) + origins ((call.apply record).discardedBy calls))
          = origins (call.discarded record) +
              (origins (calls.filterMap DeviceCall.inserted?) +
                origins (call.apply record).sessions) := by
            rw [add_left_comm, ih]
        _ = origins (calls.filterMap DeviceCall.inserted?) +
              (origins call.inserted?.toList + origins record.sessions) := by
            rw [add_left_comm, add_comm (origins (call.discarded record)), origins_apply]
        _ = origins call.inserted?.toList + origins (calls.filterMap DeviceCall.inserted?) +
              origins record.sessions := by
            rw [add_left_comm, add_assoc]

/-- **Sessions are accounted for.**  After any calls, the sessions held and those discarded on the
way are the ones that were ever inserted, each of them once. -/
theorem sessions_accounted (calls : List DeviceCall) :
    origins (new.runCalls calls).sessions + origins (new.discardedBy calls) =
      origins (calls.filterMap DeviceCall.inserted?) :=
  (origins_runCalls calls new).trans (add_zero _)

end DeviceRecord

end Hushwire
