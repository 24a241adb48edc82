import Hushwire.Sesame.DeviceRecord
import Mathlib.Data.Finset.Sort
import Mathlib.Data.String.Basic

/-!
# Which sessions are kept

`UserRecord` of `src/protocol/sesame/mod.rs`: the devices of a remote user, each with its sessions.
Two calls remove sessions for being stale, that is, unused for longer than `MAXRECV`.  `prune_stale`
looks at the inactive sessions of one device, one by one.  `refresh_devices` takes the list of
devices from the server and removes a device that is not on it, with all its sessions; whether the
device is stale is read off its active session.

`recent_sessions_kept_iff` says what the two calls do to the sessions that are not stale.  None is
ever lost to `prune_stale`.  `refresh_devices` loses some exactly if a device that is not on the
list has them among its inactive sessions only.
-/

namespace Hushwire

/-! ## The code -/

/-- `UserRecord`. -/
structure UserRecord where
  devices : Map String DeviceRecord

/-- `DeviceChanges`.  The source lists both in the order of a hash set, here they are sorted. -/
structure DeviceChanges where
  added : List String
  removed : List String

namespace DeviceRecord

/-- The condition under which `refresh_devices` keeps a device that is gone from the server. -/
def freshForReceiving (now : Timestamp) (record : DeviceRecord) : Bool :=
  match record.activeSession with
  | some active => !isStaleForReceiving active.lastUsed now
  | none => false

end DeviceRecord

namespace UserRecord

/-- `UserRecord::new`. -/
def new : UserRecord := ⟨∅⟩

/-- `UserRecord::get_or_create_device`, as far as it changes the record. -/
def getOrCreateDevice (deviceId : String) (user : UserRecord) : UserRecord :=
  ⟨Map.orInsert user.devices deviceId .new⟩

/-- `UserRecord::get_device`. -/
def getDevice (deviceId : String) (user : UserRecord) : Option DeviceRecord :=
  user.devices.lookup deviceId

/-- A call on the device that `get_or_create_device` or `get_device_mut` gives out. -/
def onDevice (deviceId : String) (f : DeviceRecord → DeviceRecord) (user : UserRecord) :
    UserRecord :=
  match user.devices.lookup deviceId with
  | some device => ⟨Finmap.insert deviceId (f device) user.devices⟩
  | none => user

/-- The first loop of `refresh_devices`. -/
def addDevices (ids : List String) (user : UserRecord) : UserRecord :=
  ⟨ids.foldl (fun devices id => Finmap.insert id .new devices) user.devices⟩

/-- The second loop of `refresh_devices`: the ids removed, and what is left. -/
def removeDevices (now : Timestamp) : List String → UserRecord → List String × UserRecord
  | [], user => ([], user)
  | id :: ids, user =>
      if (user.devices.lookup id).any (·.freshForReceiving now) then removeDevices now ids user
      else
        let out := removeDevices now ids ⟨user.devices.erase id⟩
        (id :: out.1, out.2)

/-- `UserRecord::refresh_devices`. -/
def refreshDevices (serverDeviceIds : List String) (now : Timestamp) (user : UserRecord) :
    DeviceChanges × UserRecord :=
  let current := user.devices.keys
  let server := serverDeviceIds.toFinset
  let added := (server \ current).sort
  let out := removeDevices now (current \ server).sort (user.addDevices added)
  (⟨added, out.1⟩, out.2)

end UserRecord

/-- The calls on a user record. -/
inductive UserCall
  | getOrCreateDevice (deviceId : String)
  | insertSession (deviceId : String) (session : SessionEntry)
  | recordDecryptSuccess (deviceId : String) (logicalIndex : ℕ) (updatedData : Bytes)
      (now : Timestamp)
  | pruneStale (deviceId : String) (now : Timestamp)
  | refreshDevices (serverDeviceIds : List String) (now : Timestamp)

namespace UserCall

/-- The time of a call, which for a new session is the time it was made. -/
def time? : UserCall → Option Timestamp
  | getOrCreateDevice _ => none
  | insertSession _ session => some session.lastUsed
  | recordDecryptSuccess _ _ _ now => some now
  | pruneStale _ now => some now
  | refreshDevices _ now => some now

/-- The record after a call. -/
def apply (user : UserRecord) : UserCall → UserRecord
  | getOrCreateDevice deviceId => user.getOrCreateDevice deviceId
  | insertSession deviceId session => user.onDevice deviceId (.insertSession session)
  | recordDecryptSuccess deviceId logicalIndex updatedData now =>
      user.onDevice deviceId (fun device =>
        (device.recordDecryptSuccess logicalIndex updatedData now).2)
  | pruneStale deviceId now => user.onDevice deviceId (.pruneStale now)
  | refreshDevices serverDeviceIds now => (user.refreshDevices serverDeviceIds now).2

end UserCall

/-! ## Recent sessions -/

/-- The sessions, active or not, that are within `MAXRECV` of `now`. -/
def DeviceRecord.recentSessions (now : Timestamp) (record : DeviceRecord) : List SessionEntry :=
  record.sessions.filter (fun s => !isStaleForReceiving s.lastUsed now)

/-- Those held for one device. -/
def UserRecord.recentSessions (deviceId : String) (now : Timestamp) (user : UserRecord) :
    List SessionEntry :=
  ((user.getDevice deviceId).map (·.recentSessions now)).getD []

lemma DeviceRecord.recentSessions_pruneStale (now : Timestamp) (record : DeviceRecord) :
    (record.pruneStale now).recentSessions now = record.recentSessions now := by
  simp only [recentSessions, sessions, pruneStale, List.filter_append, List.filter_filter,
    Bool.and_self]

lemma DeviceRecord.freshForReceiving_iff {now : Timestamp} {record : DeviceRecord} :
    record.freshForReceiving now = true ↔ ∃ active, record.activeSession = some active ∧
      isStaleForReceiving active.lastUsed now = false := by
  rw [freshForReceiving]
  rcases record.activeSession with - | active
  · simp
  · simp

namespace UserRecord

variable {user : UserRecord} {id : String} {now : Timestamp}

lemma getDevice_onDevice (deviceId : String) (f : DeviceRecord → DeviceRecord) :
    (user.onDevice deviceId f).getDevice id =
      if id = deviceId then (user.getDevice id).map f else user.getDevice id := by
  unfold onDevice getDevice
  rcases hdevice : user.devices.lookup deviceId with - | device
  · by_cases hid : id = deviceId
    · rw [if_pos hid, hid, hdevice]
      rfl
    · rw [if_neg hid]
  · rw [Map.lookup_insert_eq_ite]
    by_cases hid : id = deviceId
    · rw [if_pos hid, if_pos hid, hid, hdevice]
      rfl
    · rw [if_neg hid, if_neg hid]

lemma getDevice_addDevices (ids : List String) : ∀ user : UserRecord,
    (user.addDevices ids).getDevice id = if id ∈ ids then some .new else user.getDevice id := by
  induction ids with
  | nil =>
      intro user
      rw [if_neg List.not_mem_nil]
      rfl
  | cons i ids ih =>
      intro user
      have hstep : user.addDevices (i :: ids) =
          addDevices ids ⟨Finmap.insert i .new user.devices⟩ := rfl
      rw [hstep, ih, getDevice, Map.lookup_insert_eq_ite]
      by_cases hi : id = i
      · simp [hi]
      · simp [hi, getDevice]

/-- **What the second loop leaves.**  Of the ids it goes through, the devices whose active session
is fresh. -/
lemma getDevice_removeDevices (ids : List String) : ∀ user : UserRecord,
    (user.removeDevices now ids).2.getDevice id =
      if id ∈ ids ∧ ¬ (user.getDevice id).any (·.freshForReceiving now) = true then none
      else user.getDevice id := by
  induction ids with
  | nil =>
      intro user
      rw [if_neg (fun h => List.not_mem_nil h.1)]
      rfl
  | cons i ids ih =>
      intro user
      rw [removeDevices]
      by_cases hfresh : (user.devices.lookup i).any (·.freshForReceiving now) = true
      · -- the loop goes on, and for this device the condition is not met
        rw [if_pos hfresh, ih]
        by_cases hi : id = i
        · have hkept : (user.getDevice id).any (·.freshForReceiving now) = true := hi ▸ hfresh
          rw [if_neg (fun h => h.2 hkept), if_neg (fun h => h.2 hkept)]
        · simp only [List.mem_cons, hi, false_or]
      · rw [if_neg hfresh]
        show (removeDevices now ids ⟨user.devices.erase i⟩).2.getDevice id = _
        rw [ih]
        have herase : getDevice id ⟨user.devices.erase i⟩ =
            if id = i then none else user.getDevice id := Map.lookup_erase_eq_ite _ _ _
        rw [herase]
        by_cases hi : id = i
        · have hgone : ¬ (user.getDevice id).any (·.freshForReceiving now) = true := hi ▸ hfresh
          rw [if_pos hi, ite_self, if_pos ⟨hi ▸ List.mem_cons_self, hgone⟩]
        · simp only [List.mem_cons, hi, false_or, if_false]

/-- **What a refresh leaves of the recent sessions**: those of the devices on the list, and those of
the devices whose active session is fresh. -/
lemma recentSessions_refreshDevices (serverDeviceIds : List String) :
    (user.refreshDevices serverDeviceIds now).2.recentSessions id now =
      if id ∈ serverDeviceIds ∨ (user.getDevice id).any (·.freshForReceiving now) = true then
        user.recentSessions id now
      else [] := by
  have hlookup : (user.refreshDevices serverDeviceIds now).2.getDevice id = _ :=
    getDevice_removeDevices _ _
  rw [getDevice_addDevices] at hlookup
  simp only [Finset.mem_sort, Finset.mem_sdiff, List.mem_toFinset] at hlookup
  rw [recentSessions, recentSessions, hlookup]
  rcases hdevice : user.getDevice id with - | device
  · -- a device that was added has no sessions yet
    have hnew : id ∉ user.devices.keys := by
      rw [Finmap.mem_keys]
      exact Finmap.lookup_eq_none.mp hdevice
    by_cases hid : id ∈ serverDeviceIds
    · simp only [hid, hnew, not_false_eq_true, and_self, if_true, false_and, if_false, true_or]
      rfl
    · simp only [hid, hnew, false_and, if_false, Option.any_none]
      rfl
  · have hold : id ∈ user.devices.keys := by
      rw [Finmap.mem_keys]
      exact Finmap.mem_iff.mpr ⟨device, hdevice⟩
    simp only [hold, not_true_eq_false, and_false, if_false, Option.any_some]
    by_cases hid : id ∈ serverDeviceIds
    · simp [hid]
    · by_cases hfresh : device.freshForReceiving now = true
      · simp [hfresh]
      · simp [hid, hfresh]

end UserRecord

/-- **Which recent sessions are kept.**  `prune_stale` keeps all of them, on whichever device it is
called.  `refresh_devices` keeps all of them exactly if every device that is not on the server's
list and has a recent session has a recent active one. -/
theorem recent_sessions_kept_iff (user : UserRecord) (now : Timestamp) :
    (∀ deviceId id, (user.onDevice deviceId (.pruneStale now)).recentSessions id now =
        user.recentSessions id now) ∧
      ∀ serverDeviceIds,
        ((∀ id, (user.refreshDevices serverDeviceIds now).2.recentSessions id now =
            user.recentSessions id now) ↔
          ∀ id device, id ∉ serverDeviceIds → user.getDevice id = some device →
            device.recentSessions now ≠ [] → ∃ active, device.activeSession = some active ∧
              isStaleForReceiving active.lastUsed now = false) := by
  refine ⟨?_, ?_⟩
  · intro deviceId id
    rw [UserRecord.recentSessions, UserRecord.recentSessions, UserRecord.getDevice_onDevice]
    by_cases hid : id = deviceId
    · rw [if_pos hid]
      rcases user.getDevice id with - | device
      · rfl
      · exact device.recentSessions_pruneStale now
    · rw [if_neg hid]
  · intro serverDeviceIds
    simp only [UserRecord.recentSessions_refreshDevices]
    constructor
    · intro h id device hid hdevice hrecent
      apply DeviceRecord.freshForReceiving_iff.mp
      by_contra hstale
      have hlost := h id
      rw [if_neg (by simp [hid, hdevice, hstale]), UserRecord.recentSessions, hdevice] at hlost
      exact hrecent hlost.symm
    · intro h id
      by_cases hkept : id ∈ serverDeviceIds ∨
          (user.getDevice id).any (·.freshForReceiving now) = true
      · rw [if_pos hkept]
      · -- such a device has no recent session to lose
        obtain ⟨hid, hstale⟩ := not_or.mp hkept
        rw [if_neg hkept, UserRecord.recentSessions]
        rcases hdevice : user.getDevice id with - | device
        · rfl
        · rw [hdevice, Option.any_some] at hstale
          by_contra hrecent
          exact hstale (DeviceRecord.freshForReceiving_iff.mpr
            (h id device hid hdevice (fun hnil => hrecent hnil.symm)))

/-- Two sessions with one device, of which the one with the lower priority is in use. -/
def twoSessions : List UserCall :=
  [.getOrCreateDevice "phone",
    .insertSession "phone" (.newWithPriority [1] .regular 0 1),
    .insertSession "phone" (.newWithPriority [2] .regular 0 2),
    .recordDecryptSuccess "phone" 1 [3] (maxRecv + 1)]

/-- **A session in use is discarded.**  The peer writes on the session of lower priority, which is
therefore never promoted, until the active one is stale.  Right after a message on it, the device
goes missing from the server's list, and the session goes with the device. -/
theorem used_session_discarded :
    let user := twoSessions.foldl UserCall.apply .new
    let now := maxRecv + 1
    ((twoSessions ++ [UserCall.refreshDevices [] now]).filterMap UserCall.time?).Pairwise (· ≤ ·) ∧
      (user.recentSessions "phone" now).map (·.lastUsed) = [now] ∧
      (user.refreshDevices [] now).2.recentSessions "phone" now = [] := by
  intro user now
  have hdevice : user.getDevice "phone" =
      some ⟨some (.newWithPriority [2] .regular 0 2), [⟨[3], .regular, 0, now, 1⟩], none⟩ := rfl
  refine ⟨by decide, ?_, ?_⟩
  · rw [UserRecord.recentSessions, hdevice]
    decide
  · rw [UserRecord.recentSessions_refreshDevices, hdevice]
    decide

end Hushwire
