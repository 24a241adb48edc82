import Hushwire.Basic

/-!
# Stored records

`src/serialization.rs`: a record is stored behind a magic number and a version byte.  `Codec` is
what the `postcard` crate does with values of one type.  A `HashMap` is stored as the list of its
entries, in whatever order the map is walked; `MapOrder` is one such order.
-/

namespace Hushwire

/-- What the `postcard` crate does with values of one type. -/
structure Codec (α : Type) where
  toAllocvec : α → Except String Bytes
  fromBytes : Bytes → Except String α

/-- Every value survives. -/
def Codec.Correct {α : Type} (W : Codec α) : Prop :=
  ∀ a, ∃ bytes, W.toAllocvec a = .ok bytes ∧ W.fromBytes bytes = .ok a

namespace Codec

variable {α : Type} (W : Codec α)

/-- `postcard::to_allocvec`, with its error mapped to the crate's. -/
def encode (a : α) : Result Bytes := (W.toAllocvec a).mapError .serialization

/-- `postcard::from_bytes`, with its error mapped to the crate's. -/
def decode (bytes : Bytes) : Result α := (W.fromBytes bytes).mapError .serialization

/-- A value that comes back as it was. -/
def Survives (a : α) : Prop := ∃ bytes, W.encode a = .ok bytes ∧ W.decode bytes = .ok a

variable {W}

lemma Correct.survives (hW : W.Correct) (a : α) : W.Survives a := by
  obtain ⟨bytes, hto, hfrom⟩ := hW a
  refine ⟨bytes, ?_, ?_⟩
  · rw [encode, hto]
    rfl
  · rw [decode, hfrom]
    rfl

end Codec

namespace Serialization

variable {α : Type} (W : Codec α)

/-- `MAGIC`. -/
def magic : Bytes := ascii "HWCR"

/-- `CURRENT_VERSION`. -/
def currentVersion : UInt8 := 1

/-- `serialize`. -/
def serialize (value : α) : Result Bytes :=
  match W.toAllocvec value with
  | .error e => .error (.serialization e)
  | .ok body => .ok (magic ++ [currentVersion] ++ body)

/-- `deserialize`. -/
def deserialize (data : Bytes) : Result α :=
  if data.length < 5 then .error (.serialization "data too short")
  else if data.take 4 ≠ magic then .error (.serialization "invalid magic bytes")
  else
    let version := data.getD 4 0
    if version ≠ currentVersion then
      .error (.serialization ("unsupported version: " ++ toString version))
    else
      match W.fromBytes (data.drop 5) with
      | .error e => .error (.serialization e)
      | .ok value => .ok value

/-- **A record survives storage.** -/
lemma exists_serialize {W : Codec α} (hW : W.Correct) (value : α) :
    ∃ data, serialize W value = .ok data ∧ deserialize W data = .ok value := by
  obtain ⟨body, hto, hfrom⟩ := hW value
  refine ⟨magic ++ [currentVersion] ++ body, ?_, ?_⟩
  · simp only [serialize, hto]
  · have hlen : ¬ (magic ++ [currentVersion] ++ body).length < 5 := by
      rw [List.length_append]
      exact not_lt.mpr (Nat.le_add_right _ _)
    rw [deserialize, if_neg hlen]
    show (if magic ≠ magic then _ else _) = _
    rw [if_neg (not_not.mpr rfl)]
    show (if currentVersion ≠ currentVersion then _ else match W.fromBytes body with
      | .error e => _
      | .ok value => _) = _
    rw [if_neg (not_not.mpr rfl), hfrom]

end Serialization

/-! ## Walking a map -/

/-- An order in which to walk maps: every entry is met once. -/
structure MapOrder (α β : Type) [DecidableEq α] where
  entries : Map α β → List (α × β)
  nodup : ∀ m, ((entries m).map Prod.fst).Nodup
  mem_entries : ∀ m a b, (a, b) ∈ entries m ↔ m.lookup a = some b

namespace Map

variable {α β : Type} [DecidableEq α]

/-- A map from a list of entries, inserted in order. -/
def ofEntries (l : List (α × β)) : Map α β :=
  l.foldl (fun m e => Finmap.insert e.1 e.2 m) ∅

lemma lookup_foldl_insert_of_notMem (l : List (α × β)) {a : α} (h : a ∉ l.map Prod.fst) :
    ∀ m : Map α β, (l.foldl (fun m e => Finmap.insert e.1 e.2 m) m).lookup a = m.lookup a := by
  induction l with
  | nil => intro m; rfl
  | cons e l ih =>
      intro m
      rw [List.map_cons, List.mem_cons, not_or] at h
      rw [List.foldl_cons, ih h.2, lookup_insert_eq_ite, if_neg h.1]

lemma lookup_foldl_insert_of_mem (l : List (α × β)) (hnodup : (l.map Prod.fst).Nodup)
    {a : α} {b : β} (h : (a, b) ∈ l) : ∀ m : Map α β,
      (l.foldl (fun m e => Finmap.insert e.1 e.2 m) m).lookup a = some b := by
  induction l with
  | nil => cases h
  | cons e l ih =>
      intro m
      rw [List.map_cons, List.nodup_cons] at hnodup
      rw [List.foldl_cons]
      rcases List.mem_cons.mp h with rfl | h
      · rw [lookup_foldl_insert_of_notMem l hnodup.1, lookup_insert_eq_ite, if_pos rfl]
      · exact ih hnodup.2 h _

/-- **A map survives being walked.** -/
lemma ofEntries_entries (order : MapOrder α β) (m : Map α β) : ofEntries (order.entries m) = m := by
  refine Finmap.ext_lookup (fun a => ?_)
  rcases hm : m.lookup a with _ | b
  · refine lookup_foldl_insert_of_notMem _ ?_ _
    intro hmem
    obtain ⟨⟨a', b⟩, he, rfl⟩ := List.mem_map.mp hmem
    rw [(order.mem_entries m a' b).mp he] at hm
    exact Option.some_ne_none b hm
  · exact lookup_foldl_insert_of_mem _ (order.nodup m) ((order.mem_entries m a b).mpr hm) _

end Map

end Hushwire
