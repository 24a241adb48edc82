import Hushwire.Basic

/-!
# Streaming erasure coding

`src/protocol/braid/erasure.rs`.  An object is padded to whole 32-byte shards and extended by
recovery shards; `Encoder.nextChunk` hands the shards out in a cycle and a `Decoder` told the
object's length rebuilds it from any `k` of them.  The codec itself, `reed_solomon_simd`, is
the parameter `ReedSolomon`; `ReedSolomon.Correct` is its documented contract.

The two predicates the protocol proofs use are `IsCodeword` (a chunk some encoder of the
object hands out) and `Decoder.Genuine` (a decoder that holds nothing else).
-/

namespace Hushwire

/-- `CHUNK_BYTES`. -/
def chunkBytes : ℕ := 32

/-- `RECOVERY_MULTIPLE`. -/
def recoveryMultiple : ℕ := 8

/-- `MAX_RECOVERY_SHARDS`. -/
def maxRecoveryShards : ℕ := 1024

/-- `data_shards_for`: `len.div_ceil(CHUNK_BYTES).max(1)`. -/
def dataShardsFor (len : ℕ) : ℕ := max ((len + chunkBytes - 1) / chunkBytes) 1

/-- `recovery_shards_for`. -/
def recoveryShardsFor (len : ℕ) : ℕ :=
  min (dataShardsFor len * recoveryMultiple) maxRecoveryShards

/-- The `reed_solomon_simd` codec.  The shards `decode` is given, and those it restores, are
keyed by their position. -/
structure ReedSolomon where
  encode : (k r : ℕ) → List Bytes → Except String (List Bytes)
  decode : (k r : ℕ) → (original recovery : ℕ → Option Bytes) →
    Except String (ℕ → Option Bytes)

/-- The part of the contract the codec keeps whatever sizes it is asked for: what it encodes has
the right shape, and any `k` of the `k + r` shards restore every missing original. -/
structure ReedSolomon.Restores (rs : ReedSolomon) : Prop where
  encode_shape : ∀ k r originals recovery, (∀ s ∈ originals, s.length = chunkBytes) →
    rs.encode k r originals = .ok recovery →
    recovery.length = r ∧ ∀ s ∈ recovery, s.length = chunkBytes
  decode_ok : ∀ k r originals recovery, originals.length = k →
    rs.encode k r originals = .ok recovery →
    ∀ original recovered : ℕ → Option Bytes,
      (∀ i s, original i = some s → originals[i]? = some s) →
      (∀ j s, recovered j = some s → recovery[j]? = some s) →
      k ≤ ((Finset.range k).filter (fun i => (original i).isSome)).card +
        ((Finset.range r).filter (fun j => (recovered j).isSome)).card →
      ∃ restored, rs.decode k r original recovered = .ok restored ∧
        ∀ i, i < k → original i = none → restored i = originals[i]?

/-- The documented contract of the codec: `k` equally long shards encode to `r` recovery
shards of the same length, and any `k` of the `k + r` restore every missing original. -/
structure ReedSolomon.Correct (rs : ReedSolomon) : Prop extends ReedSolomon.Restores rs where
  encode_ok : ∀ k r originals, 0 < k → k ≤ 32768 → 0 < r → r ≤ 32768 →
    originals.length = k → (∀ s ∈ originals, s.length = chunkBytes) →
    ∃ recovery, rs.encode k r originals = .ok recovery

/-- One codeword on the wire (`Chunk`). -/
structure Chunk where
  index : ℕ
  data : Bytes
  deriving DecidableEq, Repr

/-- `slice::chunks_exact`. -/
def chunksExact (w : ℕ) (bytes : Bytes) : List Bytes :=
  (List.range (bytes.length / w)).map (fun i => (bytes.drop (i * w)).take w)

/-- A streaming encoder over one object. -/
structure Encoder where
  shards : List Bytes
  cursor : ℕ
  deriving DecidableEq

namespace Encoder

/-- The object's bytes, zero-filled to whole shards. -/
def padded (data : Bytes) : Bytes :=
  data ++ List.replicate (dataShardsFor data.length * chunkBytes - data.length) 0

/-- The systematic shards of an object. -/
def originals (data : Bytes) : List Bytes := chunksExact chunkBytes (padded data)

/-- `Encoder::new`. -/
def new (rs : ReedSolomon) (data : Bytes) : Result Encoder :=
  if data = [] then .error (.braidErasure "cannot encode an empty message")
  else
    match rs.encode (dataShardsFor data.length) (recoveryShardsFor data.length)
        (originals data) with
    | .error e => .error (.braidErasure ("rs encode: " ++ e))
    | .ok recovery => .ok ⟨originals data ++ recovery, 0⟩

/-- `Encoder::next_chunk`: the codeword and the encoder after handing it out. -/
def nextChunk (enc : Encoder) : Chunk × Encoder :=
  let index := enc.cursor % enc.shards.length
  (⟨u16 index, enc.shards.getD index []⟩, { enc with cursor := enc.cursor + 1 })

end Encoder

/-- A decoder for an object of known length. -/
structure Decoder where
  len : ℕ
  dataShards : ℕ
  recoveryShards : ℕ
  received : Map ℕ Bytes
  deriving DecidableEq

namespace Decoder

/-- `Decoder::new`. -/
def new (len : ℕ) : Decoder where
  len := len
  dataShards := dataShardsFor len
  recoveryShards := recoveryShardsFor len
  received := ∅

/-- `Decoder::total_shards`. -/
def totalShards (dec : Decoder) : ℕ := dec.dataShards + dec.recoveryShards

/-- `Decoder::add_chunk`. -/
def addChunk (dec : Decoder) (chunk : Chunk) : Result Decoder :=
  if chunk.data.length ≠ chunkBytes then
    .error (.braidErasure "codeword has wrong length")
  else if dec.totalShards ≤ chunk.index then
    .error (.braidErasure "codeword index out of range")
  else .ok { dec with received := Map.orInsert dec.received chunk.index chunk.data }

/-- `Decoder::has_message`. -/
def hasMessage (dec : Decoder) : Bool := decide (dec.dataShards ≤ Map.len dec.received)

/-- `Decoder::reset`. -/
def reset (dec : Decoder) : Decoder := { dec with received := ∅ }

/-- The shards `message` has to have restored: none when every original is there. -/
def restore (rs : ReedSolomon) (dec : Decoder) : Result (ℕ → Option Bytes) :=
  if (List.range (u16 dec.dataShards)).all (fun i => decide (i ∈ dec.received)) then
    .ok (fun _ => none)
  else
    match rs.decode dec.dataShards dec.recoveryShards
        (fun i => if i < dec.dataShards then dec.received.lookup i else none)
        (fun j => dec.received.lookup (j + dec.dataShards)) with
    | .error e => .error (.braidErasure ("rs decode: " ++ e))
    | .ok restored => .ok restored

/-- The `i`-th original, received or restored. -/
def shard (dec : Decoder) (restored : ℕ → Option Bytes) (i : ℕ) : Result Bytes :=
  match dec.received.lookup (u16 i) with
  | some d => .ok d
  | none =>
      match restored i with
      | some d => .ok d
      | none => .error (.braidErasure "reconstruction incomplete")

/-- `Decoder::message`. -/
def message (rs : ReedSolomon) (dec : Decoder) : Result (Option Bytes) :=
  if dec.hasMessage then do
    let restored ← dec.restore rs
    let shards ← (List.range dec.dataShards).mapM (dec.shard restored)
    return some (shards.flatten.take dec.len)
  else .ok none

end Decoder

/-! ## Splitting and joining -/

lemma flatten_map_drop_take (w n : ℕ) : ∀ bytes : Bytes, bytes.length = n * w →
    ((List.range n).map (fun i => (bytes.drop (i * w)).take w)).flatten = bytes := by
  induction n with
  | zero =>
      intro bytes h
      have hnil : bytes = [] := List.length_eq_zero_iff.mp (by omega)
      simp [hnil]
  | succ n ih =>
      intro bytes h
      have hlen : (bytes.drop w).length = n * w := by
        rw [List.length_drop, h, Nat.succ_mul]
        omega
      -- the first shard is split off; the others are the shards of the tail
      have htail := ih (bytes.drop w) hlen
      simp only [List.drop_drop] at htail
      rw [List.range_succ_eq_map, List.map_cons, List.map_map, List.flatten_cons]
      have hshift : (fun i => (bytes.drop (i * w)).take w) ∘ Nat.succ =
          fun i => (bytes.drop (w + i * w)).take w := by
        funext i
        simp [Nat.succ_mul, Nat.add_comm]
      rw [hshift, htail]
      simp

lemma mapM_eq_ok {α β ε : Type} {f : α → Except ε β} {g : α → β} {l : List α}
    (h : ∀ a ∈ l, f a = .ok (g a)) : l.mapM f = .ok (l.map g) := by
  induction l with
  | nil => rfl
  | cons a l ih =>
      rw [List.mapM_cons, h a (by simp), ih (fun b hb => h b (by simp [hb]))]
      rfl

/-! ## Encoders -/

/-- The sizes of object the codec and the 16-bit codeword index can carry. -/
def Streamable (obj : Bytes) : Prop := 0 < obj.length ∧ obj.length ≤ 32768 * chunkBytes

/-- The codewords an encoder of the object cycles through. -/
def totalShardsFor (len : ℕ) : ℕ := dataShardsFor len + recoveryShardsFor len

lemma dataShardsFor_pos (len : ℕ) : 0 < dataShardsFor len := by
  unfold dataShardsFor
  omega

lemma recoveryShardsFor_pos (len : ℕ) : 0 < recoveryShardsFor len := by
  have h := dataShardsFor_pos len
  unfold recoveryShardsFor recoveryMultiple maxRecoveryShards
  omega

lemma le_dataShardsFor (len : ℕ) : len ≤ dataShardsFor len * chunkBytes := by
  unfold dataShardsFor chunkBytes
  omega

lemma Streamable.dataShardsFor_le {obj : Bytes} (h : Streamable obj) :
    dataShardsFor obj.length ≤ 32768 := by
  have hle := h.2
  unfold dataShardsFor
  unfold chunkBytes at *
  omega

lemma recoveryShardsFor_le (len : ℕ) : recoveryShardsFor len ≤ 1024 := by
  unfold recoveryShardsFor maxRecoveryShards
  omega

/-- Every codeword of a streamable object has a 16-bit index. -/
lemma Streamable.totalShardsFor_le {obj : Bytes} (h : Streamable obj) :
    totalShardsFor obj.length ≤ 65536 := by
  have hk := h.dataShardsFor_le
  have hr := recoveryShardsFor_le obj.length
  unfold totalShardsFor
  omega

lemma dataShardsFor_lt_total (len : ℕ) : dataShardsFor len < totalShardsFor len := by
  have hr := recoveryShardsFor_pos len
  unfold totalShardsFor
  omega

namespace Encoder

lemma length_padded (data : Bytes) :
    (padded data).length = dataShardsFor data.length * chunkBytes := by
  have h := le_dataShardsFor data.length
  simp only [padded, List.length_append, List.length_replicate]
  omega

lemma length_originals (data : Bytes) : (originals data).length = dataShardsFor data.length := by
  simp [originals, chunksExact, length_padded, chunkBytes]

lemma originals_eq (data : Bytes) :
    originals data = (List.range (dataShardsFor data.length)).map
      (fun i => ((padded data).drop (i * chunkBytes)).take chunkBytes) := by
  simp [originals, chunksExact, length_padded, chunkBytes]

lemma flatten_originals (data : Bytes) : (originals data).flatten = padded data := by
  rw [originals_eq]
  exact flatten_map_drop_take _ _ _ (length_padded data)

lemma length_of_mem_originals {data s : Bytes} (h : s ∈ originals data) :
    s.length = chunkBytes := by
  rw [originals_eq] at h
  obtain ⟨i, hi, rfl⟩ := List.mem_map.mp h
  have hi' : i + 1 ≤ dataShardsFor data.length := List.mem_range.mp hi
  have hle := Nat.mul_le_mul_right chunkBytes hi'
  rw [Nat.succ_mul] at hle
  rw [List.length_take, List.length_drop, length_padded]
  omega

/-- `enc` is an encoder of `obj`, wherever in its cycle it stands. -/
def Encodes (rs : ReedSolomon) (obj : Bytes) (enc : Encoder) : Prop :=
  new rs obj = .ok { enc with cursor := 0 }

lemma new_eq_ok {rs : ReedSolomon} {obj : Bytes} {enc : Encoder} (h : new rs obj = .ok enc) :
    ∃ recovery, rs.encode (dataShardsFor obj.length) (recoveryShardsFor obj.length)
        (originals obj) = .ok recovery ∧ enc = ⟨originals obj ++ recovery, 0⟩ := by
  unfold new at h
  split at h
  · cases h
  · split at h
    · cases h
    · rename_i recovery hrec
      exact ⟨recovery, hrec, (Except.ok.inj h).symm⟩

/-- A fresh encoder stands at the start of its cycle. -/
lemma encodes_of_new {rs : ReedSolomon} {obj : Bytes} {enc : Encoder}
    (h : new rs obj = .ok enc) : enc.Encodes rs obj := by
  obtain ⟨recovery, -, rfl⟩ := new_eq_ok h
  exact h

/-- Every object of a supported size has an encoder. -/
lemma exists_new {rs : ReedSolomon} (hrs : rs.Correct) {obj : Bytes} (hobj : Streamable obj) :
    ∃ enc, new rs obj = .ok enc := by
  obtain ⟨recovery, hrec⟩ := hrs.encode_ok _ _ (originals obj) (dataShardsFor_pos _)
    hobj.dataShardsFor_le (recoveryShardsFor_pos obj.length)
    ((recoveryShardsFor_le _).trans (by norm_num)) (length_originals obj)
    (fun s hs => length_of_mem_originals hs)
  refine ⟨⟨originals obj ++ recovery, 0⟩, ?_⟩
  have hne : obj ≠ [] := List.ne_nil_of_length_pos hobj.1
  simp [new, hne, hrec]

lemma Encodes.length_shards {rs : ReedSolomon} (hrs : rs.Restores) {obj : Bytes}
    {enc : Encoder} (h : enc.Encodes rs obj) :
    enc.shards.length = totalShardsFor obj.length := by
  obtain ⟨recovery, hrec, heq⟩ := new_eq_ok h
  have hshards : enc.shards = originals obj ++ recovery := congrArg Encoder.shards heq
  have hshape := hrs.encode_shape _ _ _ _ (fun s hs => length_of_mem_originals hs) hrec
  rw [hshards, List.length_append, length_originals, hshape.1, totalShardsFor]

lemma Encodes.length_shard {rs : ReedSolomon} (hrs : rs.Restores) {obj s : Bytes}
    {enc : Encoder} (h : enc.Encodes rs obj) (hs : s ∈ enc.shards) :
    s.length = chunkBytes := by
  obtain ⟨recovery, hrec, heq⟩ := new_eq_ok h
  have hshards : enc.shards = originals obj ++ recovery := congrArg Encoder.shards heq
  have hshape := hrs.encode_shape _ _ _ _ (fun s hs => length_of_mem_originals hs) hrec
  rw [hshards, List.mem_append] at hs
  rcases hs with hs | hs
  · exact length_of_mem_originals hs
  · exact hshape.2 s hs

end Encoder

/-- A codeword of `obj`: what an encoder of `obj` hands out at the chunk's index. -/
def IsCodeword (rs : ReedSolomon) (obj : Bytes) (chunk : Chunk) : Prop :=
  ∃ enc, Encoder.new rs obj = .ok enc ∧ enc.shards[chunk.index]? = some chunk.data

namespace IsCodeword

variable {rs : ReedSolomon} {obj : Bytes} {chunk : Chunk}

lemma index_lt (hrs : rs.Restores) (h : IsCodeword rs obj chunk) :
    chunk.index < totalShardsFor obj.length := by
  obtain ⟨enc, hnew, hget⟩ := h
  have hlt := (List.getElem?_eq_some_iff.mp hget).1
  rwa [(Encoder.encodes_of_new hnew).length_shards hrs] at hlt

lemma length_data (hrs : rs.Restores) (h : IsCodeword rs obj chunk) :
    chunk.data.length = chunkBytes := by
  obtain ⟨enc, hnew, hget⟩ := h
  exact (Encoder.encodes_of_new hnew).length_shard hrs (List.mem_of_getElem? hget)

end IsCodeword

/-- **What an encoder hands out.**  The next codeword of the object, at the cursor's place in
the cycle. -/
lemma Encoder.Encodes.nextChunk {rs : ReedSolomon} (hrs : rs.Restores) {obj : Bytes}
    {enc : Encoder} (hsize : totalShardsFor obj.length ≤ 65536) (h : enc.Encodes rs obj) :
    IsCodeword rs obj enc.nextChunk.1 ∧
      enc.nextChunk.1.index = enc.cursor % totalShardsFor obj.length ∧
      enc.nextChunk.2.Encodes rs obj := by
  have hlen := h.length_shards hrs
  have hpos : 0 < totalShardsFor obj.length :=
    (Nat.zero_le _).trans_lt (dataShardsFor_lt_total _)
  have hlt : enc.cursor % enc.shards.length < enc.shards.length := by
    rw [hlen]
    exact Nat.mod_lt _ hpos
  have hindex : enc.nextChunk.1.index = enc.cursor % enc.shards.length :=
    u16_of_lt (hlt.trans_le (hlen ▸ hsize))
  refine ⟨⟨_, h, ?_⟩, hlen ▸ hindex, h⟩
  rw [hindex]
  show enc.shards[enc.cursor % enc.shards.length]? =
    some (enc.shards.getD (enc.cursor % enc.shards.length) [])
  rw [List.getD_eq_getElem?_getD, List.getElem?_eq_getElem hlt, Option.getD_some]

/-! ## Decoders -/

namespace Decoder

/-- A decoder for `obj` that holds nothing but codewords of `obj`. -/
structure Genuine (rs : ReedSolomon) (obj : Bytes) (dec : Decoder) : Prop where
  len_eq : dec.len = obj.length
  dataShards_eq : dec.dataShards = dataShardsFor obj.length
  recoveryShards_eq : dec.recoveryShards = recoveryShardsFor obj.length
  received_codeword : ∀ i d, dec.received.lookup i = some d → IsCodeword rs obj ⟨i, d⟩

variable {rs : ReedSolomon} {obj : Bytes} {dec : Decoder}

lemma genuine_new (rs : ReedSolomon) (obj : Bytes) : (new obj.length).Genuine rs obj where
  len_eq := rfl
  dataShards_eq := rfl
  recoveryShards_eq := rfl
  received_codeword := by
    intro i d h
    simp [new] at h

/-- **Admitting a codeword.**  It always succeeds, keeps the decoder genuine and adds the
codeword's index to those held. -/
lemma Genuine.addChunk (hrs : rs.Restores) (h : dec.Genuine rs obj) {chunk : Chunk}
    (hc : IsCodeword rs obj chunk) :
    ∃ dec', dec.addChunk chunk = .ok dec' ∧ dec'.Genuine rs obj ∧
      dec'.received.keys = insert chunk.index dec.received.keys := by
  have hindex : ¬ dec.totalShards ≤ chunk.index := by
    rw [totalShards, h.dataShards_eq, h.recoveryShards_eq]
    exact not_le.mpr (hc.index_lt hrs)
  refine ⟨{ dec with received := Map.orInsert dec.received chunk.index chunk.data }, ?_, ?_, ?_⟩
  · simp [Decoder.addChunk, hc.length_data hrs, hindex]
  · refine ⟨h.len_eq, h.dataShards_eq, h.recoveryShards_eq, ?_⟩
    intro i d hd
    rcases Map.lookup_orInsert hd with hold | ⟨rfl, rfl, -⟩
    · exact h.received_codeword i d hold
    · exact hc
  · exact Map.keys_orInsert _ _ _

lemma Genuine.keys_subset (hrs : rs.Restores) (h : dec.Genuine rs obj) :
    dec.received.keys ⊆ Finset.range (totalShardsFor obj.length) := by
  intro i hi
  obtain ⟨d, hd⟩ := Finmap.mem_iff.mp (Finmap.mem_keys.mp hi)
  exact Finset.mem_range.mpr ((h.received_codeword i d hd).index_lt hrs)

/-- The codewords held split into originals and recovery shards. -/
lemma card_keys_eq {k r : ℕ} {received : Map ℕ Bytes}
    (hkeys : received.keys ⊆ Finset.range (k + r)) :
    received.keys.card =
      ((Finset.range k).filter (fun i => i ∈ received)).card +
        ((Finset.range r).filter (fun j => j + k ∈ received)).card := by
  rw [← Finset.card_filter_add_card_filter_not (fun i => i < k)]
  congr 1
  · congr 1
    ext i
    simp only [Finset.mem_filter, Finset.mem_range, Finmap.mem_keys]
    exact And.comm
  · refine (Finset.card_bij (fun j _ => j + k) ?_ ?_ ?_).symm
    · intro j hj
      have hmem := (Finset.mem_filter.mp hj).2
      exact Finset.mem_filter.mpr ⟨Finmap.mem_keys.mpr hmem, by omega⟩
    · intro a _ b _ hab
      omega
    · intro i hi
      obtain ⟨hmem, hik⟩ := Finset.mem_filter.mp hi
      have hlt := Finset.mem_range.mp (hkeys hmem)
      refine ⟨i - k, Finset.mem_filter.mpr ⟨Finset.mem_range.mpr (by omega), ?_⟩, by omega⟩
      rw [Nat.sub_add_cancel (by omega)]
      exact Finmap.mem_keys.mp hmem

/-- What a decoder hands to the codec, originals and recovery shards, counts what it holds. -/
lemma card_handed_eq {k r : ℕ} {received : Map ℕ Bytes}
    (hkeys : received.keys ⊆ Finset.range (k + r)) :
    received.keys.card =
      ((Finset.range k).filter (fun i =>
        (if i < k then received.lookup i else none).isSome)).card +
      ((Finset.range r).filter (fun j => (received.lookup (j + k)).isSome)).card := by
  rw [card_keys_eq hkeys]
  congr 2
  · refine Finset.filter_congr (fun i hi => ?_)
    rw [if_pos (Finset.mem_range.mp hi), Finmap.lookup_isSome]
  · refine Finset.filter_congr (fun j _ => ?_)
    rw [Finmap.lookup_isSome]

lemma Genuine.originals_get (h : dec.Genuine rs obj) {i : ℕ} {d : Bytes}
    (hi : i < dataShardsFor obj.length) (hd : dec.received.lookup i = some d) :
    (Encoder.originals obj)[i]? = some d := by
  obtain ⟨enc, hnew, hget⟩ := h.received_codeword i d hd
  obtain ⟨recovery, -, rfl⟩ := Encoder.new_eq_ok hnew
  rwa [List.getElem?_append_left (by rwa [Encoder.length_originals])] at hget

lemma Genuine.recovery_get (h : dec.Genuine rs obj) {recovery : List Bytes}
    (hrec : rs.encode (dataShardsFor obj.length) (recoveryShardsFor obj.length)
      (Encoder.originals obj) = .ok recovery) {j : ℕ} {d : Bytes}
    (hd : dec.received.lookup (j + dataShardsFor obj.length) = some d) :
    recovery[j]? = some d := by
  obtain ⟨enc, hnew, hget⟩ := h.received_codeword _ d hd
  obtain ⟨recovery', hrec', rfl⟩ := Encoder.new_eq_ok hnew
  have hsame : recovery' = recovery := Except.ok.inj (hrec'.symm.trans hrec)
  rw [List.getElem?_append_right (by rw [Encoder.length_originals]; exact Nat.le_add_left _ _),
    Encoder.length_originals, Nat.add_sub_cancel, hsame] at hget
  exact hget

/-- With `k` codewords of the object held, every missing original is restored. -/
lemma Genuine.restore (hrs : rs.Restores) (hsize : totalShardsFor obj.length ≤ 65536)
    (h : dec.Genuine rs obj) (hcard : dataShardsFor obj.length ≤ dec.received.keys.card) :
    ∃ restored, dec.restore rs = .ok restored ∧
      ∀ i, i < dataShardsFor obj.length → dec.received.lookup i = none →
        restored i = (Encoder.originals obj)[i]? := by
  have hk : dec.dataShards = dataShardsFor obj.length := h.dataShards_eq
  have hr : dec.recoveryShards = recoveryShardsFor obj.length := h.recoveryShards_eq
  have hk16 : u16 (dataShardsFor obj.length) = dataShardsFor obj.length :=
    u16_of_lt ((dataShardsFor_lt_total _).trans_le hsize)
  unfold Decoder.restore
  split
  · -- every original has arrived, so there is nothing to restore
    rename_i hall
    refine ⟨fun _ => none, rfl, ?_⟩
    intro i hi hnone
    rw [hk, hk16, List.all_eq_true] at hall
    have hmem := of_decide_eq_true (hall i (List.mem_range.mpr hi))
    exact absurd hmem (Finmap.lookup_eq_none.mp hnone)
  · -- a decoder that holds a codeword is of an object that has an encoder
    obtain ⟨i, hi⟩ := Finset.card_pos.mp ((dataShardsFor_pos _).trans_le hcard)
    obtain ⟨d, hd⟩ := Finmap.mem_iff.mp (Finmap.mem_keys.mp hi)
    obtain ⟨enc, hnew, -⟩ := h.received_codeword i d hd
    obtain ⟨recovery, hrec, -⟩ := Encoder.new_eq_ok hnew
    have horig : ∀ i d, (if i < dec.dataShards then dec.received.lookup i else none) = some d →
        (Encoder.originals obj)[i]? = some d := by
      intro i d hd
      split at hd
      · rename_i hi
        exact h.originals_get (hk ▸ hi) hd
      · cases hd
    have hrecv : ∀ j d, dec.received.lookup (j + dec.dataShards) = some d →
        recovery[j]? = some d := by
      intro j d hd
      exact h.recovery_get hrec (hk ▸ hd)
    have hcount : dataShardsFor obj.length ≤
        ((Finset.range (dataShardsFor obj.length)).filter (fun i =>
          (if i < dec.dataShards then dec.received.lookup i else none).isSome)).card +
        ((Finset.range (recoveryShardsFor obj.length)).filter (fun j =>
          (dec.received.lookup (j + dec.dataShards)).isSome)).card := by
      rw [hk]
      exact hcard.trans (card_handed_eq (h.keys_subset hrs)).le
    obtain ⟨restored, hdec, hrest⟩ := hrs.decode_ok _ _ _ recovery
      (Encoder.length_originals obj) hrec _ _ horig hrecv hcount
    refine ⟨restored, ?_, ?_⟩
    · rw [hr]
      nth_rewrite 1 [hk]
      rw [hdec]
    · intro i hi hnone
      exact hrest i hi (by rw [hk, if_pos hi]; exact hnone)

/-- **Reconstruction.**  A genuine decoder returns its object as soon as it holds `k` distinct
codewords, and nothing before. -/
lemma Genuine.message (hrs : rs.Restores) (hsize : totalShardsFor obj.length ≤ 65536)
    (h : dec.Genuine rs obj) :
    dec.message rs = .ok (if dataShardsFor obj.length ≤ dec.received.keys.card
      then some obj else none) := by
  have hhas : dec.hasMessage = decide (dataShardsFor obj.length ≤ dec.received.keys.card) := by
    rw [hasMessage, h.dataShards_eq, Map.len]
  by_cases hcard : dataShardsFor obj.length ≤ dec.received.keys.card
  · obtain ⟨restored, hrestore, hrest⟩ := h.restore hrs hsize hcard
    have hshard : ∀ i ∈ List.range dec.dataShards, dec.shard restored i =
        .ok ((Encoder.originals obj).getD i []) := by
      intro i hi
      have hik : i < dataShardsFor obj.length := h.dataShards_eq ▸ List.mem_range.mp hi
      have hi16 : u16 i = i := u16_of_lt
        ((hik.trans (dataShardsFor_lt_total _)).trans_le hsize)
      rw [List.getD_eq_getElem?_getD, shard, hi16]
      cases hd : dec.received.lookup i with
      | some d => rw [h.originals_get hik hd]; rfl
      | none =>
          have hget : i < (Encoder.originals obj).length := by
            rwa [Encoder.length_originals]
          simp [hrest i hik hd, List.getElem?_eq_getElem hget]
    have hall : (List.range dec.dataShards).map (fun i => (Encoder.originals obj).getD i []) =
        Encoder.originals obj := by
      rw [h.dataShards_eq, ← Encoder.length_originals]
      refine List.ext_getElem (by simp) ?_
      intro i h1 h2
      simp [List.getElem?_eq_getElem h2]
    rw [if_pos hcard, Decoder.message, hhas, decide_eq_true hcard, if_pos rfl, hrestore]
    have hmap := mapM_eq_ok hshard
    rw [hall] at hmap
    simp [bind, Except.bind, hmap, Encoder.flatten_originals, h.len_eq, Encoder.padded, pure,
      Except.pure]
  · rw [if_neg hcard, Decoder.message, hhas, decide_eq_false hcard]
    rfl

/-- What a genuine decoder returns is its object. -/
lemma Genuine.eq_of_message (hrs : rs.Restores) (hsize : totalShardsFor obj.length ≤ 65536)
    (h : dec.Genuine rs obj) {obj' : Bytes} (hmsg : dec.message rs = .ok (some obj')) :
    obj' = obj := by
  rw [h.message hrs hsize] at hmsg
  split at hmsg
  · exact (Option.some.inj (Except.ok.inj hmsg)).symm
  · cases Except.ok.inj hmsg

/-- A decoder that returns nothing holds too few codewords. -/
lemma hasMessage_of_message (hmsg : dec.message rs = .ok none) : dec.hasMessage = false := by
  by_contra hhas
  rw [Bool.not_eq_false] at hhas
  rw [message, if_pos hhas] at hmsg
  cases hrestore : dec.restore rs with
  | error e => rw [hrestore] at hmsg; cases hmsg
  | ok restored =>
      rw [hrestore] at hmsg
      cases hshards : (List.range dec.dataShards).mapM (dec.shard restored) with
      | error e => simp [bind, Except.bind, hshards] at hmsg
      | ok shards => simp [bind, Except.bind, hshards, pure, Except.pure] at hmsg

end Decoder

end Hushwire
