import Hushwire.Braid.Ideal

/-!
# The stream an encoder hands out

`src/protocol/braid/erasure.rs`, over whole streams.  One lap of `Encoder.nextChunk` hands out
every codeword once, from wherever in the cycle it starts (`Encoder.Encodes.nextChunks`), and a
`Decoder` admits whatever was handed out, in any order and any number of times
(`Decoder.Genuine.addChunks`).  `stream_recoverable` puts the two together for every object that
has an encoder at all, the largest the codec supports included: there the last index is
`u16::MAX`, so that the casts in `next_chunk` and `message` are still exact.
-/

namespace Hushwire

/-- The contract of the codec at every size: it encodes only what its field has room for, and
restores what it encoded. -/
structure ReedSolomon.Contract (rs : ReedSolomon) : Prop extends ReedSolomon.Restores rs where
  encode_le : ∀ k r originals recovery, rs.encode k r originals = .ok recovery → k + r ≤ 65536

lemma ReedSolomon.Contract.totalShardsFor_le {rs : ReedSolomon} (hrs : rs.Contract)
    {obj : Bytes} {enc : Encoder} (hnew : Encoder.new rs obj = .ok enc) :
    totalShardsFor obj.length ≤ 65536 := by
  obtain ⟨recovery, hrec, -⟩ := Encoder.new_eq_ok hnew
  exact hrs.encode_le _ _ _ recovery hrec

/-- `n` calls of `next_chunk` in a row: the codewords and the encoder after them. -/
def Encoder.nextChunks (enc : Encoder) : ℕ → List Chunk × Encoder
  | 0 => ([], enc)
  | n + 1 =>
      let rest := enc.nextChunk.2.nextChunks n
      (enc.nextChunk.1 :: rest.1, rest.2)

/-- `add_chunk` on one codeword after the other, up to the first that is rejected. -/
def Decoder.addChunks (dec : Decoder) : List Chunk → Result Decoder
  | [] => .ok dec
  | chunk :: chunks => do (← dec.addChunk chunk).addChunks chunks

/-- **A stretch of the stream.**  `n` calls hand out the codewords at the next `n` places of the
cycle and leave an encoder of the same object. -/
lemma Encoder.Encodes.nextChunks {rs : ReedSolomon} (hrs : rs.Restores) {obj : Bytes}
    (hsize : totalShardsFor obj.length ≤ 65536) (n : ℕ) :
    ∀ {enc : Encoder}, enc.Encodes rs obj →
      (∀ chunk ∈ (enc.nextChunks n).1, IsCodeword rs obj chunk) ∧
      (enc.nextChunks n).1.map Chunk.index =
        (List.range n).map (fun i => (enc.cursor + i) % totalShardsFor obj.length) ∧
      (enc.nextChunks n).2.Encodes rs obj := by
  induction n with
  | zero =>
      intro enc h
      exact ⟨fun _ hmem => absurd hmem (List.not_mem_nil), rfl, h⟩
  | succ n ih =>
      intro enc h
      obtain ⟨hcode, hindex, h'⟩ := h.nextChunk hrs hsize
      obtain ⟨hcodes, hindices, hafter⟩ := ih h'
      refine ⟨?_, ?_, hafter⟩
      · intro chunk hmem
        rcases List.mem_cons.mp hmem with rfl | hmem
        · exact hcode
        · exact hcodes chunk hmem
      · have hshift : (fun i => (enc.cursor + i) % totalShardsFor obj.length) ∘ Nat.succ =
            fun i => (enc.nextChunk.2.cursor + i) % totalShardsFor obj.length := by
          funext i
          have hcursor : enc.nextChunk.2.cursor = enc.cursor + 1 := rfl
          rw [Function.comp_apply, hcursor, Nat.succ_eq_add_one, Nat.add_assoc, Nat.add_comm 1 i]
        rw [List.range_succ_eq_map, List.map_cons, List.map_map, hshift, ← hindices]
        exact congrArg (· :: _) hindex

/-- `n` consecutive places of a cycle of length `n` are all its places. -/
lemma map_add_mod_range_perm (c n : ℕ) :
    ((List.range n).map (fun i => (c + i) % n)).Perm (List.range n) := by
  have hnodup : ((List.range n).map (fun i => (c + i) % n)).Nodup := by
    refine List.Nodup.map_on ?_ List.nodup_range
    intro i hi j hj hij
    have hmod : i ≡ j [MOD n] := Nat.ModEq.add_left_cancel' c hij
    exact Nat.ModEq.eq_of_lt_of_lt hmod (List.mem_range.mp hi) (List.mem_range.mp hj)
  have hsub : (List.range n).map (fun i => (c + i) % n) ⊆ List.range n := by
    intro x hx
    obtain ⟨i, hi, rfl⟩ := List.mem_map.mp hx
    exact List.mem_range.mpr (Nat.mod_lt _ ((Nat.zero_le i).trans_lt (List.mem_range.mp hi)))
  exact (hnodup.subperm hsub).perm_of_length_le (by simp)

/-- **Admitting a stream.**  Codewords of the object are all accepted, and leave a genuine
decoder that holds exactly their indices besides those it held. -/
lemma Decoder.Genuine.addChunks {rs : ReedSolomon} (hrs : rs.Restores) {obj : Bytes}
    {chunks : List Chunk} : ∀ {dec : Decoder}, dec.Genuine rs obj →
      (∀ chunk ∈ chunks, IsCodeword rs obj chunk) →
      ∃ dec', dec.addChunks chunks = .ok dec' ∧ dec'.Genuine rs obj ∧
        dec'.received.keys = dec.received.keys ∪ (chunks.map Chunk.index).toFinset := by
  induction chunks with
  | nil =>
      intro dec h _
      exact ⟨dec, rfl, h, by simp⟩
  | cons chunk chunks ih =>
      intro dec h hcodes
      obtain ⟨dec₁, hadd, h₁, hkeys₁⟩ := h.addChunk hrs (hcodes chunk (by simp))
      obtain ⟨dec₂, hadds, h₂, hkeys₂⟩ := ih h₁ (fun c hc => hcodes c (by simp [hc]))
      refine ⟨dec₂, ?_, h₂, ?_⟩
      · rw [Decoder.addChunks, hadd]
        exact hadds
      · rw [hkeys₂, hkeys₁, List.map_cons, List.toFinset_cons, Finset.insert_union,
          Finset.union_insert]

/-- **The stream carries the object.**  For every object that has an encoder: a lap of `k + r`
calls, started anywhere, hands out every index once; and a decoder for the object's length
accepts any sequence of codewords handed out, and returns the object exactly when `k` distinct
ones were among them. -/
theorem stream_recoverable {rs : ReedSolomon} (hrs : rs.Contract) {data : Bytes} {enc : Encoder}
    (hnew : Encoder.new rs data = .ok enc) :
    (∀ started, (((enc.nextChunks started).2.nextChunks (totalShardsFor data.length)).1.map
        Chunk.index).Perm (List.range (totalShardsFor data.length))) ∧
      ∀ chunks : List Chunk, (∀ chunk ∈ chunks, ∃ calls, chunk ∈ (enc.nextChunks calls).1) →
        ∃ dec, (Decoder.new data.length).addChunks chunks = .ok dec ∧
          dec.message rs = .ok
            (if (chunks.map Chunk.index).toFinset.card < dataShardsFor data.length then none
              else some data) := by
  have hsize := hrs.totalShardsFor_le hnew
  have henc := Encoder.encodes_of_new hnew
  refine ⟨?_, ?_⟩
  · intro started
    obtain ⟨-, -, hstarted⟩ := henc.nextChunks hrs.toRestores hsize started
    obtain ⟨-, hindices, -⟩ := hstarted.nextChunks hrs.toRestores hsize
      (totalShardsFor data.length)
    rw [hindices]
    exact map_add_mod_range_perm _ _
  · intro chunks hemitted
    have hcodes : ∀ chunk ∈ chunks, IsCodeword rs data chunk := by
      intro chunk hchunk
      obtain ⟨calls, hmem⟩ := hemitted chunk hchunk
      exact (henc.nextChunks hrs.toRestores hsize calls).1 chunk hmem
    obtain ⟨dec, hadds, hgen, hkeys⟩ :=
      (Decoder.genuine_new rs data).addChunks hrs.toRestores hcodes
    have hheld : dec.received.keys = (chunks.map Chunk.index).toFinset := by
      rw [hkeys]
      exact Finset.empty_union _
    refine ⟨dec, hadds, ?_⟩
    rw [hgen.message hrs.toRestores hsize, hheld]
    by_cases hfew : (chunks.map Chunk.index).toFinset.card < dataShardsFor data.length
    · rw [if_neg (not_le.mpr hfew), if_pos hfew]
    · rw [if_pos (not_lt.mp hfew), if_neg hfew]

namespace Ideal

lemma codec_contract : codec.Contract where
  toRestores := codec_correct.toRestores
  encode_le k r originals recovery henc := by
    simp only [codec] at henc
    split at henc
    · rename_i hsupported
      exact hsupported.1
    · cases henc

end Ideal

/-- Two shards and their recovery shards.  The second original and the first recovery codeword
restore the object, and the recovery codeword alone does not. -/
theorem stream_recoverable_two_shards : ∃ enc,
    Encoder.new Ideal.codec (List.replicate 40 7) = .ok enc ∧
    ((enc.nextChunks 3).1.drop 1).map Chunk.index = [1, 2] ∧
    (∃ dec, (Decoder.new 40).addChunks ((enc.nextChunks 3).1.drop 1) = .ok dec ∧
      dec.message Ideal.codec = .ok (some (List.replicate 40 7))) ∧
    ∃ dec, (Decoder.new 40).addChunks ((enc.nextChunks 3).1.drop 2) = .ok dec ∧
      dec.message Ideal.codec = .ok none := by
  have hstream : Streamable (List.replicate 40 7) := by
    rw [Streamable, List.length_replicate]
    decide
  obtain ⟨enc, hnew⟩ := Encoder.exists_new Ideal.codec_correct hstream
  have hindices : (enc.nextChunks 3).1.map Chunk.index = [0, 1, 2] := by
    obtain ⟨recovery, -, rfl⟩ := Encoder.new_eq_ok hnew
    exact ((Encoder.encodes_of_new hnew).nextChunks Ideal.codec_contract.toRestores
      hstream.totalShardsFor_le 3).2.1
  have hemitted : ∀ n, ∀ chunk ∈ (enc.nextChunks 3).1.drop n,
      ∃ calls, chunk ∈ (enc.nextChunks calls).1 :=
    fun n chunk hmem => ⟨3, List.mem_of_mem_drop hmem⟩
  have hrecoverable := (stream_recoverable Ideal.codec_contract hnew).2
  refine ⟨enc, hnew, ?_, ?_, ?_⟩
  · rw [List.map_drop, hindices]
    rfl
  · obtain ⟨dec, hadds, hmessage⟩ := hrecoverable _ (hemitted 1)
    rw [List.map_drop, hindices, List.length_replicate] at hmessage
    exact ⟨dec, hadds, hmessage⟩
  · obtain ⟨dec, hadds, hmessage⟩ := hrecoverable _ (hemitted 2)
    rw [List.map_drop, hindices, List.length_replicate] at hmessage
    exact ⟨dec, hadds, hmessage⟩

end Hushwire
