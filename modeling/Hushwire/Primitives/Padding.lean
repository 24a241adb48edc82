import Hushwire.Basic

/-!
# Message padding

`src/primitives/padding.rs`: ISO/IEC 7816-4 padding to a multiple of 160 bytes.  `unpad`
walks the block from the right; the walk is a recursion over the reversed bytes here.
-/

namespace Hushwire

/-- `BLOCK_SIZE`. -/
def blockSize : ℕ := 160

/-- `pad`: the marker `0x80`, then zeros to the block boundary. -/
def pad (plaintext : Bytes) : Bytes :=
  let paddedLen := ((plaintext.length + 1) + blockSize - 1) / blockSize * blockSize
  plaintext ++ 0x80 :: List.replicate (paddedLen - (plaintext.length + 1)) 0x00

/-- The walk of `unpad`, on the bytes still to be looked at, last one first. -/
def unpadRev : Bytes → Result Bytes
  | [] => .error .invalidPadding
  | b :: rest =>
      if b = 0x80 then .ok rest.reverse
      else if b = 0x00 then unpadRev rest
      else .error .invalidPadding

/-- `unpad`. -/
def unpad (padded : Bytes) : Result Bytes := unpadRev padded.reverse

lemma unpadRev_replicate_zero (n : ℕ) (rest : Bytes) :
    unpadRev (List.replicate n 0x00 ++ 0x80 :: rest) = .ok rest.reverse := by
  induction n with
  | zero => simp [unpadRev]
  | succ n ih => simpa [List.replicate_succ, unpadRev] using ih

/-- Stripping the padding gives the plaintext back, whatever bytes it ends in. -/
theorem unpad_pad (plaintext : Bytes) : unpad (pad plaintext) = .ok plaintext := by
  have hrev : (pad plaintext).reverse = List.replicate
      (((plaintext.length + 1) + blockSize - 1) / blockSize * blockSize -
        (plaintext.length + 1)) 0x00 ++ 0x80 :: plaintext.reverse := by
    simp [pad]
  rw [unpad, hrev, unpadRev_replicate_zero, List.reverse_reverse]

example : unpad [0x68, 0x80, 0x00] = .ok [0x68] := by decide

end Hushwire
