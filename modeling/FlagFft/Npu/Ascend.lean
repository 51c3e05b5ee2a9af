import FlagFft.Device
import FlagFft.Library.Filling
import FlagFft.Library.Indexing

/-! What the vector cores have in common. Local memory is a row of floats; a copy between it and global memory moves
pieces a stride apart, and in local memory every piece takes whole blocks of 32 bytes. -/
namespace FlagFft.Npu
open Library.Indexing Library.Filling

def floatBytes : ℕ := 4

/- An element is two floats, sizeof(uint64_t). -/
def complexBytes : ℕ := 8

def blockBytes : ℕ := 32

def uint32Size : ℕ := 2 ^ 32

/- for (i = start; i < stop; i += step) -/
def strided (start stop step : ℕ) : List ℕ :=
  (List.range (ceilDiv (stop - start) step)).map fun i => start + i * step

theorem memStrided {start stop step i : ℕ} (positive : 0 < step) :
    i ∈ strided start stop step ↔ ∃ t, i = start + t * step ∧ i < stop := by
  simp only [strided, List.mem_map, List.mem_range, ltCeilDiv positive]
  constructor
  · rintro ⟨t, small, rfl⟩
    exact ⟨t, rfl, by omega⟩
  · rintro ⟨t, rfl, small⟩
    exact ⟨t, by omega, rfl⟩

section Copies
variable {S : Type*}

/- Lane by lane, from the byte offsets of a table. -/
def gather (source : ℕ → S) (offsets : ℕ → ℕ) (base : ℕ) (lane : ℕ) : S :=
  source ((base + offsets lane) / floatBytes)

theorem offsetReal (j : ℕ) : (0 + 2 * j * floatBytes) / floatBytes = 2 * j := by
  rw [Nat.zero_add, Nat.mul_div_cancel _ (by decide)]

theorem offsetImag (j : ℕ) : (floatBytes + 2 * j * floatBytes) / floatBytes = 2 * j + 1 := by
  rw [Nat.add_comm, ← Nat.succ_mul, Nat.mul_div_cancel _ (by decide)]

/- The floats of the blocks a piece takes, and how far apart the pieces are in local memory. -/
def paddedFloats (bytes : ℕ) : ℕ := ceilDiv bytes blockBytes * (blockBytes / floatBytes)

def localPitch (bytes blockStride : ℕ) : ℕ := (ceilDiv bytes blockBytes + blockStride) * (blockBytes / floatBytes)

def globalPitch (bytes byteStride : ℕ) : ℕ := (bytes + byteStride) / floatBytes

/- The rows of a tile follow each other in local memory, and in global memory where the rows of the matrix do. -/
theorem tilePitch {tile valid : ℕ} (blocks : 4 ∣ tile) (fits : valid ≤ tile) :
    localPitch (valid * complexBytes) (tile * complexBytes / blockBytes - (valid + 3) / 4) = 2 * tile ∧
      paddedFloats (valid * complexBytes) ≤ 2 * tile := by
  unfold localPitch paddedFloats ceilDiv complexBytes blockBytes floatBytes
  omega

theorem rowPitch {valid row : ℕ} (fits : valid ≤ row) :
    globalPitch (valid * complexBytes) ((row - valid) * complexBytes) = 2 * row ∧ valid * complexBytes / floatBytes = 2 * valid := by
  unfold globalPitch complexBytes floatBytes
  omega

/- DataCopyPad into local memory. What fills up a block is not specified. -/
def copyPadIn (pad : S) (count bytes srcStride dstStride : ℕ) (source : ℕ → S) (base : ℕ) (m : ℕ → S) : ℕ → S :=
  (List.range count).foldl (fun m piece =>
    copy (fun i => base + (piece * localPitch bytes dstStride + i)) (paddedFloats bytes)
      (fun i => if i < bytes / floatBytes then source (piece * globalPitch bytes srcStride + i) else pad) m) m

/- DataCopyPad to global memory. -/
def copyPadOut (count bytes srcStride dstStride : ℕ) (source : ℕ → S) (place : ℕ → Address) (m : Memory S) : Memory S :=
  (List.range count).foldl (fun m piece =>
    copy (fun i => place (piece * globalPitch bytes dstStride + i)) (bytes / floatBytes)
      (fun i => source (piece * localPitch bytes srcStride + i)) m) m

/- One piece. -/
theorem copyPadOutOne {bytes : ℕ} {source : ℕ → S} {place : ℕ → Address} {m : Memory S} :
    copyPadOut 1 bytes 0 0 source place m = copy place (bytes / floatBytes) source m := by
  simp only [copyPadOut, List.range_one, List.foldl_cons, List.foldl_nil, Nat.zero_mul, Nat.zero_add]

theorem copyPadInOne {pad : S} {bytes base : ℕ} {source m : ℕ → S} : copyPadIn pad 1 bytes 0 0 source base m =
    copy (fun i => base + i) (paddedFloats bytes) (fun i => if i < bytes / floatBytes then source i else pad) m := by
  simp only [copyPadIn, List.range_one, List.foldl_cons, List.foldl_nil, Nat.zero_mul, Nat.zero_add]

variable {good : (ℕ → S) → Prop} {want start : ℕ → S}

/- The input is still what it was. -/
def Reads (input : Address) (m m' : Memory S) : Prop := ∀ j, m' (input.at j) = m (input.at j)

variable {input output : Address} {m : Memory S}

theorem readsCopy {m' : Memory S} {offset count : ℕ} {tile : ℕ → S} (apart : input.buffer ≠ output.buffer)
    (reads : Reads input m m') : Reads input m (copy (fun i => output.at (offset + i)) count tile m') := fun j => by
  rw [← reads j]
  exact copyUntouched fun _ _ => (Address.atApart apart _ _).symm

variable {count bytes srcStride dstStride : ℕ} {source : ℕ → S}

theorem copyPadInFills {pad : S} {base : ℕ} {want start : ℕ → S}
    (wanted : ∀ piece < count, ∀ i < paddedFloats bytes,
      (if i < bytes / floatBytes then source (piece * globalPitch bytes srcStride + i) else pad) =
        want (base + (piece * localPitch bytes dstStride + i))) :
    Fills id (fun _ => True) want start
      (fun j => ∃ piece ∈ List.range count, ∃ i < paddedFloats bytes, base + (piece * localPitch bytes dstStride + i) = j)
      (copyPadIn pad count bytes srcStride dstStride source base) :=
  Fills.loop fun piece inside _ _ _ filled => ⟨trivial, filled.copy (wanted piece (List.mem_range.mp inside))⟩

theorem bytesPadded (bytes : ℕ) : bytes / floatBytes ≤ paddedFloats bytes := by
  unfold paddedFloats ceilDiv blockBytes floatBytes
  omega

theorem paddedPitch (bytes dstStride : ℕ) : paddedFloats bytes ≤ localPitch bytes dstStride :=
  Nat.mul_le_mul_right _ (Nat.le_add_right _ _)

/- A piece that was copied in. -/
theorem copyPadInAt {pad : S} {base piece i : ℕ} (inside : piece < count) (small : i < bytes / floatBytes) (m : ℕ → S) :
    copyPadIn pad count bytes srcStride dstStride source base m (base + (piece * localPitch bytes dstStride + i)) =
      source (piece * globalPitch bytes srcStride + i) := by
  have short : ∀ {i}, i < paddedFloats bytes → i < localPitch bytes dstStride := fun padded => padded.trans_le (paddedPitch _ _)
  have padded := small.trans_le (bytesPadded bytes)
  let want (j : ℕ) : S := if (j - base) % localPitch bytes dstStride < bytes / floatBytes then
    source ((j - base) / localPitch bytes dstStride * globalPitch bytes srcStride + (j - base) % localPitch bytes dstStride) else pad
  have fills : Fills id (fun _ => True) want m _ (copyPadIn pad count bytes srcStride dstStride source base) :=
    copyPadInFills fun piece _ i inPiece => by
      simp only [want, Nat.add_sub_cancel_left, mulAddDiv (short inPiece), mulAddMod (short inPiece)]
  refine ((fills.run (s := m) trivial rfl).there _ ⟨piece, List.mem_range.mpr inside, i, padded, rfl⟩).trans ?_
  simp only [want, Nat.add_sub_cancel_left, mulAddDiv (short padded), mulAddMod (short padded), if_pos small]

theorem copyPadOutFills {want : Memory S} {offset : ℕ} (apart : input.buffer ≠ output.buffer)
    (wanted : ∀ piece < count, ∀ i < bytes / floatBytes,
      source (piece * localPitch bytes srcStride + i) = want (output.at (offset + (piece * globalPitch bytes dstStride + i)))) :
    Fills id (Reads input m) want m
      (fun a => ∃ piece ∈ List.range count, ∃ i < bytes / floatBytes,
        output.at (offset + (piece * globalPitch bytes dstStride + i)) = a)
      (copyPadOut count bytes srcStride dstStride source fun i => output.at (offset + i)) := by
  refine Fills.loop fun piece inside m' done reads filled => ⟨?_, filled.copy (wanted piece (List.mem_range.mp inside))⟩
  simp only [← Nat.add_assoc]
  exact readsCopy apart reads

end Copies

end FlagFft.Npu
