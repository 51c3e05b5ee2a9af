import FlagFft.Api.Layout
import FlagFft.Offsets.Wide

/-! Which offsets of an accepted transform are right: those computed in 64-bit words always, those computed in 32-bit
words just when the last element of the launch has an offset below 2^31. -/
namespace FlagFft.Offsets
open Library.Words Api

section Kernels

/- The 32-bit accesses of the kernels a transform of length `n` is compiled to. -/
inductive WordCompiled (n : ℕ) : WordAccess → Prop where
  | leaf : WordCompiled n (leafOffset n)
  | fourStepRowLoad (n1 n2 : ℕ) : n1 * n2 = n → WordCompiled n (fourStepRowLoad n1 n2)
  | fourStepRowStore (n1 n2 : ℕ) : n1 * n2 = n → WordCompiled n (fourStepRowStore n1 n2)
  | fourStepColLoad (n1 n2 : ℕ) : n1 * n2 = n → WordCompiled n (fourStepColLoad n1 n2)
  | fourStepColStore (n1 n2 : ℕ) : n1 * n2 = n → WordCompiled n (fourStepColStore n1 n2)
  | reshapePackLoad (n1 n2 : ℕ) : n1 * n2 = n → WordCompiled n (reshapePackLoad n1 n2)
  | reshapePackStore (n1 n2 : ℕ) : n1 * n2 = n → WordCompiled n (reshapePackStore n1 n2)
  | twiddleReshapePackLoad (n1 n2 : ℕ) : n1 * n2 = n → WordCompiled n (twiddleReshapePackLoad n1 n2)
  | twiddleReshapePackStore (n1 n2 : ℕ) : n1 * n2 = n → WordCompiled n (twiddleReshapePackStore n1 n2)
  | realToComplexStore (blockCols : ℕ) : WordCompiled n (realToComplexStore n blockCols)
  | r2cHalfPackLoad (blockCols : ℕ) : WordCompiled n (r2cHalfPackLoad n blockCols)
  | r2cPackedPostprocessLoad (packed blockCols : ℕ) : 2 * packed = n →
      WordCompiled n (r2cPackedPostprocessLoad packed blockCols)
  | r2cPackedPostprocessMirror (packed blockCols : ℕ) : 2 * packed = n →
      WordCompiled n (r2cPackedPostprocessMirror packed blockCols)
  | c2rPackedPreprocessStore (packed blockCols : ℕ) : 2 * packed = n →
      WordCompiled n (c2rPackedPreprocessStore packed blockCols)
  | compactToHermitianFullStore (blockCols : ℕ) : WordCompiled n (compactToHermitianFullStore n blockCols)
  | complexToRealLoad (blockCols : ℕ) : WordCompiled n (complexToRealLoad n blockCols)
  | directDftR2cLoad : n ≤ 128 → WordCompiled n (directDftR2cLoad n)
  | directDftR2cStore : n ≤ 128 → WordCompiled n (directDftR2cStore n)
  | directDftC2rLoad : n ≤ 128 → WordCompiled n (directDftC2rLoad n)
  | directDftC2rStore : n ≤ 128 → WordCompiled n (directDftC2rStore n)

/- The transposes of two- and three-dimensional data of `size` elements. -/
inductive TransposeCompiled (size : ℕ) : WordAccess → Prop where
  | tiledTransposeLoad (n0 n1 : ℕ) : n0 * n1 = size → TransposeCompiled size (tiledTransposeLoad n0 n1)
  | tiledTransposeStore (n0 n1 : ℕ) : n0 * n1 = size → TransposeCompiled size (tiledTransposeStore n0 n1)
  | tiledTranspose3dLoad (s0 s1 s2 : ℕ) (order : AxisOrder) : s0 * s1 * s2 = size →
      TransposeCompiled size (tiledTranspose3dLoad s0 s1 s2 order)
  | tiledTranspose3dStore (s0 s1 s2 : ℕ) (order : AxisOrder) : s0 * s1 * s2 = size →
      TransposeCompiled size (tiledTranspose3dStore s0 s1 s2 order)

theorem factorsPositive {n n1 n2 : ℕ} (positive : 0 < n) (split : n1 * n2 = n) : 0 < n1 ∧ 0 < n2 := by
  subst split
  exact ⟨Nat.pos_of_mul_pos_right positive, Nat.pos_of_mul_pos_left positive⟩

theorem extentsPositive {n s0 s1 s2 : ℕ} (positive : 0 < n) (split : s0 * s1 * s2 = n) : 0 < s0 ∧ 0 < s1 ∧ 0 < s2 := by
  obtain ⟨plane, third⟩ := factorsPositive positive split
  obtain ⟨first, second⟩ := factorsPositive plane rfl
  exact ⟨first, second, third⟩

theorem wordSound {n : ℕ} (positive : 0 < n) {narrow : WordAccess} (compiled : WordCompiled n narrow) : narrow.Sound := by
  cases compiled with
  | leaf => exact leafSound positive
  | fourStepRowLoad n1 n2 split =>
    obtain ⟨first, second⟩ := factorsPositive positive split
    exact fourStepSound first second
  | fourStepRowStore n1 n2 split =>
    obtain ⟨first, second⟩ := factorsPositive positive split
    exact fourStepSound second first
  | fourStepColLoad n1 n2 split =>
    obtain ⟨first, second⟩ := factorsPositive positive split
    exact fourStepSound second first
  | fourStepColStore n1 n2 split =>
    obtain ⟨first, second⟩ := factorsPositive positive split
    exact fourStepSound second first
  | reshapePackLoad n1 n2 split => exact reshapePackLoadSound (split ▸ positive)
  | reshapePackStore n1 n2 split =>
    obtain ⟨first, second⟩ := factorsPositive positive split
    exact reshapePackStoreSound first second
  | twiddleReshapePackLoad n1 n2 split => exact reshapePackLoadSound (split ▸ positive)
  | twiddleReshapePackStore n1 n2 split =>
    obtain ⟨first, second⟩ := factorsPositive positive split
    exact reshapePackStoreSound first second
  | realToComplexStore blockCols => exact rowTileSound (plainColumns positive) (by omega)
  | r2cHalfPackLoad blockCols => exact rowTileSound (plainColumns (Nat.succ_pos _)) (by omega)
  | r2cPackedPostprocessLoad packed blockCols even => exact rowTileSound (wrappedColumns (by omega)) (by omega)
  | r2cPackedPostprocessMirror packed blockCols even => exact rowTileSound (mirroredColumns (by omega)) (by omega)
  | c2rPackedPreprocessStore packed blockCols even => exact rowTileSound (plainColumns (by omega)) (by omega)
  | compactToHermitianFullStore blockCols => exact rowTileSound (plainColumns positive) (by omega)
  | complexToRealLoad blockCols => exact rowTileSound (plainColumns positive) (by omega)
  | directDftR2cLoad short => exact realDirectSound (plainColumns positive) (by omega)
  | directDftR2cStore short => exact realDirectSound (plainColumns (Nat.succ_pos _)) (by omega)
  | directDftC2rLoad short => exact realDirectSound (hermitianColumns positive) (by omega)
  | directDftC2rStore short => exact realDirectSound (plainColumns positive) (by omega)

theorem transposeSound {size : ℕ} (positive : 0 < size) {narrow : WordAccess} (compiled : TransposeCompiled size narrow) :
    narrow.Sound := by
  cases compiled with
  | tiledTransposeLoad n0 n1 split =>
    obtain ⟨first, second⟩ := factorsPositive positive split
    exact tiledTransposeSound first second
  | tiledTransposeStore n0 n1 split =>
    obtain ⟨first, second⟩ := factorsPositive positive split
    exact tiledTransposeSound second first
  | tiledTranspose3dLoad s0 s1 s2 order split =>
    obtain ⟨first, second, third⟩ := extentsPositive positive split
    cases order with
    | order021 => exact cubeSound first second third (loadStrides s0 s1 s2 .order021)
    | order210 => exact cubeSound second first third (loadStrides s0 s1 s2 .order210)
    | order201 => exact cubeSound first second third (loadStrides s0 s1 s2 .order201)
    | order120 => exact cubeSound second first third (loadStrides s0 s1 s2 .order120)
  | tiledTranspose3dStore s0 s1 s2 order split =>
    obtain ⟨first, second, third⟩ := extentsPositive positive split
    cases order with
    | order021 => exact cubeSound first third second (storeStrides s0 s1 s2 .order021)
    | order210 => exact cubeSound second third first (storeStrides s0 s1 s2 .order210)
    | order201 => exact cubeSound first third second (storeStrides s0 s1 s2 .order201)
    | order120 => exact cubeSound second third first (storeStrides s0 s1 s2 .order120)

/- The distances the check accepts for rows of length n, and the one substituted for real rows in place. -/
def rowDistances (n : ℕ) : List ℕ := [n, n / 2 + 1, 2 * (n / 2 + 1)]

/- The 64-bit accesses of the kernels a transform of length `n` is compiled to, over rows at one of its distances or
in whole blocks of a stride. -/
inductive WideCompiled (rows n : ℕ) : Access → Prop where
  | r2cLeafLoad (distance : ℕ) : distance ∈ rowDistances n → WideCompiled rows n (r2cLeafLoad n distance)
  | r2cLeafStore (distance : ℕ) : distance ∈ rowDistances n → WideCompiled rows n (r2cLeafStore n distance)
  | c2rLeafLoad (distance : ℕ) : distance ∈ rowDistances n → WideCompiled rows n (c2rLeafLoad n distance)
  | c2rLeafStore (distance : ℕ) : distance ∈ rowDistances n → WideCompiled rows n (c2rLeafStore n distance)
  | packedR2cLeafLoad (packed distance : ℕ) : 2 * packed = n → distance ∈ rowDistances n →
      WideCompiled rows n (packedR2cLeafLoad packed distance)
  | packedR2cLeafStore (packed distance : ℕ) : 2 * packed = n → distance ∈ rowDistances n →
      WideCompiled rows n (packedR2cLeafStore packed distance)
  | packedC2rLeafLoad (packed distance : ℕ) : 2 * packed = n → distance ∈ rowDistances n →
      WideCompiled rows n (packedC2rLeafLoad packed distance)
  | packedC2rLeafMirror (packed distance : ℕ) : 2 * packed = n → distance ∈ rowDistances n →
      WideCompiled rows n (packedC2rLeafMirror packed distance)
  | fourStepRealRowLoad (distance : ℕ) : distance ∈ rowDistances n → WideCompiled rows n (fourStepRealRowLoad n distance)
  | fourStepHermitianRowLoad (distance : ℕ) : distance ∈ rowDistances n →
      WideCompiled rows n (fourStepHermitianRowLoad n distance)
  | fourStepR2cColStore (distance : ℕ) : distance ∈ rowDistances n → WideCompiled rows n (fourStepR2cColStore n distance)
  | fourStepC2rColStore (distance : ℕ) : distance ∈ rowDistances n → WideCompiled rows n (fourStepC2rColStore n distance)
  | realToComplexLoad (distance : ℕ) : distance ∈ rowDistances n → WideCompiled rows n (realToComplexLoad n distance)
  | r2cHalfPackStore (distance : ℕ) : distance ∈ rowDistances n → WideCompiled rows n (r2cHalfPackStore n distance)
  | r2cPackedPostprocessStore (packed distance : ℕ) : 2 * packed = n → distance ∈ rowDistances n →
      WideCompiled rows n (r2cPackedPostprocessStore packed distance)
  | c2rPackedPreprocessLoad (packed distance : ℕ) : 2 * packed = n → distance ∈ rowDistances n →
      WideCompiled rows n (c2rPackedPreprocessLoad packed distance)
  | c2rPackedPreprocessMirror (packed distance : ℕ) : 2 * packed = n → distance ∈ rowDistances n →
      WideCompiled rows n (c2rPackedPreprocessMirror packed distance)
  | compactToHermitianFullLoad (distance : ℕ) : distance ∈ rowDistances n →
      WideCompiled rows n (compactToHermitianFullLoad n distance)
  | complexToRealStore (distance : ℕ) : distance ∈ rowDistances n → WideCompiled rows n (complexToRealStore n distance)
  | strided (outerStride : ℕ) : outerStride ∣ rows → WideCompiled rows n (stridedOffset n outerStride)
  | fourStepRowStrided (n1 n2 outerStride : ℕ) : n1 * n2 = n → outerStride ∣ rows →
      WideCompiled rows n (fourStepRowStrided n1 n2 outerStride)
  | fourStepColStrided (n1 n2 outerStride : ℕ) : n1 * n2 = n → outerStride ∣ rows →
      WideCompiled rows n (fourStepColStrided n1 n2 outerStride)

theorem rowDistanceNear {n distance : ℕ} (narrow : n < 2 ^ 31) (known : distance ∈ rowDistances n) : distance ≤ 2 ^ 31 := by
  simp only [rowDistances, List.mem_cons, List.not_mem_nil, or_false] at known
  omega

theorem wideExact {rows n pack : ℕ} (divides : pack ∣ 2 ^ 31) (nonempty : 0 < rows) (positive : 0 < n)
    (narrow : n < 2 ^ 31) {wide : Access} (compiled : WideCompiled rows n wide) : wide.Exact rows pack ↔ rows < 2 ^ 31 := by
  have near : ∀ {distance}, distance ∈ rowDistances n → distance ≤ 2 ^ 31 := rowDistanceNear narrow
  have half : 0 < n / 2 + 1 := Nat.succ_pos _
  cases compiled with
  | r2cLeafLoad _ known => exact distanceExact divides (plainColumns positive) (by omega) (near known) narrow (by omega)
  | r2cLeafStore _ known =>
    exact distanceExact divides (plainColumns half) (by omega) (near known) (by omega) (by omega)
  | c2rLeafLoad _ known => exact distanceExact divides (hermitianColumns positive) (by omega) (near known) narrow (by omega)
  | c2rLeafStore _ known => exact distanceExact divides (plainColumns positive) (by omega) (near known) narrow (by omega)
  | packedR2cLeafLoad packed _ even known =>
    exact distanceExact divides (doubledColumns (by omega)) (by omega) (near known) (by omega) (by omega)
  | packedR2cLeafStore packed _ even known =>
    exact distanceExact divides (plainColumns (Nat.succ_pos packed)) (by omega) (near known) (by omega) (by omega)
  | packedC2rLeafLoad packed _ even known =>
    exact distanceExact divides (plainColumns (by omega)) (by omega) (near known) (by omega) (by omega)
  | packedC2rLeafMirror packed _ even known =>
    exact distanceExact divides (mirrorColumns (by omega)) (by omega) (near known) (by omega) (by omega)
  | fourStepRealRowLoad _ known =>
    exact distanceExact divides (plainColumns positive) (by omega) (near known) narrow (by omega)
  | fourStepHermitianRowLoad _ known =>
    exact distanceExact divides (hermitianColumns positive) (by omega) (near known) narrow (by omega)
  | fourStepR2cColStore _ known =>
    exact distanceExact divides (plainColumns half) (by omega) (near known) (by omega) (by omega)
  | fourStepC2rColStore _ known =>
    exact distanceExact divides (plainColumns positive) (by omega) (near known) narrow (by omega)
  | realToComplexLoad _ known =>
    exact distanceExact divides (plainColumns positive) (by omega) (near known) narrow (by omega)
  | r2cHalfPackStore _ known =>
    exact distanceExact divides (plainColumns half) (by omega) (near known) (by omega) (by omega)
  | r2cPackedPostprocessStore packed _ even known =>
    exact distanceExact divides (plainColumns (Nat.succ_pos packed)) (by omega) (near known) (by omega) (by omega)
  | c2rPackedPreprocessLoad packed _ even known =>
    exact distanceExact divides (plainColumns (by omega)) (by omega) (near known) (by omega) (by omega)
  | c2rPackedPreprocessMirror packed _ even known =>
    exact distanceExact divides (mirrorColumns (by omega)) (by omega) (near known) (by omega) (by omega)
  | compactToHermitianFullLoad _ known =>
    exact distanceExact divides (hermitianColumns positive) (by omega) (near known) narrow (by omega)
  | complexToRealStore _ known =>
    exact distanceExact divides (plainColumns positive) (by omega) (near known) narrow (by omega)
  | strided outerStride blocks => exact stridedExact divides narrow positive blocks nonempty
  | fourStepRowStrided n1 n2 outerStride split blocks =>
    subst split
    exact stridedExact divides narrow positive blocks nonempty
  | fourStepColStrided n1 n2 outerStride split blocks =>
    subst split
    exact stridedExact divides narrow positive blocks nonempty

end Kernels

section Descriptors
variable {arguments : PlanManyArguments} {desc : PlanDesc}

/- The rows and the length a compiled transform is launched with: those of the descriptor, the rows of an axis pass,
and those of the inner transforms, chunks, packed halves and convolutions below them. -/
inductive Launched (desc : PlanDesc) : ℕ → ℕ → Prop where
  | whole {n : Int64} : desc.n = [n] → Launched desc desc.batch.toInt.toNat n.toInt.toNat
  | axis {n : Int64} {rows : ℕ} : n ∈ desc.n → desc.rank ≠ 1 → 0 < rows → Launched desc rows n.toInt.toNat
  | chunk {rows count n : ℕ} : Launched desc rows n → 0 < count → count ≤ rows → Launched desc count n
  | packed {rows n : ℕ} : Launched desc rows (2 * n) → Launched desc rows n
  | inner {rows n1 n2 : ℕ} : Launched desc rows (n1 * n2) → Launched desc (rows * n1) n2
  | convolution {rows n m : ℕ} : Launched desc rows n → 0 < m → m < 2 ^ 31 → Launched desc rows m

theorem lengthBounds (built : planMany arguments = .ok desc) {length : Int64} (inside : length ∈ desc.n) :
    0 < length.toInt ∧ length.toInt < 2 ^ 31 := by
  obtain ⟨n, described⟩ := planManyDescribes built
  rw [described.n_] at inside
  obtain ⟨i, small, rfl⟩ := List.mem_map.mp inside
  rw [Int32.toInt_toInt64]
  exact ⟨described.positive i (List.mem_range.mp small), (n i).toInt_lt⟩

theorem launchedBounds (built : planMany arguments = .ok desc) {rows n : ℕ} (launched : Launched desc rows n) :
    0 < rows ∧ 0 < n ∧ n < 2 ^ 31 := by
  induction launched with
  | whole dims =>
    obtain ⟨positive, small⟩ := lengthBounds built (dims ▸ List.mem_singleton_self _)
    obtain ⟨_, described⟩ := planManyDescribes built
    have batched := described.batched
    rw [described.batch, Int32.toInt_toInt64]
    omega
  | axis inside _ nonempty =>
    obtain ⟨positive, small⟩ := lengthBounds built inside
    omega
  | chunk _ positive _ ih => exact ⟨positive, ih.2⟩
  | packed _ ih => omega
  | @inner rows n1 n2 _ ih =>
    obtain ⟨first, second⟩ := factorsPositive ih.2.1 rfl
    exact ⟨Nat.mul_pos ih.1 first, second, (Nat.le_mul_of_pos_left n2 first).trans_lt ih.2.2⟩
  | convolution _ positive small ih => exact ⟨ih.1, positive, small⟩

/- An accepted descriptor of rank one has its rows at one of the distances. -/
theorem supportedDistances (built : planMany arguments = .ok desc) (supported : isSupportedMinimalDesc desc = true)
    {n : Int64} (dims : desc.n = [n]) :
    desc.idist.toInt.toNat ∈ rowDistances n.toInt.toNat ∧ desc.odist.toInt.toNat ∈ rowDistances n.toInt.toNat := by
  have inside : n ∈ desc.n := dims ▸ List.mem_singleton_self n
  obtain ⟨positive, small⟩ := lengthBounds built inside
  have half : (n / 2 + 1).toInt = n.toInt / 2 + 1 := halfExact positive.le
  have two : (2 : Int64).toInt = 2 := rfl
  have padded : (2 * (n / 2 + 1)).toInt = 2 * (n.toInt / 2 + 1) := by
    rw [mulExact, two, half] <;> rw [two, half] <;> omega
  have listed : ∀ {distance : Int64}, distance = n ∨ distance = n / 2 + 1 ∨ distance = 2 * (n / 2 + 1) →
      distance.toInt.toNat ∈ rowDistances n.toInt.toNat := by
    intro distance known
    simp only [rowDistances, List.mem_cons, List.not_mem_nil, or_false]
    rcases known with rfl | rfl | rfl
    · exact Or.inl rfl
    · rw [half]
      omega
    · rw [padded]
      omega
  unfold isSupportedMinimalDesc at supported
  split at supported
  · cases supported
  · split at supported
    · cases supported
    · simp only [dims] at supported
      split at supported
      · cases supported
      · simp only [Bool.and_eq_true, Bool.or_eq_true, beq_iff_eq] at supported
        obtain ⟨⟨⟨⟨-, input⟩, output⟩, -⟩, -⟩ := supported
        refine ⟨listed ?_, listed ?_⟩
        · rcases input with same | ⟨-, same⟩
          · split at same <;> tauto
          · exact Or.inr (Or.inr same)
        · rcases output with same | ⟨-, same⟩
          · split at same <;> tauto
          · exact Or.inr (Or.inr same)

end Descriptors

section Examples

/- A complex transform of length 1024 over 2^21 rows: two buffers of 16 GiB. -/
def longBatch : PlanManyArguments :=
  { rank := 1, n := some fun _ => 1024, inembed := none, istride := 1, idist := 1024, onembed := none, ostride := 1
    odist := 1024, type := .c2c, batch := 2097152 }

def longBatchDesc : PlanDesc :=
  { rank := 1, n := [1024], inembed := [1024], istride := 1, idist := 1024, onembed := [1024], ostride := 1, odist := 1024
    batch := 2097152, type := .c2c, precision := .float32, realInput := false, realOutput := false }

theorem longBatchLaunched : Launched longBatchDesc 2097152 1024 :=
  @Launched.whole longBatchDesc 1024 rfl

end Examples

end FlagFft.Offsets
