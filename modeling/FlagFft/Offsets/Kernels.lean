import FlagFft.Offsets.Access
import Mathlib.Tactic.Ring

/-! The loads and stores of the leaf, layout and real-boundary kernels whose offsets are 32-bit words. Sizes are
literals of the generated source. -/
namespace FlagFft.Offsets
open Library.Words

theorem complexLiteral (row length column : ℕ) :
    (Int32.ofNat row * Int32.ofNat length + Int32.ofNat column) * 2 = Int32.ofNat (2 * (row * length + column)) := by
  rw [Nat.mul_comm 2, Int32.ofNat_mul, Int32.ofNat_add, Int32.ofNat_mul]
  rfl

theorem realLiteral (row length column : ℕ) :
    Int32.ofNat row * Int32.ofNat length + Int32.ofNat column = Int32.ofNat (1 * (row * length + column)) := by
  rw [Nat.one_mul, Int32.ofNat_add, Int32.ofNat_mul]

theorem gridLiteral (row length a inner b : ℕ) :
    (Int32.ofNat row * Int32.ofNat length + (Int32.ofNat a * Int32.ofNat inner + Int32.ofNat b)) * 2 =
      Int32.ofNat (2 * (row * length + (a * inner + b))) := by
  rw [← complexLiteral, Int32.ofNat_add (a * inner), Int32.ofNat_mul a]

theorem gridBelow {a b outer inner : ℕ} (first : a < outer) (second : b < inner) : a * inner + b < outer * inner := by
  have next := Nat.mul_le_mul_right inner (Nat.succ_le_of_lt first)
  rw [Nat.succ_mul] at next
  omega

section Leaf

/- batch_base + in, and batch_base + out_idx: rows of n complex elements. -/
def leafOffset (n : ℕ) : WordAccess where
  Coordinate := ℕ
  guarded := true
  scale := 2
  length := n
  last := n - 1
  mask index := index < n
  column index := index
  machine _ currentBatch index :=
    let batchBase := currentBatch * Int32.ofNat n
    (batchBase + Int32.ofNat index) * 2

theorem leafSound {n : ℕ} (positive : 0 < n) : (leafOffset n).Sound where
  bounded _ active := Nat.le_sub_one_of_lt active
  reached := ⟨n - 1, Nat.sub_lt positive Nat.one_pos, rfl⟩
  computes _ row index _ _ _ _ := complexLiteral row n index

/- The in-row index of a four-step kernel: `outer` steps of `inner`, in either order of the two factors. -/
def fourStepOffset (n1 n2 outer inner : ℕ) : WordAccess where
  Coordinate := ℕ × ℕ
  guarded := true
  scale := 2
  length := n1 * n2
  last := outer * inner - 1
  mask index := index.1 < outer ∧ index.2 < inner
  column index := index.1 * inner + index.2
  machine _ fourStepBatch index :=
    let fourStepBatchBase := fourStepBatch * Int32.ofNat (n1 * n2)
    (fourStepBatchBase + (Int32.ofNat index.1 * Int32.ofNat inner + Int32.ofNat index.2)) * 2

/- src_idx = in * n2 + four_step_inner -/
def fourStepRowLoad (n1 n2 : ℕ) : WordAccess := fourStepOffset n1 n2 n1 n2

/- dst_idx = four_step_inner * n1 + out_idx -/
def fourStepRowStore (n1 n2 : ℕ) : WordAccess := fourStepOffset n1 n2 n2 n1

/- src_idx = in * n1 + four_step_inner -/
def fourStepColLoad (n1 n2 : ℕ) : WordAccess := fourStepOffset n1 n2 n2 n1

/- dst_idx = out_idx * n1 + four_step_inner -/
def fourStepColStore (n1 n2 : ℕ) : WordAccess := fourStepOffset n1 n2 n2 n1

theorem fourStepSound {n1 n2 outer inner : ℕ} (first : 0 < outer) (second : 0 < inner) :
    (fourStepOffset n1 n2 outer inner).Sound where
  bounded index active := Nat.le_sub_one_of_lt (gridBelow active.1 active.2)
  reached := by
    refine ⟨(outer - 1, inner - 1), ⟨Nat.sub_lt first Nat.one_pos, Nat.sub_lt second Nat.one_pos⟩, ?_⟩
    have whole : (outer - 1) * inner + inner = outer * inner := by
      rw [← Nat.succ_mul, Nat.succ_eq_add_one, Nat.sub_add_cancel first]
    change (outer - 1) * inner + (inner - 1) = outer * inner - 1
    omega
  computes _ row index _ _ _ _ := gridLiteral row (n1 * n2) index.1 inner index.2

end Leaf

section Layout

/- The kernels of one (rows, columns) matrix per batch read it in order and write its transpose. The offset inside
the matrix is `pid_block * block + lane`. -/
def reshapePackLoad (n1 n2 : ℕ) : WordAccess where
  Coordinate := ℕ × ℕ
  guarded := false
  scale := 2
  length := n1 * n2
  last := n1 * n2 - 1
  mask program := program.1 * 256 + program.2 < n1 * n2
  column program := program.1 * 256 + program.2
  machine _ pidBatch program :=
    let offsets := Int32.ofNat program.1 * 256 + Int32.ofNat program.2
    (pidBatch * Int32.ofNat (n1 * n2) + offsets) * 2

def reshapePackStore (n1 n2 : ℕ) : WordAccess where
  Coordinate := ℕ × ℕ
  guarded := false
  scale := 2
  length := n1 * n2
  last := n1 * n2 - 1
  mask program := program.1 * 256 + program.2 < n1 * n2
  column program := (program.1 * 256 + program.2) % n2 * n1 + (program.1 * 256 + program.2) / n2
  machine _ pidBatch program :=
    let offsets := Int32.ofNat program.1 * 256 + Int32.ofNat program.2
    let r := offsets / Int32.ofNat n2
    let c := offsets - r * Int32.ofNat n2
    let dstOff := c * Int32.ofNat n1 + r
    (pidBatch * Int32.ofNat (n1 * n2) + dstOff) * 2

/- The twiddled pack moves the same elements. -/
def twiddleReshapePackLoad (n1 n2 : ℕ) : WordAccess := reshapePackLoad n1 n2

def twiddleReshapePackStore (n1 n2 : ℕ) : WordAccess := reshapePackStore n1 n2

theorem blockLiteral (block lane : ℕ) :
    Int32.ofNat block * 256 + Int32.ofNat lane = Int32.ofNat (block * 256 + lane) := by
  rw [Int32.ofNat_add, Int32.ofNat_mul]
  rfl

theorem reshapePackLoadSound {n1 n2 : ℕ} (nonempty : 0 < n1 * n2) : (reshapePackLoad n1 n2).Sound where
  bounded _ active := Nat.le_sub_one_of_lt active
  reached := by
    refine ⟨(0, n1 * n2 - 1), ?_, ?_⟩
    · change 0 * 256 + (n1 * n2 - 1) < n1 * n2
      omega
    · change 0 * 256 + (n1 * n2 - 1) = n1 * n2 - 1
      omega
  computes _ row program _ _ _ _ := gridLiteral row (n1 * n2) program.1 256 program.2

/- Element r * n2 + c of the matrix goes to c * n1 + r. -/
theorem transposedBelow {n1 n2 offset : ℕ} (inside : offset < n1 * n2) :
    offset % n2 * n1 + offset / n2 < n1 * n2 := by
  have positive : 0 < n2 := Nat.pos_of_mul_pos_left (Nat.zero_lt_of_lt inside)
  rw [Nat.mul_comm n1]
  exact gridBelow (Nat.mod_lt _ positive) (Nat.div_lt_of_lt_mul (by rwa [Nat.mul_comm]))

theorem transposeLiteral {n1 n2 offset : ℕ} (small : offset < 2 ^ 31) (factor : n2 < 2 ^ 31) :
    (Int32.ofNat offset - Int32.ofNat offset / Int32.ofNat n2 * Int32.ofNat n2) * Int32.ofNat n1 +
      Int32.ofNat offset / Int32.ofNat n2 = Int32.ofNat (offset % n2 * n1 + offset / n2) := by
  have rest : offset - offset / n2 * n2 = offset % n2 := by
    have whole := Nat.div_add_mod' offset n2
    omega
  rw [← Int32.ofNat_div small factor, ← Int32.ofNat_mul, ← Int32.ofNat_sub _ _ (Nat.div_mul_le_self offset n2), rest]
  rw [← Int32.ofNat_mul, ← Int32.ofNat_add]

theorem reshapePackStoreSound {n1 n2 : ℕ} (first : 0 < n1) (second : 0 < n2) : (reshapePackStore n1 n2).Sound where
  bounded _ active := Nat.le_sub_one_of_lt (transposedBelow active)
  reached := by
    have nonempty : 0 < n1 * n2 := Nat.mul_pos first second
    refine ⟨(0, n1 * n2 - 1), ?_, ?_⟩
    · change 0 * 256 + (n1 * n2 - 1) < n1 * n2
      omega
    · have split : n1 * n2 - 1 = (n2 - 1) + (n1 - 1) * n2 := by
        have whole : (n1 - 1) * n2 + n2 = n1 * n2 := by
          rw [← Nat.succ_mul, Nat.succ_eq_add_one, Nat.sub_add_cancel first]
        omega
      change (0 * 256 + (n1 * n2 - 1)) % n2 * n1 + (0 * 256 + (n1 * n2 - 1)) / n2 = n1 * n2 - 1
      rw [Nat.zero_mul, Nat.zero_add, split, Nat.add_mul_mod_self_right, Nat.add_mul_div_right _ _ second,
        Nat.mod_eq_of_lt (by omega), Nat.div_eq_of_lt (by omega)]
      have whole : (n2 - 1) * n1 + n1 = n2 * n1 := by
        rw [← Nat.succ_mul, Nat.succ_eq_add_one, Nat.sub_add_cancel second]
      rw [← split]
      rw [Nat.mul_comm n1]
      omega
  computes rows row program inside _ fits active := by
    change 2 * ((rows - 1) * (n1 * n2) + (n1 * n2 - 1)) < 2 ^ 31 at fits
    change program.1 * 256 + program.2 < n1 * n2 at active
    have factor : n2 ≤ n1 * n2 := Nat.le_mul_of_pos_left n2 first
    have moved := @transposeLiteral n1 n2 (program.1 * 256 + program.2) (by omega) (by omega)
    rw [← blockLiteral] at moved
    exact (congrArg (fun dstOff => (Int32.ofNat row * Int32.ofNat (n1 * n2) + dstOff) * 2) moved).trans
      (complexLiteral row (n1 * n2) _)

/- The tiled transpose of n0 x n1 matrices clamps its rows and columns; masked lanes alone are affected. `outer` and
`inner` are the two indices in the order the address has them. -/
def tiledTransposeOffset (n0 n1 outer inner : ℕ) : WordAccess where
  Coordinate := ℕ × ℕ
  guarded := false
  scale := 2
  length := n0 * n1
  last := outer * inner - 1
  mask index := index.1 < outer ∧ index.2 < inner
  column index := index.1 * inner + index.2
  machine _ pidBatch index :=
    let safeOuter := minimum (Int32.ofNat index.1) (Int32.ofNat (outer - 1))
    let safeInner := minimum (Int32.ofNat index.2) (Int32.ofNat (inner - 1))
    pidBatch * Int32.ofNat (n0 * n1 * 2) + (safeOuter * Int32.ofNat inner + safeInner) * 2

/- safe_row * n1 + safe_col -/
def tiledTransposeLoad (n0 n1 : ℕ) : WordAccess := tiledTransposeOffset n0 n1 n0 n1

/- safe_col * n0 + safe_row -/
def tiledTransposeStore (n0 n1 : ℕ) : WordAccess := tiledTransposeOffset n0 n1 n1 n0

theorem tiledTransposeSound {n0 n1 outer inner : ℕ} (first : 0 < outer) (second : 0 < inner) :
    (tiledTransposeOffset n0 n1 outer inner).Sound where
  bounded _ active := Nat.le_sub_one_of_lt (gridBelow active.1 active.2)
  reached := (@fourStepSound n0 n1 outer inner first second).reached
  computes rows row index _ _ fits active := by
    have row_ : outer ≤ outer * inner := Nat.le_mul_of_pos_right outer second
    have col_ : inner ≤ outer * inner := Nat.le_mul_of_pos_left inner first
    change 2 * ((rows - 1) * (n0 * n1) + (outer * inner - 1)) < 2 ^ 31 at fits
    have safeOuter := @minimumBelow index.1 (outer - 1) (Nat.le_sub_one_of_lt active.1) (by omega)
    have safeInner := @minimumBelow index.2 (inner - 1) (Nat.le_sub_one_of_lt active.2) (by omega)
    change Int32.ofNat row * Int32.ofNat (n0 * n1 * 2) + (minimum (Int32.ofNat index.1) (Int32.ofNat (outer - 1)) *
      Int32.ofNat inner + minimum (Int32.ofNat index.2) (Int32.ofNat (inner - 1))) * 2 =
        Int32.ofNat (2 * (row * (n0 * n1) + (index.1 * inner + index.2)))
    rw [safeOuter, safeInner, complexLiteral, ← Int32.ofNat_mul, ← Int32.ofNat_add]
    congr 1
    ring

/- The axis orders of the three-dimensional transposes. -/
inductive AxisOrder where
  | order021
  | order210
  | order201
  | order120
  deriving DecidableEq

structure TransposeDesc where
  numSlices : ℕ
  rows : ℕ
  cols : ℕ
  srcSliceStride : ℕ
  srcColStride : ℕ
  dstSliceStride : ℕ
  dstRowStride : ℕ

def transposeDescs (s0 s1 s2 : ℕ) : AxisOrder → TransposeDesc
  | .order021 => ⟨s0, s2, s1, s1 * s2, s2, s2 * s1, s1⟩
  | .order210 => ⟨s1, s2, s0, s2, s1 * s2, s0, s1 * s0⟩
  | .order201 => ⟨s0, s2, s1, s1 * s2, s2, s1, s0 * s1⟩
  | .order120 => ⟨s1, s2, s0, s2, s1 * s2, s2 * s0, s0⟩

/- The position a slice, a strided index and an index of stride one stand for. -/
def cubePosition (sliceStride stride slice strided unit : ℕ) : ℕ := slice * sliceStride + strided * stride + unit

def cubeOffset (total slices stridedExtent unitExtent sliceStride stride : ℕ) : WordAccess where
  Coordinate := ℕ × ℕ × ℕ
  guarded := false
  scale := 2
  length := total
  last := total - 1
  mask index := index.1 < slices ∧ index.2.1 < stridedExtent ∧ index.2.2 < unitExtent
  column index := cubePosition sliceStride stride index.1 index.2.1 index.2.2
  machine _ pidBatch index :=
    let safeStrided := minimum (Int32.ofNat index.2.1) (Int32.ofNat (stridedExtent - 1))
    let safeUnit := minimum (Int32.ofNat index.2.2) (Int32.ofNat (unitExtent - 1))
    pidBatch * Int32.ofNat (total * 2) + Int32.ofNat index.1 * Int32.ofNat sliceStride * 2 +
      safeStrided * Int32.ofNat stride * 2 + safeUnit * 2

/- src_base: columns strided, rows of stride one. -/
def tiledTranspose3dLoad (s0 s1 s2 : ℕ) (order : AxisOrder) : WordAccess :=
  let desc := transposeDescs s0 s1 s2 order
  cubeOffset (s0 * s1 * s2) desc.numSlices desc.cols desc.rows desc.srcSliceStride desc.srcColStride

/- dst_base: rows strided, columns of stride one. -/
def tiledTranspose3dStore (s0 s1 s2 : ℕ) (order : AxisOrder) : WordAccess :=
  let desc := transposeDescs s0 s1 s2 order
  cubeOffset (s0 * s1 * s2) desc.numSlices desc.rows desc.cols desc.dstSliceStride desc.dstRowStride

/- A cube address is row-major in one of two orders of its slices and its strided index. -/
inductive CubeStrides (total slices strided unit : ℕ) : ℕ → ℕ → Prop where
  | slicesOutside : slices * (strided * unit) = total → CubeStrides total slices strided unit (strided * unit) unit
  | slicesInside : strided * (slices * unit) = total → CubeStrides total slices strided unit unit (slices * unit)

theorem cubeSound {total slices strided unit sliceStride stride : ℕ} (some_ : 0 < slices) (more : 0 < strided)
    (units : 0 < unit) (strides : CubeStrides total slices strided unit sliceStride stride) :
    (cubeOffset total slices strided unit sliceStride stride).Sound where
  bounded index active := by
    obtain ⟨slice, along, inside⟩ := active
    apply Nat.le_sub_one_of_lt
    change index.1 * sliceStride + index.2.1 * stride + index.2.2 < total
    cases strides with
    | slicesOutside whole =>
      rw [← whole, Nat.add_assoc]
      exact gridBelow slice (gridBelow along inside)
    | slicesInside whole =>
      rw [← whole, Nat.add_comm (index.1 * unit), Nat.add_assoc]
      exact gridBelow along (gridBelow slice inside)
  reached := by
    refine ⟨(slices - 1, strided - 1, unit - 1), ⟨Nat.sub_lt some_ Nat.one_pos, Nat.sub_lt more Nat.one_pos,
      Nat.sub_lt units Nat.one_pos⟩, ?_⟩
    change (slices - 1) * sliceStride + (strided - 1) * stride + (unit - 1) = total - 1
    cases strides with
    | slicesOutside whole =>
      have outer := Nat.sub_one_mul slices (strided * unit)
      have inner := Nat.sub_one_mul strided unit
      have least := Nat.le_mul_of_pos_left (strided * unit) some_
      have rest := Nat.le_mul_of_pos_left unit more
      omega
    | slicesInside whole =>
      have outer := Nat.sub_one_mul strided (slices * unit)
      have inner := Nat.sub_one_mul slices unit
      have least := Nat.le_mul_of_pos_left (slices * unit) more
      have rest := Nat.le_mul_of_pos_left unit some_
      omega
  computes rows row index _ _ fits active := by
    obtain ⟨slice, along, inside⟩ := active
    have extents : strided ≤ total ∧ unit ≤ total := by
      cases strides with
      | slicesOutside whole =>
        have first := Nat.le_mul_of_pos_left (strided * unit) some_
        exact ⟨by have := Nat.le_mul_of_pos_right strided units; omega, by have := Nat.le_mul_of_pos_left unit more; omega⟩
      | slicesInside whole =>
        have first := Nat.le_mul_of_pos_left (slices * unit) more
        exact ⟨by have := Nat.le_mul_of_pos_right strided (Nat.mul_pos some_ units); omega,
          by have := Nat.le_mul_of_pos_left unit some_; omega⟩
    change 2 * ((rows - 1) * total + (total - 1)) < 2 ^ 31 at fits
    have safeStrided := @minimumBelow index.2.1 (strided - 1) (Nat.le_sub_one_of_lt along) (by omega)
    have safeUnit := @minimumBelow index.2.2 (unit - 1) (Nat.le_sub_one_of_lt inside) (by omega)
    change Int32.ofNat row * Int32.ofNat (total * 2) + Int32.ofNat index.1 * Int32.ofNat sliceStride * 2 +
      minimum (Int32.ofNat index.2.1) (Int32.ofNat (strided - 1)) * Int32.ofNat stride * 2 +
        minimum (Int32.ofNat index.2.2) (Int32.ofNat (unit - 1)) * 2 =
          Int32.ofNat (2 * (row * total + (index.1 * sliceStride + index.2.1 * stride + index.2.2)))
    have two : (2 : Int32) = Int32.ofNat 2 := rfl
    rw [safeStrided, safeUnit, two]
    simp only [← Int32.ofNat_mul, ← Int32.ofNat_add]
    congr 1
    ring

theorem loadStrides (s0 s1 s2 : ℕ) (order : AxisOrder) :
    let desc := transposeDescs s0 s1 s2 order
    CubeStrides (s0 * s1 * s2) desc.numSlices desc.cols desc.rows desc.srcSliceStride desc.srcColStride := by
  cases order with
  | order021 => exact .slicesOutside (by simp only [transposeDescs]; ring)
  | order210 => exact .slicesInside (by simp only [transposeDescs]; ring)
  | order201 => exact .slicesOutside (by simp only [transposeDescs]; ring)
  | order120 => exact .slicesInside (by simp only [transposeDescs]; ring)

theorem storeStrides (s0 s1 s2 : ℕ) (order : AxisOrder) :
    let desc := transposeDescs s0 s1 s2 order
    CubeStrides (s0 * s1 * s2) desc.numSlices desc.rows desc.cols desc.dstSliceStride desc.dstRowStride := by
  cases order with
  | order021 => exact .slicesOutside (by simp only [transposeDescs]; ring)
  | order210 => exact .slicesInside (by simp only [transposeDescs]; ring)
  | order201 => exact .slicesInside (by simp only [transposeDescs]; ring)
  | order120 => exact .slicesOutside (by simp only [transposeDescs]; ring)

end Layout

section RealBoundary

/- safe_rows: the rows of one program, clamped to the batch. -/
def safeRows (nbatch row : Int32) : Int32 := minimum row (nbatch - 1)

theorem safeRowsLiteral {rows row : ℕ} (inside : row < rows) (small : rows < 2 ^ 31) :
    safeRows (Int32.ofNat rows) (Int32.ofNat row) = Int32.ofNat row := by
  have before : Int32.ofNat rows - 1 = Int32.ofNat (rows - 1) := by
    rw [Int32.ofNat_sub _ _ (Nat.one_le_of_lt inside)]
    rfl
  unfold safeRows
  rw [before]
  exact minimumBelow (Nat.le_sub_one_of_lt inside) (by omega)

/- A row-tiled kernel: program `pid_block` takes `block_cols` columns, clamped to the `width` it works on; `position`
and `word` say which element of the row a column stands for. -/
def rowTileOffset (length width last blockCols : ℕ) (position : ℕ → ℕ) (word : Int32 → Int32) : WordAccess where
  Coordinate := ℕ × ℕ
  guarded := true
  scale := 2
  length := length
  last := last
  mask program := program.1 * blockCols + program.2 < width
  column program := position (program.1 * blockCols + program.2)
  machine nbatch rowOffsets program :=
    let colOffsets := Int32.ofNat program.1 * Int32.ofNat blockCols + Int32.ofNat program.2
    let safeCols := minimum colOffsets (Int32.ofNat (width - 1))
    (safeRows nbatch rowOffsets * Int32.ofNat length + word safeCols) * 2

/- dst of real_to_complex -/
def realToComplexStore (n blockCols : ℕ) : WordAccess := rowTileOffset n n (n - 1) blockCols id id

/- src of r2c_half_pack: half of a full row -/
def r2cHalfPackLoad (n blockCols : ℕ) : WordAccess := rowTileOffset n (n / 2 + 1) (n / 2) blockCols id id

/- a_k = k % packed -/
def r2cPackedPostprocessLoad (packed blockCols : ℕ) : WordAccess :=
  rowTileOffset packed (packed + 1) (packed - 1) blockCols (fun k => k % packed) (fun k => k % Int32.ofNat packed)

/- b_k = (packed - k) % packed -/
def r2cPackedPostprocessMirror (packed blockCols : ℕ) : WordAccess :=
  rowTileOffset packed (packed + 1) (packed - 1) blockCols (fun k => (packed - k) % packed)
    (fun k => (Int32.ofNat packed - k) % Int32.ofNat packed)

/- dst of c2r_packed_preprocess -/
def c2rPackedPreprocessStore (packed blockCols : ℕ) : WordAccess := rowTileOffset packed packed (packed - 1) blockCols id id

/- dst of compact_to_hermitian_full -/
def compactToHermitianFullStore (n blockCols : ℕ) : WordAccess := rowTileOffset n n (n - 1) blockCols id id

/- src of complex_to_real -/
def complexToRealLoad (n blockCols : ℕ) : WordAccess := rowTileOffset n n (n - 1) blockCols id id

structure TileColumns (width last : ℕ) (position : ℕ → ℕ) (word : Int32 → Int32) : Prop where
  bounded : ∀ column < width, position column ≤ last
  reached : ∃ column < width, position column = last
  computes : width < 2 ^ 31 → ∀ column < width, word (Int32.ofNat column) = Int32.ofNat (position column)

theorem rowTileSound {length width last blockCols : ℕ} {position : ℕ → ℕ} {word : Int32 → Int32}
    (columns : TileColumns width last position word) (wide : width ≤ last + 2) :
    (rowTileOffset length width last blockCols position word).Sound where
  bounded program active := columns.bounded _ active
  reached := by
    obtain ⟨column, active, found⟩ := columns.reached
    refine ⟨(0, column), ?_, ?_⟩
    · change 0 * blockCols + column < width
      rwa [Nat.zero_mul, Nat.zero_add]
    · change position (0 * blockCols + column) = last
      rwa [Nat.zero_mul, Nat.zero_add]
  computes rows row program inside guards fits active := by
    change 2 * ((rows - 1) * length + last) < 2 ^ 31 at fits
    change program.1 * blockCols + program.2 < width at active
    change (safeRows (Int32.ofNat rows) (Int32.ofNat row) * Int32.ofNat length +
      word (minimum (Int32.ofNat program.1 * Int32.ofNat blockCols + Int32.ofNat program.2) (Int32.ofNat (width - 1)))) * 2 =
        Int32.ofNat (2 * (row * length + position (program.1 * blockCols + program.2)))
    rw [← Int32.ofNat_mul, ← Int32.ofNat_add, minimumBelow (Nat.le_sub_one_of_lt active) (by omega),
      safeRowsLiteral inside (guards rfl), columns.computes (by omega) _ active, complexLiteral]

theorem plainColumns {width : ℕ} (positive : 0 < width) : TileColumns width (width - 1) id id where
  bounded _ active := Nat.le_sub_one_of_lt active
  reached := ⟨width - 1, Nat.sub_lt positive Nat.one_pos, rfl⟩
  computes _ _ _ := rfl

theorem wrappedColumns {packed : ℕ} (positive : 0 < packed) :
    TileColumns (packed + 1) (packed - 1) (fun k => k % packed) (fun k => k % Int32.ofNat packed) where
  bounded column _ := Nat.le_sub_one_of_lt (Nat.mod_lt column positive)
  reached := ⟨packed - 1, by omega, Nat.mod_eq_of_lt (Nat.sub_lt positive Nat.one_pos)⟩
  computes small column active := (Int32.ofNat_mod (by omega) (by omega)).symm

theorem mirroredColumns {packed : ℕ} (positive : 0 < packed) :
    TileColumns (packed + 1) (packed - 1) (fun k => (packed - k) % packed)
      (fun k => (Int32.ofNat packed - k) % Int32.ofNat packed) where
  bounded column _ := Nat.le_sub_one_of_lt (Nat.mod_lt (packed - column) positive)
  reached := by
    cases Nat.eq_or_lt_of_le positive with
    | inl one => exact ⟨0, by omega, by subst one; rfl⟩
    | inr more =>
      refine ⟨1, by omega, Nat.mod_eq_of_lt ?_⟩
      exact Nat.sub_lt positive Nat.one_pos
  computes small column active := by
    rw [← Int32.ofNat_sub _ _ (Nat.le_of_lt_succ active), Int32.ofNat_mod (by omega) (by omega)]

/- The direct transform of real rows works on one batch at a time: `scale` is two where the row is complex. -/
def realDirectOffset (scale length width last : ℕ) (position : ℕ → ℕ) (word : Int32 → Int32) : WordAccess where
  Coordinate := ℕ
  guarded := true
  scale := scale
  length := length
  last := last
  mask j := j < width
  column j := position j
  machine _ pidBatch j :=
    (pidBatch * Int32.ofNat length + word (Int32.ofNat j)) * Int32.ofNat scale

def directDftR2cLoad (n : ℕ) : WordAccess := realDirectOffset 1 n n (n - 1) id id

def directDftR2cStore (n : ℕ) : WordAccess := realDirectOffset 2 (n / 2 + 1) (n / 2 + 1) (n / 2) id id

/- source_j mirrors the upper half of the spectrum. -/
def directDftC2rLoad (n : ℕ) : WordAccess :=
  realDirectOffset 2 (n / 2 + 1) n (n / 2) (fun j => if j < n / 2 + 1 then j else n - j)
    (fun j => if j < Int32.ofNat (n / 2 + 1) then j else Int32.ofNat n - j)

def directDftC2rStore (n : ℕ) : WordAccess := realDirectOffset 1 n n (n - 1) id id

/- Its builder refuses lengths above 128, so the width is a word. -/
theorem realDirectSound {scale length width last : ℕ} {position : ℕ → ℕ} {word : Int32 → Int32}
    (columns : TileColumns width last position word) (small : width < 2 ^ 31) :
    (realDirectOffset scale length width last position word).Sound where
  bounded j active := columns.bounded j active
  reached := columns.reached
  computes _ row j _ _ _ active := by
    change (Int32.ofNat row * Int32.ofNat length + word (Int32.ofNat j)) * Int32.ofNat scale =
      Int32.ofNat (scale * (row * length + position j))
    rw [columns.computes small j active, Nat.mul_comm scale, Int32.ofNat_mul, Int32.ofNat_add, Int32.ofNat_mul]

theorem hermitianColumns {n : ℕ} (positive : 0 < n) :
    TileColumns n (n / 2) (fun j => if j < n / 2 + 1 then j else n - j)
      (fun j => if j < Int32.ofNat (n / 2 + 1) then j else Int32.ofNat n - j) where
  bounded j active := by
    split <;> omega
  reached := ⟨n / 2, Nat.div_lt_self positive Nat.one_lt_two, if_pos (Nat.lt_succ_self _)⟩
  computes small j active := by
    simp only [Int32.ofNat_lt_iff_lt (show j < 2 ^ 31 by omega) (show n / 2 + 1 < 2 ^ 31 by omega)]
    split
    · rfl
    · exact (Int32.ofNat_sub _ _ active.le).symm

end RealBoundary

end FlagFft.Offsets
