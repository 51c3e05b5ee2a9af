import FlagFft.Layout.Lanes
import FlagFft.ThreeDim.Stores

/-! The generated permutations of three axes. The builders see an order of the axes as slices of rows and columns, and
differ in how they cut them into tiles, group the tiles into programs and treat what lies outside. -/
namespace FlagFft.Layout
open Library.Indexing Library.Stores ThreeDim

inductive Dtype
  | complex64
  | complex128
  deriving DecidableEq, Repr

/- What a builder raises instead of a kernel. -/
inductive BuildError
  | valueError (message : String)
  | zeroDivision
  deriving DecidableEq, Repr

structure TransposeDesc where
  numSlices : ℕ
  rows : ℕ
  cols : ℕ
  srcSliceStride : ℕ
  srcColStride : ℕ
  dstSliceStride : ℕ
  dstRowStride : ℕ
  deriving DecidableEq, Repr

def transposeDescs (s0 s1 s2 : ℕ) : AxisOrder → TransposeDesc
  | .a021 => ⟨s0, s2, s1, s1 * s2, s2, s2 * s1, s1⟩
  | .a210 => ⟨s1, s2, s0, s2, s1 * s2, s0, s1 * s0⟩
  | .a201 => ⟨s0, s2, s1, s1 * s2, s2, s1, s0 * s1⟩
  | .a120 => ⟨s1, s2, s0, s2, s1 * s2, s2 * s0, s0⟩

section Tile
variable (desc : TransposeDesc) (totalComplex scalarWidth pidBatch : ℕ)

def TransposeDesc.srcBase (slice row col : ℕ) : ℕ :=
  pidBatch * (totalComplex * scalarWidth) + slice * desc.srcSliceStride * scalarWidth +
    col * desc.srcColStride * scalarWidth + row * scalarWidth

def TransposeDesc.dstBase (slice row col : ℕ) : ℕ :=
  pidBatch * (totalComplex * scalarWidth) + slice * desc.dstSliceStride * scalarWidth +
    row * desc.dstRowStride * scalarWidth + col * scalarWidth

/- The lanes of a register tile, one row after the other. -/
def tileLanes (rows cols : ℕ) (lane : ℕ → ℕ → Lane) : List Lane :=
  (List.range rows).flatMap fun row => (List.range cols).map (lane row)

/- One tile, loaded from one slice and stored to one; offsets outside are clamped to the last row and column. -/
def tilePass (tileRows tileCols loadSlice storeSlice tileRow tileCol : ℕ) (mask : ℕ → ℕ → Bool) : List Lane :=
  tileLanes tileRows tileCols fun r c =>
    let rowOffset := tileRow * tileRows + r
    let colOffset := tileCol * tileCols + c
    let safeRow := min rowOffset (desc.rows - 1)
    let safeCol := min colOffset (desc.cols - 1)
    ⟨mask rowOffset colOffset, desc.srcBase totalComplex scalarWidth pidBatch loadSlice safeRow safeCol,
      mask rowOffset colOffset, desc.dstBase totalComplex scalarWidth pidBatch storeSlice safeRow safeCol⟩

def TransposeDesc.inside (row col : ℕ) : Bool := decide (row < desc.rows) && decide (col < desc.cols)

end Tile

/- Which tile of a slice a program takes. -/
inductive Traversal
  | col
  | row
  deriving DecidableEq, Repr

def Traversal.tileRow (traversal : Traversal) (numTileRows numTileCols tileInSlice : ℕ) : ℕ :=
  match traversal with
  | .row => tileInSlice % numTileRows
  | .col => tileInSlice / numTileCols

def Traversal.tileCol (traversal : Traversal) (numTileRows numTileCols tileInSlice : ℕ) : ℕ :=
  match traversal with
  | .row => tileInSlice / numTileRows
  | .col => tileInSlice % numTileCols

section Families
variable (desc : TransposeDesc) (totalComplex : ℕ) (access : Access) (traversal : Traversal)

/- A program for each tile of each slice. -/
def tileKernel (tileRows tileCols : ℕ) (mask : ℕ → ℕ → Bool) : TransposeKernel :=
  let numTileCols := ceilDiv desc.cols tileCols
  let numTileRows := ceilDiv desc.rows tileRows
  let tilesPerSlice := numTileCols * numTileRows
  { access := access
    gridXOverride := desc.numSlices * tilesPerSlice
    passes := fun _ pidBlock _ pidBatch =>
      let sliceIdx := pidBlock / tilesPerSlice
      let tileInSlice := pidBlock % tilesPerSlice
      [tilePass desc totalComplex access.scalarWidth pidBatch tileRows tileCols sliceIdx sliceIdx
        (traversal.tileRow numTileRows numTileCols tileInSlice) (traversal.tileCol numTileRows numTileCols tileInSlice) mask] }

/- A program for each tile of a group of slices, the slices one after the other. -/
def sliceGroupKernel (tile sliceGroup : ℕ) : TransposeKernel :=
  let tileCols := ceilDiv desc.cols tile
  let tileRows := ceilDiv desc.rows tile
  let tilesPerSlice := tileCols * tileRows
  { access := access
    gridXOverride := ceilDiv desc.numSlices sliceGroup * tilesPerSlice
    passes := fun _ pidBlock _ pidBatch =>
      let sliceGroupIdx := pidBlock / tilesPerSlice
      let tileInSlice := pidBlock % tilesPerSlice
      (List.range sliceGroup).map fun groupOffset =>
        let sliceIdx := sliceGroupIdx * sliceGroup + groupOffset
        let safeSlice := min sliceIdx (desc.numSlices - 1)
        tilePass desc totalComplex access.scalarWidth pidBatch tile tile sliceIdx safeSlice
          (traversal.tileRow tileRows tileCols tileInSlice) (traversal.tileCol tileRows tileCols tileInSlice)
          fun row col => decide (sliceIdx < desc.numSlices) && desc.inside row col }

/- The same for a group of tiles below each other. -/
def sliceRowGroupKernel (tile sliceGroup rowGroup : ℕ) : TransposeKernel :=
  let tileCols := ceilDiv desc.cols tile
  let tileRows := ceilDiv desc.rows tile
  let rowGroups := ceilDiv tileRows rowGroup
  let tilesPerSlice := tileCols * rowGroups
  { access := access
    gridXOverride := ceilDiv desc.numSlices sliceGroup * tilesPerSlice
    passes := fun _ pidBlock _ pidBatch =>
      let sliceGroupIdx := pidBlock / tilesPerSlice
      let tileInSlice := pidBlock % tilesPerSlice
      let tileRowGroup := traversal.tileRow rowGroups tileCols tileInSlice
      let tileCol := traversal.tileCol rowGroups tileCols tileInSlice
      (List.range sliceGroup).flatMap fun sliceGroupOffset =>
        let sliceIdx := sliceGroupIdx * sliceGroup + sliceGroupOffset
        let safeSlice := min sliceIdx (desc.numSlices - 1)
        (List.range rowGroup).map fun rowGroupOffset =>
          tilePass desc totalComplex access.scalarWidth pidBatch tile tile sliceIdx safeSlice
            (tileRowGroup * rowGroup + rowGroupOffset) tileCol
            fun row col => decide (sliceIdx < desc.numSlices) && desc.inside row col }

end Families

section Builders
variable (s0 s1 s2 : ℕ) (order : AxisOrder) (dtype : Dtype)

/- No masks: a lane outside repeats the last row or column. -/
def buildTiledTranspose3dV2 (tile : ℕ) : Except BuildError TransposeKernel :=
  if dtype ≠ .complex64 then .error (.valueError "v2 transpose requires complex64")
  else if tile = 0 then .error .zeroDivision
  else .ok (tileKernel (transposeDescs s0 s1 s2 order) (s0 * s1 * s2) .pair .col tile tile fun _ _ => true)

inductive TileParam
  | square (tile : ℕ)
  | shape (tileRows tileCols : ℕ)
  deriving DecidableEq, Repr

def buildTiledTranspose3dTile (tile : TileParam) (packedComplex pairStore pair vecStore : Bool) (traversal : Traversal) :
    Except BuildError TransposeKernel :=
  let desc := transposeDescs s0 s1 s2 order
  let access : Access := if packedComplex then .word else if pair then .word else if pairStore || vecStore then .pair else .scalars
  let kernel := fun tileRows tileCols => tileKernel desc (s0 * s1 * s2) access traversal tileRows tileCols desc.inside
  if packedComplex = true ∧ dtype ≠ .complex64 then .error (.valueError "packed 3D transpose requires complex64")
  else if pair = true ∧ dtype ≠ .complex64 then .error (.valueError "paired tiled 3D transpose requires complex64")
  else if vecStore = true ∧ dtype ≠ .complex128 then
    .error (.valueError "vector-store tiled 3D transpose requires complex128")
  else
    match tile with
    | .square tile => if tile = 0 then .error .zeroDivision else .ok (kernel tile tile)
    | .shape tileRows tileCols =>
      if tileRows = 0 ∨ tileCols = 0 then .error (.valueError "transpose tile dimensions must be positive")
      else .ok (kernel tileRows tileCols)

def buildTiledTranspose3dSliceGroup (tile sliceGroup : ℕ) : Except BuildError TransposeKernel :=
  if dtype ≠ .complex64 then .error (.valueError "sequential slice grouping currently supports complex64 only")
  else if sliceGroup < 2 ∨ sliceGroup &&& (sliceGroup - 1) ≠ 0 then
    .error (.valueError "slice_group must be a power of two greater than one")
  else if tile = 0 then .error .zeroDivision
  else .ok (sliceGroupKernel (transposeDescs s0 s1 s2 order) (s0 * s1 * s2) .scalars .col tile sliceGroup)

def buildTiledTranspose3dPairSliceGroup (tile sliceGroup : ℕ) (traversal : Traversal) : Except BuildError TransposeKernel :=
  if sliceGroup < 2 ∨ sliceGroup &&& (sliceGroup - 1) ≠ 0 then
    .error (.valueError "slice_group must be a power of two greater than one")
  else if tile = 0 then .error .zeroDivision
  else .ok (sliceGroupKernel (transposeDescs s0 s1 s2 order) (s0 * s1 * s2) .word traversal tile sliceGroup)

def buildTiledTranspose3dPairSliceRowGroup (tile sliceGroup rowGroup : ℕ) (traversal : Traversal) :
    Except BuildError TransposeKernel :=
  if sliceGroup < 1 ∨ sliceGroup &&& (sliceGroup - 1) ≠ 0 then
    .error (.valueError "slice_group must be a positive power of two")
  else if rowGroup < 1 ∨ rowGroup &&& (rowGroup - 1) ≠ 0 then
    .error (.valueError "row_group must be a positive power of two")
  else if tile = 0 then .error .zeroDivision
  else .ok (sliceRowGroupKernel (transposeDescs s0 s1 s2 order) (s0 * s1 * s2) .word traversal tile sliceGroup rowGroup)

def cubeDims : AxisOrder → ℕ × ℕ × ℕ
  | .a021 => (s0, s2, s1)
  | .a210 => (s2, s1, s0)
  | .a201 => (s2, s0, s1)
  | .a120 => (s1, s2, s0)

def srcCoords (x0 x1 x2 : ℕ) : AxisOrder → ℕ × ℕ × ℕ
  | .a021 => (x0, x2, x1)
  | .a210 => (x2, x1, x0)
  | .a201 => (x1, x2, x0)
  | .a120 => (x2, x0, x1)

/- A contiguous block of the result for each program, every element looked up in the source. -/
def buildTiledTranspose3d (block : ℕ) : TransposeKernel :=
  let (_, d1, d2) := cubeDims s0 s1 s2 order
  let totalComplex := s0 * s1 * s2
  { access := .scalars
    gridXOverride := 0
    passes := fun _ pidBlock _ pidBatch =>
      [(List.range block).map fun i =>
        let offset := pidBlock * block + i
        let safe := min offset (totalComplex - 1)
        let rem := safe % (d1 * d2)
        let (y0, y1, y2) := srcCoords (safe / (d1 * d2)) (rem / d2) (rem % d2) order
        ⟨decide (offset < totalComplex), pidBatch * (totalComplex * 2) + (y0 * (s1 * s2) + y1 * s2 + y2) * 2,
          decide (offset < totalComplex), pidBatch * (totalComplex * 2) + offset * 2⟩] }

end Builders

/- The kernels the emitter chooses from, with the parameters it may give them. -/
inductive Variant3d
  | plain
  | v2 (tile : ℕ)
  | registerTile (tile : TileParam) (packedComplex pairStore pair vecStore : Bool) (traversal : Traversal)
  | sliceGroupTile (tile sliceGroup : ℕ)
  | pairSliceGroupTile (tile sliceGroup : ℕ) (traversal : Traversal)
  | pairSliceRowGroupTile (tile sliceGroup rowGroup : ℕ) (traversal : Traversal)
  deriving DecidableEq, Repr

def Variant3d.build (variant : Variant3d) (s0 s1 s2 : ℕ) (order : AxisOrder) (dtype : Dtype) : Except BuildError TransposeKernel :=
  match variant with
  | .plain => .ok (buildTiledTranspose3d s0 s1 s2 order perm3dBlock)
  | .v2 tile => buildTiledTranspose3dV2 s0 s1 s2 order dtype tile
  | .registerTile tile packedComplex pairStore pair vecStore traversal =>
    buildTiledTranspose3dTile s0 s1 s2 order dtype tile packedComplex pairStore pair vecStore traversal
  | .sliceGroupTile tile sliceGroup => buildTiledTranspose3dSliceGroup s0 s1 s2 order dtype tile sliceGroup
  | .pairSliceGroupTile tile sliceGroup traversal => buildTiledTranspose3dPairSliceGroup s0 s1 s2 order tile sliceGroup traversal
  | .pairSliceRowGroupTile tile sliceGroup rowGroup traversal =>
    buildTiledTranspose3dPairSliceRowGroup s0 s1 s2 order tile sliceGroup rowGroup traversal

/- The grid a launch of `elementsPerBatch` elements a block has, and the kernel as the executor holds it. -/
def TransposeKernel.gridX (kernel : TransposeKernel) (elementsPerBatch : ℕ) : ℕ :=
  if 0 < kernel.gridXOverride then kernel.gridXOverride else ceilDiv elementsPerBatch perm3dBlock

def TransposeKernel.compiled {S : Type*} (kernel : TransposeKernel) (zero : S) (schedule : Schedule) (elementsPerBatch : ℕ) :
    Perm3dKernel S :=
  ⟨kernel.gridXOverride, fun input output count =>
    kernel.launch zero input output schedule (kernel.gridX elementsPerBatch) 1 count count⟩

section Tiles
variable {desc : TransposeDesc} {totalComplex scalarWidth pidBatch : ℕ}

theorem memTileLanes {rows cols : ℕ} {lane : ℕ → ℕ → Lane} {l : Lane} :
    l ∈ tileLanes rows cols lane ↔ ∃ row < rows, ∃ col < cols, lane row col = l := by
  simp only [tileLanes, List.mem_flatMap, List.mem_map, List.mem_range]

theorem ceilDivOf {value divisor index : ℕ} (positive : 0 < divisor) (inside : index < value) :
    index / divisor < ceilDiv value divisor := (ltCeilDiv positive).mpr ((Nat.div_mul_le_self _ _).trans_lt inside)

theorem ceilDivPositive {value divisor index : ℕ} (inside : index < ceilDiv value divisor) : 0 < divisor ∧ 0 < value := by
  unfold ceilDiv at inside
  rcases Nat.eq_zero_or_pos divisor with rfl | positive
  · simp at inside
  · refine ⟨positive, Nat.pos_of_ne_zero fun none => ?_⟩
    rw [none, Nat.div_eq_of_lt (by omega)] at inside
    exact absurd inside (Nat.not_lt_zero _)

/- Every tile of a slice has its place in the traversal. -/
theorem Traversal.tileOf (traversal : Traversal) {numTileRows numTileCols tileRow tileCol : ℕ} (row : tileRow < numTileRows)
    (col : tileCol < numTileCols) : ∃ tile < numTileCols * numTileRows,
      traversal.tileRow numTileRows numTileCols tile = tileRow ∧ traversal.tileCol numTileRows numTileCols tile = tileCol := by
  cases traversal with
  | col => exact ⟨tileRow * numTileCols + tileCol, (mulAddLt row col).trans_eq (Nat.mul_comm _ _), mulAddDiv col, mulAddMod col⟩
  | row => exact ⟨tileCol * numTileRows + tileRow, mulAddLt col row, mulAddMod row, mulAddDiv row⟩

/- A pass that stores moves an element of its slice to where the slice has it. -/
theorem tilePassRight {tileRows tileCols loadSlice storeSlice tileRow tileCol : ℕ} {mask : ℕ → ℕ → Bool}
    (rows : 0 < desc.rows) (cols : 0 < desc.cols) {lane : Lane}
    (member : lane ∈ tilePass desc totalComplex scalarWidth pidBatch tileRows tileCols loadSlice storeSlice tileRow tileCol mask)
    (active : lane.storeMask = true) :
    (∃ row col, mask row col = true) ∧ lane.loadMask = true ∧ ∃ row < desc.rows, ∃ col < desc.cols,
      lane.target = desc.dstBase totalComplex scalarWidth pidBatch storeSlice row col ∧
      lane.source = desc.srcBase totalComplex scalarWidth pidBatch loadSlice row col := by
  obtain ⟨r, _, c, _, rfl⟩ := memTileLanes.mp member
  exact ⟨⟨_, _, active⟩, active, _, (min_le_right _ _).trans_lt (Nat.sub_lt rows Nat.one_pos), _,
    (min_le_right _ _).trans_lt (Nat.sub_lt cols Nat.one_pos), rfl, rfl⟩

/- And it moves every element of its tile. -/
theorem tilePassAll {tileRows tileCols loadSlice storeSlice row col : ℕ} {mask : ℕ → ℕ → Bool} (tallTile : 0 < tileRows)
    (wideTile : 0 < tileCols) (rowInside : row < desc.rows) (colInside : col < desc.cols) (active : mask row col = true) :
    ∃ lane ∈ tilePass desc totalComplex scalarWidth pidBatch tileRows tileCols loadSlice storeSlice (row / tileRows)
        (col / tileCols) mask,
      lane.storeMask = true ∧ lane.target = desc.dstBase totalComplex scalarWidth pidBatch storeSlice row col := by
  have rowOffset : row / tileRows * tileRows + row % tileRows = row := Nat.div_add_mod' row tileRows
  have colOffset : col / tileCols * tileCols + col % tileCols = col := Nat.div_add_mod' col tileCols
  have safeRow : min row (desc.rows - 1) = row := min_eq_left (by omega)
  have safeCol : min col (desc.cols - 1) = col := min_eq_left (by omega)
  refine ⟨_, memTileLanes.mpr ⟨row % tileRows, Nat.mod_lt _ tallTile, col % tileCols, Nat.mod_lt _ wideTile, rfl⟩, ?_⟩
  simp only [rowOffset, colOffset, safeRow, safeCol]
  exact ⟨active, trivial⟩

end Tiles

section Descs
variable {s0 s1 s2 slice row col : ℕ} {order : AxisOrder}

/- The slices of rows and columns of an order are its three axes. -/
theorem descAxes (hSlice : slice < (transposeDescs s0 s1 s2 order).numSlices) (hRow : row < (transposeDescs s0 s1 s2 order).rows)
    (hCol : col < (transposeDescs s0 s1 s2 order).cols) (width pidBatch : ℕ) :
    ∃ o < s0 * s1 * s2,
      (transposeDescs s0 s1 s2 order).dstBase (s0 * s1 * s2) width pidBatch slice row col = (pidBatch * (s0 * s1 * s2) + o) * width ∧
      (transposeDescs s0 s1 s2 order).srcBase (s0 * s1 * s2) width pidBatch slice row col =
        (pidBatch * (s0 * s1 * s2) + order.source s0 s1 s2 o) * width := by
  have moved : ∀ i0 i1 i2, i0 < s0 → i1 < s1 → i2 < s2 →
      order.source s0 s1 s2 (order.place s0 s1 s2 i0 i1 i2) = cube s1 s2 i0 i1 i2 := fun _ _ _ h0 h1 h2 =>
    permuteAt order id h0 h1 h2
  have least : ∀ i0 i1 i2, i0 < s0 → i1 < s1 → i2 < s2 → order.place s0 s1 s2 i0 i1 i2 < s0 * s1 * s2 := fun _ _ _ h0 h1 h2 =>
    AxisOrder.placeLt h0 h1 h2
  cases order with
  | a021 =>
    refine ⟨_, least slice col row hSlice hCol hRow, ?_⟩
    rw [moved _ _ _ hSlice hCol hRow]
    constructor <;> simp only [TransposeDesc.dstBase, TransposeDesc.srcBase, transposeDescs, AxisOrder.place, cube] <;> ring
  | a210 =>
    refine ⟨_, least col slice row hCol hSlice hRow, ?_⟩
    rw [moved _ _ _ hCol hSlice hRow]
    constructor <;> simp only [TransposeDesc.dstBase, TransposeDesc.srcBase, transposeDescs, AxisOrder.place, cube] <;> ring
  | a201 =>
    refine ⟨_, least slice col row hSlice hCol hRow, ?_⟩
    rw [moved _ _ _ hSlice hCol hRow]
    constructor <;> simp only [TransposeDesc.dstBase, TransposeDesc.srcBase, transposeDescs, AxisOrder.place, cube] <;> ring
  | a120 =>
    refine ⟨_, least col slice row hCol hSlice hRow, ?_⟩
    rw [moved _ _ _ hCol hSlice hRow]
    constructor <;> simp only [TransposeDesc.dstBase, TransposeDesc.srcBase, transposeDescs, AxisOrder.place, cube] <;> ring

/- And every element of the result lies in one. -/
theorem descCover (order : AxisOrder) {o : ℕ} (inside : o < s0 * s1 * s2) :
    ∃ slice < (transposeDescs s0 s1 s2 order).numSlices, ∃ row < (transposeDescs s0 s1 s2 order).rows,
      ∃ col < (transposeDescs s0 s1 s2 order).cols, ∀ width pidBatch,
        (transposeDescs s0 s1 s2 order).dstBase (s0 * s1 * s2) width pidBatch slice row col =
          (pidBatch * (s0 * s1 * s2) + o) * width := by
  obtain ⟨i0, h0, i1, h1, i2, h2, rfl⟩ := order.placeOf inside
  cases order with
  | a021 =>
    refine ⟨i0, h0, i2, h2, i1, h1, fun width pidBatch => ?_⟩
    simp only [TransposeDesc.dstBase, transposeDescs, AxisOrder.place, cube]
    ring
  | a210 =>
    refine ⟨i1, h1, i2, h2, i0, h0, fun width pidBatch => ?_⟩
    simp only [TransposeDesc.dstBase, transposeDescs, AxisOrder.place, cube]
    ring
  | a201 =>
    refine ⟨i0, h0, i2, h2, i1, h1, fun width pidBatch => ?_⟩
    simp only [TransposeDesc.dstBase, transposeDescs, AxisOrder.place, cube]
    ring
  | a120 =>
    refine ⟨i1, h1, i2, h2, i0, h0, fun width pidBatch => ?_⟩
    simp only [TransposeDesc.dstBase, transposeDescs, AxisOrder.place, cube]
    ring

end Descs

end FlagFft.Layout
