import FlagFft.Layout.Cube

/-! Every variant of the three-axis kernel, on the grid it is launched with, moves every element of its blocks to the
place its order names and nothing else. -/
namespace FlagFft.Layout
open Library.Indexing Library.Stores ThreeDim

section Families
variable {s0 s1 s2 count gridX : ℕ} {order : AxisOrder} {access : Access} {traversal : Traversal} {kernel : TransposeKernel}

/- What the passes of a kernel do, said of slices, rows and columns. -/
theorem movesOfDesc
    (right : ∀ x < gridX, ∀ z, ∀ lanes ∈ kernel.passes count x 0 z, ∀ lane ∈ lanes, lane.storeMask = true →
      lane.loadMask = true ∧ ∃ slice < (transposeDescs s0 s1 s2 order).numSlices, ∃ row < (transposeDescs s0 s1 s2 order).rows,
        ∃ col < (transposeDescs s0 s1 s2 order).cols,
        lane.target = (transposeDescs s0 s1 s2 order).dstBase (s0 * s1 * s2) kernel.access.scalarWidth z slice row col ∧
        lane.source = (transposeDescs s0 s1 s2 order).srcBase (s0 * s1 * s2) kernel.access.scalarWidth z slice row col)
    (all : ∀ slice < (transposeDescs s0 s1 s2 order).numSlices, ∀ row < (transposeDescs s0 s1 s2 order).rows,
      ∀ col < (transposeDescs s0 s1 s2 order).cols, ∃ x < gridX, ∀ z, ∃ lanes ∈ kernel.passes count x 0 z, ∃ lane ∈ lanes,
        lane.storeMask = true ∧
        lane.target = (transposeDescs s0 s1 s2 order).dstBase (s0 * s1 * s2) kernel.access.scalarWidth z slice row col) :
    kernel.Moves (s0 * s1 * s2) (order.source s0 s1 s2) gridX 1 count := by
  constructor
  · intro x hx y hy z _ lanes pass lane member active
    obtain rfl : y = 0 := Nat.lt_one_iff.mp hy
    obtain ⟨loaded, slice, hSlice, row, hRow, col, hCol, target, from_⟩ := right x hx z lanes pass lane member active
    obtain ⟨o, inside, dst, src⟩ := descAxes hSlice hRow hCol kernel.access.scalarWidth z
    exact ⟨loaded, o, inside, target.trans dst, from_.trans src⟩
  · intro z _ o inside
    obtain ⟨slice, hSlice, row, hRow, col, hCol, dst⟩ := descCover order inside
    obtain ⟨x, hx, here⟩ := all slice hSlice row hRow col hCol
    obtain ⟨lanes, pass, lane, member, active, target⟩ := here z
    exact ⟨x, hx, 0, Nat.one_pos, lanes, pass, lane, member, active, target.trans (dst _ z)⟩

/- A program id is a slice, or a group of them, and a tile. -/
theorem gridParts {slices tilesPerSlice x : ℕ} (inside : x < slices * tilesPerSlice) :
    0 < tilesPerSlice ∧ x / tilesPerSlice < slices :=
  ⟨Nat.pos_of_mul_pos_left (Nat.zero_lt_of_lt inside), Nat.div_lt_of_lt_mul (by rwa [Nat.mul_comm])⟩

theorem tileKernelMoves {tileRows tileCols : ℕ} {mask : ℕ → ℕ → Bool} (tallTile : 0 < tileRows) (wideTile : 0 < tileCols)
    (active : ∀ row < (transposeDescs s0 s1 s2 order).rows, ∀ col < (transposeDescs s0 s1 s2 order).cols, mask row col = true) :
    (tileKernel (transposeDescs s0 s1 s2 order) (s0 * s1 * s2) access traversal tileRows tileCols mask).Moves (s0 * s1 * s2)
      (order.source s0 s1 s2)
      (tileKernel (transposeDescs s0 s1 s2 order) (s0 * s1 * s2) access traversal tileRows tileCols mask).gridXOverride 1 count := by
  refine movesOfDesc (fun x hx z lanes pass lane member stores => ?_) fun slice hSlice row hRow col hCol => ?_
  · obtain ⟨tiles, hSlice⟩ := gridParts hx
    obtain rfl := List.mem_singleton.mp pass
    have rows := (ceilDivPositive (Nat.pos_of_mul_pos_left tiles)).2
    have cols := (ceilDivPositive (Nat.pos_of_mul_pos_right tiles)).2
    obtain ⟨_, loaded, row, hRow, col, hCol, target, from_⟩ := tilePassRight rows cols member stores
    exact ⟨loaded, _, hSlice, row, hRow, col, hCol, target, from_⟩
  · obtain ⟨tile, inside, tileRow, tileCol⟩ := traversal.tileOf (ceilDivOf tallTile hRow) (ceilDivOf wideTile hCol)
    refine ⟨slice * _ + tile, mulAddLt hSlice inside, fun z => ⟨_, List.mem_singleton.mpr rfl, ?_⟩⟩
    rw [mulAddDiv inside, mulAddMod inside, tileRow, tileCol]
    exact tilePassAll tallTile wideTile hRow hCol (active row hRow col hCol)

/- The slice of a group is one of the block, or the pass stores nothing. -/
theorem groupPassRight {tile slice tileRow tileCol totalComplex scalarWidth z : ℕ} {desc : TransposeDesc} (rows : 0 < desc.rows)
    (cols : 0 < desc.cols) {lane : Lane}
    (member : lane ∈ tilePass desc totalComplex scalarWidth z tile tile slice (min slice (desc.numSlices - 1)) tileRow tileCol
      fun row col => decide (slice < desc.numSlices) && desc.inside row col)
    (stores : lane.storeMask = true) :
    lane.loadMask = true ∧ ∃ slice < desc.numSlices, ∃ row < desc.rows, ∃ col < desc.cols,
      lane.target = desc.dstBase totalComplex scalarWidth z slice row col ∧
      lane.source = desc.srcBase totalComplex scalarWidth z slice row col := by
  obtain ⟨⟨_, _, active⟩, loaded, row, hRow, col, hCol, target, from_⟩ := tilePassRight rows cols member stores
  have inside : slice < desc.numSlices := of_decide_eq_true (Bool.and_eq_true_iff.mp active).1
  rw [min_eq_left (by omega)] at target
  exact ⟨loaded, slice, inside, row, hRow, col, hCol, target, from_⟩

theorem groupPassAll {tile slice row col totalComplex scalarWidth z : ℕ} {desc : TransposeDesc} (positive : 0 < tile)
    (hSlice : slice < desc.numSlices) (hRow : row < desc.rows) (hCol : col < desc.cols) :
    ∃ lane ∈ tilePass desc totalComplex scalarWidth z tile tile slice (min slice (desc.numSlices - 1)) (row / tile) (col / tile)
        fun row col => decide (slice < desc.numSlices) && desc.inside row col,
      lane.storeMask = true ∧ lane.target = desc.dstBase totalComplex scalarWidth z slice row col := by
  have safeSlice : min slice (desc.numSlices - 1) = slice := min_eq_left (by omega)
  rw [safeSlice]
  refine tilePassAll positive positive hRow hCol ?_
  simp only [TransposeDesc.inside, hSlice, hRow, hCol, decide_true, Bool.and_true]

theorem sliceGroupMoves {tile sliceGroup : ℕ} (positive : 0 < tile) (group : 0 < sliceGroup) :
    (sliceGroupKernel (transposeDescs s0 s1 s2 order) (s0 * s1 * s2) access traversal tile sliceGroup).Moves (s0 * s1 * s2)
      (order.source s0 s1 s2)
      (sliceGroupKernel (transposeDescs s0 s1 s2 order) (s0 * s1 * s2) access traversal tile sliceGroup).gridXOverride 1 count := by
  refine movesOfDesc (fun x hx z lanes pass lane member stores => ?_) fun slice hSlice row hRow col hCol => ?_
  · obtain ⟨tiles, _⟩ := gridParts hx
    obtain ⟨groupOffset, _, rfl⟩ := List.mem_map.mp pass
    exact groupPassRight (ceilDivPositive (Nat.pos_of_mul_pos_left tiles)).2 (ceilDivPositive (Nat.pos_of_mul_pos_right tiles)).2
      member stores
  · obtain ⟨tile', inside, tileRow, tileCol⟩ := traversal.tileOf (ceilDivOf positive hRow) (ceilDivOf positive hCol)
    have split : slice / sliceGroup * sliceGroup + slice % sliceGroup = slice := Nat.div_add_mod' slice sliceGroup
    refine ⟨slice / sliceGroup * _ + tile', mulAddLt (ceilDivOf group hSlice) inside, fun z =>
      ⟨_, List.mem_map.mpr ⟨slice % sliceGroup, List.mem_range.mpr (Nat.mod_lt _ group), rfl⟩, ?_⟩⟩
    simp only [mulAddDiv inside, mulAddMod inside, tileRow, tileCol, split]
    exact groupPassAll positive hSlice hRow hCol

theorem sliceRowGroupMoves {tile sliceGroup rowGroup : ℕ} (positive : 0 < tile) (group : 0 < sliceGroup) (below : 0 < rowGroup) :
    (sliceRowGroupKernel (transposeDescs s0 s1 s2 order) (s0 * s1 * s2) access traversal tile sliceGroup rowGroup).Moves
      (s0 * s1 * s2) (order.source s0 s1 s2)
      (sliceRowGroupKernel (transposeDescs s0 s1 s2 order) (s0 * s1 * s2) access traversal tile sliceGroup rowGroup).gridXOverride
      1 count := by
  refine movesOfDesc (fun x hx z lanes pass lane member stores => ?_) fun slice hSlice row hRow col hCol => ?_
  · obtain ⟨tiles, _⟩ := gridParts hx
    obtain ⟨sliceGroupOffset, _, inGroup⟩ := List.mem_flatMap.mp pass
    obtain ⟨rowGroupOffset, _, rfl⟩ := List.mem_map.mp inGroup
    have tileRows := (ceilDivPositive (Nat.pos_of_mul_pos_left tiles)).2
    exact groupPassRight (ceilDivPositive tileRows).2 (ceilDivPositive (Nat.pos_of_mul_pos_right tiles)).2 member stores
  · have tileRowInside := ceilDivOf positive hRow
    obtain ⟨tile', inside, tileRow, tileCol⟩ := traversal.tileOf (ceilDivOf below tileRowInside) (ceilDivOf positive hCol)
    have split : slice / sliceGroup * sliceGroup + slice % sliceGroup = slice := Nat.div_add_mod' slice sliceGroup
    have splitRow : row / tile / rowGroup * rowGroup + row / tile % rowGroup = row / tile := Nat.div_add_mod' _ rowGroup
    refine ⟨slice / sliceGroup * _ + tile', mulAddLt (ceilDivOf group hSlice) inside, fun z => ⟨_, List.mem_flatMap.mpr
      ⟨slice % sliceGroup, List.mem_range.mpr (Nat.mod_lt _ group), List.mem_map.mpr
        ⟨row / tile % rowGroup, List.mem_range.mpr (Nat.mod_lt _ below), rfl⟩⟩, ?_⟩⟩
    simp only [mulAddDiv inside, mulAddMod inside, tileRow, tileCol, split, splitRow]
    exact groupPassAll positive hSlice hRow hCol

/- The coordinates the plain kernel takes apart are those of the order. -/
theorem srcCoordsAt (order : AxisOrder) {o : ℕ} (inside : o < s0 * s1 * s2) :
    let dims := cubeDims s0 s1 s2 order
    let rem := o % (dims.2.1 * dims.2.2)
    let y := srcCoords (o / (dims.2.1 * dims.2.2)) (rem / dims.2.2) (rem % dims.2.2) order
    y.1 * (s1 * s2) + y.2.1 * s2 + y.2.2 = order.source s0 s1 s2 o := by
  have parts : ∀ {d1 d2 x0 x1 x2}, x1 < d1 → x2 < d2 → cube d1 d2 x0 x1 x2 / (d1 * d2) = x0 ∧
      cube d1 d2 x0 x1 x2 % (d1 * d2) / d2 = x1 ∧ cube d1 d2 x0 x1 x2 % (d1 * d2) % d2 = x2 := by
    intro d1 d2 x0 x1 x2 h1 h2
    have whole : cube d1 d2 x0 x1 x2 = x0 * (d1 * d2) + (x1 * d2 + x2) := by
      unfold cube
      ring
    rw [whole, mulAddDiv (mulAddLt h1 h2), mulAddMod (mulAddLt h1 h2), mulAddDiv h2, mulAddMod h2]
    exact ⟨rfl, rfl, rfl⟩
  obtain ⟨i0, h0, i1, h1, i2, h2, rfl⟩ := order.placeOf inside
  have moved : order.source s0 s1 s2 (order.place s0 s1 s2 i0 i1 i2) = cube s1 s2 i0 i1 i2 := permuteAt order id h0 h1 h2
  rw [moved]
  cases order with
  | a021 =>
    simp only [cubeDims, srcCoords, AxisOrder.place, parts h2 h1]
    unfold cube
    ring
  | a210 =>
    simp only [cubeDims, srcCoords, AxisOrder.place, parts h1 h0]
    unfold cube
    ring
  | a201 =>
    simp only [cubeDims, srcCoords, AxisOrder.place, parts h0 h1]
    unfold cube
    ring
  | a120 =>
    simp only [cubeDims, srcCoords, AxisOrder.place, parts h2 h0]
    unfold cube
    ring

theorem plainMoves {block : ℕ} (positive : 0 < block) :
    (buildTiledTranspose3d s0 s1 s2 order block).Moves (s0 * s1 * s2) (order.source s0 s1 s2) (ceilDiv (s0 * s1 * s2) block) 1
      count := by
  constructor
  · intro x _ y _ z _ lanes pass lane member stores
    obtain rfl := List.mem_singleton.mp pass
    obtain ⟨i, _, rfl⟩ := List.mem_map.mp member
    have inside : x * block + i < s0 * s1 * s2 := of_decide_eq_true stores
    have safe : min (x * block + i) (s0 * s1 * s2 - 1) = x * block + i := min_eq_left (by omega)
    have coords := srcCoordsAt order (safe.symm ▸ inside : min (x * block + i) (s0 * s1 * s2 - 1) < s0 * s1 * s2)
    refine ⟨stores, x * block + i, inside, ?_, ?_⟩
    · change z * (s0 * s1 * s2 * 2) + (x * block + i) * 2 = (z * (s0 * s1 * s2) + (x * block + i)) * 2
      ring
    · refine (congrArg (fun e => z * (s0 * s1 * s2 * 2) + e * 2) coords).trans ?_
      rw [safe]
      change _ = (z * (s0 * s1 * s2) + order.source s0 s1 s2 (x * block + i)) * 2
      ring
  · intro z _ o inside
    refine ⟨o / block, ceilDivOf positive inside, 0, Nat.one_pos, _, List.mem_singleton.mpr rfl, _,
      List.mem_map.mpr ⟨o % block, List.mem_range.mpr (Nat.mod_lt _ positive), rfl⟩, ?_⟩
    simp only [Nat.div_add_mod', inside, decide_true, true_and]
    change _ = _ * 2
    ring

end Families

section Variants
variable {s0 s1 s2 : ℕ} {order : AxisOrder} {kernel : TransposeKernel}

/- On the grid the executor gives it, the kernel is the permutation. -/
def TransposeKernel.Permutes3d (kernel : TransposeKernel) (s0 s1 s2 : ℕ) (order : AxisOrder) : Prop :=
  ∀ count, kernel.Moves (s0 * s1 * s2) (order.source s0 s1 s2) (kernel.gridX (s0 * s1 * s2)) 1 count

/- A grid of its own is empty only where there is nothing to move, and so is the other grid there. -/
theorem ownGrid (ok : ∀ count, kernel.Moves (s0 * s1 * s2) (order.source s0 s1 s2) kernel.gridXOverride 1 count) :
    kernel.Permutes3d s0 s1 s2 order := by
  intro count
  rcases Nat.eq_zero_or_pos kernel.gridXOverride with empty | positive
  · have none : s0 * s1 * s2 = 0 := by
      refine Nat.eq_zero_of_not_pos fun some => ?_
      obtain ⟨x, hx, _⟩ := (ok 1).all 0 Nat.one_pos 0 some
      rw [empty] at hx
      exact absurd hx (Nat.not_lt_zero _)
    have grid : kernel.gridX (s0 * s1 * s2) = kernel.gridXOverride := by
      rw [TransposeKernel.gridX, if_neg (Nat.not_lt.mpr (Nat.le_of_eq empty)), none, empty]
      rfl
    rw [grid]
    exact ok count
  · rw [TransposeKernel.gridX, if_pos positive]
    exact ok count

theorem insideTile {desc : TransposeDesc} : ∀ row < desc.rows, ∀ col < desc.cols, desc.inside row col = true := by
  intro row hRow col hCol
  simp only [TransposeDesc.inside, hRow, hCol, decide_true, Bool.and_true]

variable {dtype : Dtype} {tile sliceGroup rowGroup : ℕ} {traversal : Traversal}

theorem v2Permutes (built : buildTiledTranspose3dV2 s0 s1 s2 order dtype tile = .ok kernel) :
    kernel.Permutes3d s0 s1 s2 order := by
  unfold buildTiledTranspose3dV2 at built
  split at built
  · cases built
  · split_ifs at built with none
    cases built
    have positive := Nat.pos_of_ne_zero none
    exact ownGrid fun _ => tileKernelMoves positive positive fun _ _ _ _ => rfl

theorem tilePermutes {tile : TileParam} {packedComplex pairStore pair vecStore : Bool}
    (built : buildTiledTranspose3dTile s0 s1 s2 order dtype tile packedComplex pairStore pair vecStore traversal = .ok kernel) :
    kernel.Permutes3d s0 s1 s2 order := by
  unfold buildTiledTranspose3dTile at built
  dsimp only at built
  generalize (if packedComplex = true then Access.word else if pair = true then .word
    else if (pairStore || vecStore) = true then .pair else .scalars) = access at built
  -- the options that do not go with the type
  split_ifs at built
  cases tile with
  | square tile =>
    dsimp only at built
    split_ifs at built with none
    cases built
    have positive := Nat.pos_of_ne_zero none
    exact ownGrid fun _ => tileKernelMoves positive positive insideTile
  | shape tileRows tileCols =>
    dsimp only at built
    split_ifs at built with none
    cases built
    obtain ⟨tall, wide⟩ := not_or.mp none
    exact ownGrid fun _ => tileKernelMoves (Nat.pos_of_ne_zero tall) (Nat.pos_of_ne_zero wide) insideTile

theorem sliceGroupPermutes (built : buildTiledTranspose3dSliceGroup s0 s1 s2 order dtype tile sliceGroup = .ok kernel) :
    kernel.Permutes3d s0 s1 s2 order := by
  unfold buildTiledTranspose3dSliceGroup at built
  split at built
  · cases built
  · split_ifs at built with group none
    cases built
    exact ownGrid fun _ => sliceGroupMoves (Nat.pos_of_ne_zero none) (by omega)

theorem pairSliceGroupPermutes
    (built : buildTiledTranspose3dPairSliceGroup s0 s1 s2 order tile sliceGroup traversal = .ok kernel) :
    kernel.Permutes3d s0 s1 s2 order := by
  unfold buildTiledTranspose3dPairSliceGroup at built
  split_ifs at built with group none
  cases built
  exact ownGrid fun _ => sliceGroupMoves (Nat.pos_of_ne_zero none) (by omega)

theorem pairSliceRowGroupPermutes
    (built : buildTiledTranspose3dPairSliceRowGroup s0 s1 s2 order tile sliceGroup rowGroup traversal = .ok kernel) :
    kernel.Permutes3d s0 s1 s2 order := by
  unfold buildTiledTranspose3dPairSliceRowGroup at built
  split_ifs at built with group below none
  cases built
  exact ownGrid fun _ => sliceRowGroupMoves (Nat.pos_of_ne_zero none) (by omega) (by omega)

theorem Variant3d.permutes (variant : Variant3d) (built : variant.build s0 s1 s2 order dtype = .ok kernel) :
    kernel.Permutes3d s0 s1 s2 order := by
  cases variant with
  | plain =>
    cases built
    exact fun _ => plainMoves (by decide)
  | v2 tile => exact v2Permutes built
  | registerTile tile packedComplex pairStore pair vecStore traversal => exact tilePermutes built
  | sliceGroupTile tile sliceGroup => exact sliceGroupPermutes built
  | pairSliceGroupTile tile sliceGroup traversal => exact pairSliceGroupPermutes built
  | pairSliceRowGroupTile tile sliceGroup rowGroup traversal => exact pairSliceRowGroupPermutes built

end Variants

end FlagFft.Layout
