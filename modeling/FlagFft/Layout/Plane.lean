import FlagFft.Layout.CubeMoves

/-! The generated transposes of blocks of rows, and what holds of all generated transposes: launched as the executor
launches them they are the permutations they are named after. -/
namespace FlagFft.Layout
open Library.Indexing Library.Stores Library.RealDft FlagFft.Real TwoDim ThreeDim

section Builders
variable (n0 n1 tileSize : ℕ)

def buildTiledTranspose (registerTranspose : Option Bool) : TransposeKernel :=
  let totalComplex := n0 * n1
  let useRegisterTranspose := registerTranspose.getD (decide (totalComplex ≤ 128 * 1024))
  { access := .scalars
    gridXOverride := 0
    passes := fun _ pidTileCol pidTileRow pidBatch =>
      let lane : ℕ → ℕ → Lane := fun r c =>
        let rowOffset := pidTileRow * tileSize + r
        let colOffset := pidTileCol * tileSize + c
        let mask := decide (rowOffset < n0) && decide (colOffset < n1)
        let safeRow := min rowOffset (n0 - 1)
        let safeCol := min colOffset (n1 - 1)
        ⟨mask, pidBatch * (totalComplex * 2) + (safeRow * n1 + safeCol) * 2, mask,
          pidBatch * (totalComplex * 2) + (safeCol * n0 + safeRow) * 2⟩
      -- transposed in registers, the lanes follow the rows of the result
      [if useRegisterTranspose then tileLanes tileSize tileSize fun c r => lane r c else tileLanes tileSize tileSize lane] }

def buildPackedTranspose : TransposeKernel where
  access := .word
  gridXOverride := 0
  passes := fun nbatch pidTileCol pidTileRow batch =>
    [tileLanes tileSize tileSize fun c r =>
      let row := pidTileRow * tileSize + r
      let col := pidTileCol * tileSize + c
      ⟨decide (row < n0) && decide (col < n1) && decide (batch < nbatch), batch * (n0 * n1) + row * n1 + col,
        decide (col < n1) && decide (row < n0) && decide (batch < nbatch), batch * (n0 * n1) + col * n0 + row⟩]

end Builders

/- The kernels of the emitter. -/
inductive Variant2d
  | tiled (registerTranspose : Option Bool)
  | packed
  deriving DecidableEq, Repr

def planeTile : ℕ := 32

def Variant2d.build (variant : Variant2d) (n0 n1 : ℕ) : TransposeKernel :=
  match variant with
  | .tiled registerTranspose => buildTiledTranspose n0 n1 planeTile registerTranspose
  | .packed => buildPackedTranspose n0 n1 planeTile

/- transpose->launch(stream, args, ceil_div(n1, tile_size), ceil_div(n0, tile_size), batch) -/
def launchTranspose {S : Type*} (kernel : TransposeKernel) (zero : S) (schedule : Schedule) (n0 n1 : ℕ)
    (input output : Address) (batch : ℕ) : Memory S → Memory S :=
  kernel.launch zero input output schedule (ceilDiv n1 planeTile) (ceilDiv n0 planeTile) batch batch

/- Element `o` of a transposed block. -/
def planeSource (n0 n1 o : ℕ) : ℕ := o % n0 * n1 + o / n0

section Plane
variable {n0 n1 count gridX gridY : ℕ} {kernel : TransposeKernel}

theorem planeMovesOf
    (right : ∀ x y, ∀ z < count, ∀ lanes ∈ kernel.passes count x y z, ∀ lane ∈ lanes, lane.storeMask = true →
      lane.loadMask = true ∧ ∃ row < n0, ∃ col < n1,
        lane.target = (z * (n0 * n1) + (col * n0 + row)) * kernel.access.scalarWidth ∧
        lane.source = (z * (n0 * n1) + (row * n1 + col)) * kernel.access.scalarWidth)
    (all : ∀ row < n0, ∀ col < n1, ∀ z < count, ∃ x < gridX, ∃ y < gridY, ∃ lanes ∈ kernel.passes count x y z, ∃ lane ∈ lanes,
      lane.storeMask = true ∧ lane.target = (z * (n0 * n1) + (col * n0 + row)) * kernel.access.scalarWidth) :
    kernel.Moves (n0 * n1) (planeSource n0 n1) gridX gridY count := by
  constructor
  · intro x _ y _ z hz lanes pass lane member active
    obtain ⟨loaded, row, hRow, col, hCol, target, from_⟩ := right x y z hz lanes pass lane member active
    refine ⟨loaded, col * n0 + row, (mulAddLt hCol hRow).trans_eq (Nat.mul_comm _ _), target, ?_⟩
    rw [planeSource, mulAddMod hRow, mulAddDiv hRow]
    exact from_
  · intro z hz o inside
    have rows : 0 < n0 := Nat.pos_of_mul_pos_right (Nat.zero_lt_of_lt inside)
    have here := all (o % n0) (Nat.mod_lt o rows) (o / n0) (Nat.div_lt_of_lt_mul inside) z hz
    rwa [Nat.div_add_mod'] at here

theorem tiledMoves (registerTranspose : Option Bool) {tileSize : ℕ} (positive : 0 < tileSize) :
    (buildTiledTranspose n0 n1 tileSize registerTranspose).Moves (n0 * n1) (planeSource n0 n1) (ceilDiv n1 tileSize)
      (ceilDiv n0 tileSize) count := by
  -- either way round the lanes are those of the tile
  have either : ∀ {flag : Bool} {lane : ℕ → ℕ → Lane} {l : Lane},
      l ∈ (if flag = true then tileLanes tileSize tileSize fun c r => lane r c else tileLanes tileSize tileSize lane) ↔
        ∃ r < tileSize, ∃ c < tileSize, lane r c = l := by
    intro flag lane l
    cases flag with
    | false => exact memTileLanes
    | true =>
      refine memTileLanes.trans ⟨?_, ?_⟩
      · rintro ⟨c, hc, r, hr, here⟩
        exact ⟨r, hr, c, hc, here⟩
      · rintro ⟨r, hr, c, hc, here⟩
        exact ⟨c, hc, r, hr, here⟩
  have doubled : ∀ z e : ℕ, z * (n0 * n1 * 2) + e * 2 = (z * (n0 * n1) + e) * 2 := fun z e => by ring
  refine planeMovesOf (fun x y z _ lanes pass lane member stores => ?_) fun row hRow col hCol z _ => ?_
  · obtain rfl := List.mem_singleton.mp pass
    obtain ⟨r, _, c, _, rfl⟩ := either.mp member
    obtain ⟨row, col⟩ := Bool.and_eq_true_iff.mp stores
    have hRow := of_decide_eq_true row
    have hCol := of_decide_eq_true col
    refine ⟨stores, y * tileSize + r, hRow, x * tileSize + c, hCol, ?_⟩
    simp only [show min (y * tileSize + r) (n0 - 1) = y * tileSize + r from min_eq_left (by omega),
      show min (x * tileSize + c) (n1 - 1) = x * tileSize + c from min_eq_left (by omega)]
    exact ⟨doubled _ _, doubled _ _⟩
  · refine ⟨col / tileSize, ceilDivOf positive hCol, row / tileSize, ceilDivOf positive hRow, _, List.mem_singleton.mpr rfl, _,
      either.mpr ⟨row % tileSize, Nat.mod_lt _ positive, col % tileSize, Nat.mod_lt _ positive, rfl⟩, ?_⟩
    simp only [Nat.div_add_mod', hRow, hCol, decide_true, Bool.and_true, true_and,
      show min row (n0 - 1) = row from min_eq_left (by omega), show min col (n1 - 1) = col from min_eq_left (by omega)]
    exact doubled _ _

theorem packedMoves {tileSize : ℕ} (positive : 0 < tileSize) :
    (buildPackedTranspose n0 n1 tileSize).Moves (n0 * n1) (planeSource n0 n1) (ceilDiv n1 tileSize) (ceilDiv n0 tileSize)
      count := by
  have single : ∀ z e f : ℕ, z * (n0 * n1) + e + f = (z * (n0 * n1) + (e + f)) * 1 := fun z e f => by ring
  refine planeMovesOf (fun x y z _ lanes pass lane member stores => ?_) fun row hRow col hCol z hz => ?_
  · obtain rfl := List.mem_singleton.mp pass
    obtain ⟨c, _, r, _, rfl⟩ := memTileLanes.mp member
    simp only [Bool.and_eq_true, decide_eq_true_eq] at stores
    obtain ⟨⟨hCol, hRow⟩, inBatch⟩ := stores
    refine ⟨?_, y * tileSize + r, hRow, x * tileSize + c, hCol, single _ _ _, single _ _ _⟩
    simp only [hRow, hCol, inBatch, decide_true, Bool.and_true]
  · refine ⟨col / tileSize, ceilDivOf positive hCol, row / tileSize, ceilDivOf positive hRow, _, List.mem_singleton.mpr rfl, _,
      memTileLanes.mpr ⟨col % tileSize, Nat.mod_lt _ positive, row % tileSize, Nat.mod_lt _ positive, rfl⟩, ?_⟩
    simp only [Nat.div_add_mod', hRow, hCol, hz, decide_true, Bool.and_true, true_and]
    exact single _ _ _

theorem Variant2d.moves (variant : Variant2d) :
    (variant.build n0 n1).Moves (n0 * n1) (planeSource n0 n1) (ceilDiv n1 planeTile) (ceilDiv n0 planeTile) count := by
  cases variant with
  | tiled registerTranspose => exact tiledMoves registerTranspose (by decide)
  | packed => exact packedMoves (by decide)

end Plane

section Executed
variable {S : Type*} (zero : S) (schedule : Schedule) {input output : Address}

theorem orderSourceLt {s0 s1 s2 : ℕ} (order : AxisOrder) {o : ℕ} (inside : o < s0 * s1 * s2) :
    order.source s0 s1 s2 o < s0 * s1 * s2 := by
  obtain ⟨i0, h0, i1, h1, i2, h2, rfl⟩ := order.placeOf inside
  have moved : order.source s0 s1 s2 (order.place s0 s1 s2 i0 i1 i2) = cube s1 s2 i0 i1 i2 := permuteAt order id h0 h1 h2
  rw [moved]
  exact cubeLt h0 h1 h2

theorem perm3dMap {kernel : TransposeKernel} {s0 s1 s2 : ℕ} {order : AxisOrder} (ok : kernel.Permutes3d s0 s1 s2 order)
    (apart : input.buffer ≠ output.buffer) (context : Context3d) :
    RowMap (launchPerm3d (kernel.compiled zero schedule (s0 * s1 * s2)) (s0 * s1 * s2) context input output) (fun _ => False)
      input output (2 * (s0 * s1 * s2)) (2 * (s0 * s1 * s2)) context.batch (scalarRow (order.source s0 s1 s2)) := by
  unfold launchPerm3d
  exact chunkedRowMap (fun _ => Nat.lt_of_lt_of_le Nat.zero_lt_one (le_max_left _ _))
    (scalarRowLocal fun _ inside => orderSourceLt order inside) (.inr apart) (fun _ => not_false) (fun _ => not_false)
    fun offset count _ => launchMap (ok count)
      (show (input.at (offset * (2 * (s0 * s1 * s2)))).buffer ≠ (output.at (offset * (2 * (s0 * s1 * s2)))).buffer from apart)
      schedule

theorem planeMap (variant : Variant2d) (n0 n1 : ℕ) (apart : input.buffer ≠ output.buffer) (batch : ℕ) :
    RowMap (launchTranspose (variant.build n0 n1) zero schedule n0 n1 input output batch) (fun _ => False) input output
      (2 * (n0 * n1)) (2 * (n0 * n1)) batch (scalarRow (planeSource n0 n1)) :=
  launchMap variant.moves apart schedule

/- What the executions of three axes ask of a kernel. -/
theorem compiledPermutes {kernel : TransposeKernel} {s0 s1 s2 : ℕ} {order : AxisOrder} (ok : kernel.Permutes3d s0 s1 s2 order) :
    (kernel.compiled (0 : ℝ) schedule (s0 * s1 * s2)).Permutes order s0 s1 s2 := by
  intro src dst count apart
  refine (launchMap (ok count) apart schedule).congr fun x k inside => ?_
  have binary := Nat.mod_lt k (show 0 < 2 by decide)
  obtain ⟨i0, h0, i1, h1, i2, h2, here⟩ := order.placeOf (Nat.div_lt_of_lt_mul inside)
  have moved : order.source s0 s1 s2 (k / 2) = cube s1 s2 i0 i1 i2 := here ▸ permuteAt order id h0 h1 h2
  rw [scalarRow, moved, ← liftPermute x h0 h1 h2 binary, ← here, Nat.div_add_mod]

/- And the executions of two axes. -/
theorem planeTransposes (variant : Variant2d) (n0 n1 : ℕ) :
    Transposes (launchTranspose (variant.build n0 n1) (0 : ℝ) schedule n0 n1) (2 * (n0 * n1)) (lift (transposeRow n0 n1)) := by
  intro src dst batch apart
  refine (planeMap 0 schedule variant n0 n1 apart batch).congr fun x k _ => ?_
  have binary := Nat.mod_lt k (show 0 < 2 by decide)
  unfold scalarRow lift
  rw [← Nat.div_add_mod k 2, scalarsSplit _ _ binary, Nat.div_add_mod]
  unfold transposeRow
  rw [← scalarsSplit _ _ binary, scalarsInterleaved]
  rfl

end Executed

/- Every kernel a builder makes moves the elements as its order says, on the grid the executor launches it with, chunk by
chunk; and a place that is stored to more than once is given the same value each time. -/
theorem generatedTransposesPermute {S : Type*} (zero : S) (schedule : Schedule) {input output : Address}
    (apart : input.buffer ≠ output.buffer) :
    (∀ (variant : Variant3d) (s0 s1 s2 : ℕ) (order : AxisOrder) (dtype : Dtype) (kernel : TransposeKernel),
      variant.build s0 s1 s2 order dtype = .ok kernel → ∀ context : Context3d,
        let size := s0 * s1 * s2
        let op := launchPerm3d (kernel.compiled zero schedule size) size context input output
        RowMap op (fun _ => False) input output (2 * size) (2 * size) context.batch (scalarRow (order.source s0 s1 s2)) ∧
        ∀ m now, InputKept input m now → ∀ offset count, offset + count ≤ context.batch →
          kernel.StoresLast zero (input.at (offset * (2 * size))) (output.at (offset * (2 * size))) (kernel.gridX size) 1 count
            now (op m)) ∧
    ∀ (variant : Variant2d) (n0 n1 batch : ℕ),
      let kernel := variant.build n0 n1
      let op := launchTranspose kernel zero schedule n0 n1 input output batch
      RowMap op (fun _ => False) input output (2 * (n0 * n1)) (2 * (n0 * n1)) batch (scalarRow (planeSource n0 n1)) ∧
      ∀ m now, InputKept input m now →
        kernel.StoresLast zero input output (ceilDiv n1 planeTile) (ceilDiv n0 planeTile) batch now (op m) := by
  refine ⟨fun variant s0 s1 s2 order dtype kernel built context => ?_, fun variant n0 n1 batch => ?_⟩
  · have ok := variant.permutes built
    have map := perm3dMap zero schedule ok apart context
    exact ⟨map, fun m now kept offset count fits => storesLast zero (ok count) map kept offset fits⟩
  · have map := planeMap zero schedule variant n0 n1 apart batch
    refine ⟨map, fun m now kept => ?_⟩
    have last := storesLast zero variant.moves map kept 0 (Nat.le_of_eq (Nat.zero_add batch))
    have start : ∀ p : Address, p.at (0 * (2 * (n0 * n1))) = p := fun p => by simp [Address.at]
    rwa [start, start] at last

/- Three slices in groups of two, three rows of tiles in groups of two: element (0, 2, 4) of the last of three blocks. -/
theorem generatedTransposesPermuteOddSlices :
    launchPerm3d ((sliceRowGroupKernel (transposeDescs 2 3 5 .a210) 30 .word .row 2 2 2).compiled 0 ascending 30) 30
      ⟨3, false, 8, 65535⟩ ⟨0, 0⟩ ⟨1, 0⟩ (fun a => a.offset) ⟨1, 2 * 60 + 2 * 28 + 1⟩ = 2 * 60 + 2 * 14 + 1 :=
  (((generatedTransposesPermute 0 ascending (show (⟨0, 0⟩ : Address).buffer ≠ (⟨1, 0⟩ : Address).buffer by decide)).1
    (.pairSliceRowGroupTile 2 2 2 .row) 2 3 5 .a210 .complex64 _ rfl ⟨3, false, 8, 65535⟩).1.writes (fun a => a.offset) 2
    (by decide) 57 (by decide))

end FlagFft.Layout
