import FlagFft.Npu.Transpose3d

/-! The native transpose of a matrix. Every core walks over tiles and uses its local memory again; a last tile of fewer than
four columns is read from a window that starts earlier. -/
namespace FlagFft.Npu
open Library.Indexing Library.Filling Library.Stores

/- The side of a tile is a template argument of the kernel. -/
structure Transpose2d where
  tile : ℕ
  rows : ℕ
  cols : ℕ

/- The local memory that the tiles of a core share, and the global memory. -/
structure TileCore (S : Type*) where
  input : ℕ → S
  memory : Memory S

namespace Transpose2d
variable (node : Transpose2d)

/- Byte offsets of a tile for each of four shifts, one table after the other. -/
def buildNpu2dTransposeIndices (i : ℕ) : ℕ :=
  let floatCount := 2 * node.tile * node.tile
  let shift := i / floatCount
  let float := i % floatCount
  let outputRow := float / 2 / node.tile
  let outputCol := float / 2 % node.tile
  let inputCol := (outputRow + shift) % node.tile
  (2 * (outputCol * node.tile + inputCol) + float % 2) * floatBytes

def rowTiles : ℕ := ceilDiv node.rows node.tile

def colTiles : ℕ := ceilDiv node.cols node.tile

def tilesPerBatch : ℕ := node.rowTiles * node.colTiles

def rowStart (tile : ℕ) : ℕ := tile / node.colTiles * node.tile

def colStart (tile : ℕ) : ℕ := tile % node.colTiles * node.tile

def validRows (tile : ℕ) : ℕ := min node.tile (node.rows - node.rowStart tile)

def validCols (tile : ℕ) : ℕ := min node.tile (node.cols - node.colStart tile)

/- The window of the source columns: its start, its width, and by how much the tile starts later. -/
def window (tile : ℕ) : ℕ × ℕ × ℕ :=
  let start := node.colStart tile
  let valid := node.validCols tile
  if valid < 4 ∧ 4 ≤ node.cols then
    let alignedCols := (valid + 3) / 4 * 4
    let alignedStart := (uint32Size + node.cols - alignedCols) % uint32Size
    if alignedStart ≤ start then (alignedStart, alignedCols, start - alignedStart) else (start, valid, 0)
  else (start, valid, 0)

def kTileDataBlocks : ℕ := node.tile * complexBytes / blockBytes

section Kernel
variable {S : Type*} (pad : S) (input output : Address)

def loadTile (batchIndex tile : ℕ) (m : Memory S) (input_ : ℕ → S) : ℕ → S :=
  let sourceColStart := (node.window tile).1
  let sourceCols := (node.window tile).2.1
  let inputOffset := (batchIndex * node.rows + node.rowStart tile) * node.cols + sourceColStart
  copyPadIn pad (node.validRows tile) (sourceCols * complexBytes) ((node.cols - sourceCols) * complexBytes)
    (node.kTileDataBlocks - (sourceCols + 3) / 4) (fun i => m (input.at (2 * inputOffset + i))) 0 input_

def gatherTile (tile : ℕ) (input_ : ℕ → S) : ℕ → S :=
  let tailShift := (node.window tile).2.2
  gather input_ (fun i => node.buildNpu2dTransposeIndices (tailShift * (2 * node.tile * node.tile) + i)) 0

def storeTile (batchIndex tile : ℕ) (output_ : ℕ → S) (m : Memory S) : Memory S :=
  let outputOffset := (batchIndex * node.cols + node.colStart tile) * node.rows + node.rowStart tile
  copyPadOut (node.validCols tile) (node.validRows tile * complexBytes) (node.kTileDataBlocks - (node.validRows tile + 3) / 4)
    ((node.rows - node.validRows tile) * complexBytes) output_ (fun i => output.at (2 * outputOffset + i)) m

def processTile (core : TileCore S) (tileId : ℕ) : TileCore S :=
  let batchIndex := tileId / node.tilesPerBatch
  let tile := tileId % node.tilesPerBatch
  let input_ := node.loadTile pad input batchIndex tile core.memory core.input
  ⟨input_, node.storeTile output batchIndex tile (node.gatherTile tile input_) core.memory⟩

def process (totalTiles blockCount block : ℕ) (core : TileCore S) : TileCore S :=
  (strided block totalTiles blockCount).foldl (node.processTile pad input output) core

def launch (totalTiles blocks : ℕ) (local_ : ℕ → ℕ → S) (schedule : Schedule) (m : Memory S) : Memory S :=
  (schedule.order blocks).foldl
    (fun m block => (node.process pad input output totalTiles blocks block ⟨local_ block, m⟩).memory) m

/- Without null pointers. -/
def launchAscendcTranspose2d (status : ℕ → ℕ) (batch : ℕ) (local_ : ℕ → ℕ → S) (schedule : Schedule) (m : Memory S) :
    Except Failure (Memory S) :=
  if node.rows < 4 ∨ node.cols < 4 ∨ batch = 0 ∨ (node.tile ≠ 16 ∧ node.tile ≠ 32 ∧ node.tile ≠ 64) then .error .invalidSize
  else
    let totalTiles := batch * node.rowTiles * node.colTiles
    if totalTiles = 0 ∨ uint32Size ≤ totalTiles then .error .invalidSize
    else
      let blocks := min totalTiles 65535
      if status blocks = 0 then .ok (node.launch pad input output totalTiles blocks local_ schedule m)
      else .error .execFailed

/- The node throws where its launcher fails. -/
def launchNative (status : ℕ → ℕ) (batch : ℕ) (local_ : ℕ → ℕ → S) (schedule : Schedule) (m : Memory S) :
    Except Failure (Memory S) :=
  if int32Limit < node.rows ∨ int32Limit < node.cols ∨ batch = 0 then .error .execFailed
  else match node.launchAscendcTranspose2d pad input output status batch local_ schedule m with
    | .ok m => .ok m
    | .error _ => .error .execFailed

end Kernel

section Tiles
variable {node : Transpose2d} {tile : ℕ}

theorem startLt (positive : 0 < node.tile) (inside : tile < node.tilesPerBatch) :
    node.rowStart tile < node.rows ∧ node.colStart tile < node.cols ∧ node.tile ∣ node.colStart tile := by
  have cols : 0 < node.colTiles := Nat.pos_of_mul_pos_left (Nat.zero_lt_of_lt inside)
  have row : tile / node.colTiles < node.rowTiles := Nat.div_lt_of_lt_mul (by rwa [Nat.mul_comm])
  exact ⟨(ltCeilDiv positive).mp row, (ltCeilDiv positive).mp (Nat.mod_lt _ cols), Nat.dvd_mul_left _ _⟩

/- The window holds the tile, and ends with the row. -/
structure WindowOk (node : Transpose2d) (tile : ℕ) : Prop where
  start : (node.window tile).1 + (node.window tile).2.2 = node.colStart tile
  wide : (node.window tile).2.2 + node.validCols tile ≤ (node.window tile).2.1
  fits : (node.window tile).2.1 ≤ node.tile
  row : (node.window tile).1 + (node.window tile).2.1 ≤ node.cols
  shift : (node.window tile).2.2 < 4

theorem windowOk (wide : 4 ≤ node.tile) (inside : tile < node.tilesPerBatch) (small : node.cols < uint32Size) :
    node.WindowOk tile := by
  obtain ⟨_, start, aligned⟩ := startLt (by omega) inside
  have valid : node.validCols tile = min node.tile (node.cols - node.colStart tile) := rfl
  have size : uint32Size = 4294967296 := rfl
  by_cases tail : node.validCols tile < 4 ∧ 4 ≤ node.cols
  · by_cases long : (uint32Size + node.cols - (node.validCols tile + 3) / 4 * 4) % uint32Size ≤ node.colStart tile
    · have window : node.window tile = _ := (if_pos tail).trans (if_pos long)
      rw [size] at long
      constructor <;> simp only [window, size] <;> omega
    · have window : node.window tile = _ := (if_pos tail).trans (if_neg long)
      constructor <;> simp only [window] <;> omega
  · have window : node.window tile = _ := if_neg tail
    constructor <;> simp only [window] <;> omega

end Tiles

section Launch
variable {S : Type*} {node : Transpose2d} {batch tileId : ℕ} {pad : S} {input output : Address} {m : Memory S}

/- A transposed matrix of elements, as a row of floats. -/
def transposedRow (node : Transpose2d) (x : ℕ → S) (k : ℕ) : S :=
  x (2 * (k / 2 % node.rows * node.cols + k / 2 / node.rows) + k % 2)

noncomputable def wanted (node : Transpose2d) (batch : ℕ) (input output : Address) (m : Memory S) : Memory S :=
  idealLayout (2 * (node.rows * node.cols)) batch node.transposedRow (input.row (2 * (node.rows * node.cols)))
    (output.row (2 * (node.rows * node.cols))) m

theorem wantedMap : LayoutMap (node.wanted batch input output (S := S)) (fun _ => False) (input.row (2 * (node.rows * node.cols)))
    (output.row (2 * (node.rows * node.cols))) (2 * (node.rows * node.cols)) batch node.transposedRow :=
  idealLayoutMap (Address.strideInjective le_rfl)

theorem wantedAt {row r c index : ℕ} (rowInside : row < batch) (inside : r < node.rows) (inside' : c < node.cols)
    (binary : index < 2) :
    node.wanted batch input output m (output.at (2 * ((row * node.cols + c) * node.rows + r) + index)) =
      m (input.at (2 * ((row * node.rows + r) * node.cols + c) + index)) := by
  have element : c * node.rows + r < node.rows * node.cols := (mulAddLt inside' inside).trans_eq (Nat.mul_comm _ _)
  have bound : 2 * (c * node.rows + r) + index < 2 * (node.rows * node.cols) := by omega
  have half : (2 * (c * node.rows + r) + index) / 2 = c * node.rows + r := by omega
  have odd : (2 * (c * node.rows + r) + index) % 2 = index := by omega
  have target : 2 * ((row * node.cols + c) * node.rows + r) + index =
    row * (2 * (node.rows * node.cols)) + (2 * (c * node.rows + r) + index) := by ring
  have source : 2 * ((row * node.rows + r) * node.cols + c) + index =
    row * (2 * (node.rows * node.cols)) + (2 * (r * node.cols + c) + index) := by ring
  rw [target, source]
  refine (wantedMap.writes m row rowInside _ bound).trans ?_
  simp only [transposedRow, half, odd, mulAddDiv inside, mulAddMod inside]
  rfl

theorem indicesAt {shift c r index : ℕ} (insideRow : c < node.tile) (insideCol : r < node.tile) (binary : index < 2) :
    node.buildNpu2dTransposeIndices (shift * (2 * node.tile * node.tile) + (2 * (c * node.tile + r) + index)) =
      (2 * (r * node.tile + (c + shift) % node.tile) + index) * floatBytes := by
  have inside : 2 * (c * node.tile + r) + index < 2 * node.tile * node.tile := by
    have := mulAddLt insideRow insideCol
    rw [Nat.mul_assoc]
    omega
  have half : (2 * (c * node.tile + r) + index) / 2 = c * node.tile + r := by omega
  have odd : (2 * (c * node.tile + r) + index) % 2 = index := by omega
  unfold buildNpu2dTransposeIndices
  simp only [mulAddDiv inside, mulAddMod inside, half, odd, mulAddDiv insideCol, mulAddMod insideCol]

variable {batchIndex tile : ℕ}

/- A gathered tile: its rows are the columns of the source. -/
theorem gathered (side : 4 ∣ node.tile) (ok : node.WindowOk tile) {c r index : ℕ} (validCol : c < node.validCols tile)
    (validRow : r < node.validRows tile) (binary : index < 2) (input_ : ℕ → S) :
    node.gatherTile tile (node.loadTile pad input batchIndex tile m input_) (2 * (c * node.tile + r) + index) =
      m (input.at (2 * ((batchIndex * node.rows + (node.rowStart tile + r)) * node.cols + (node.colStart tile + c)) + index)) := by
  have pitch := tilePitch side ok.fits
  have global := rowPitch ((Nat.le_add_left _ _).trans ok.row)
  have column : c + (node.window tile).2.2 < (node.window tile).2.1 := by
    have := ok.wide
    omega
  have position : 2 * (r * node.tile + (c + (node.window tile).2.2)) + index =
      0 + (r * localPitch ((node.window tile).2.1 * complexBytes) (node.kTileDataBlocks - ((node.window tile).2.1 + 3) / 4) +
        (2 * (c + (node.window tile).2.2) + index)) := by
    rw [kTileDataBlocks, pitch.1]
    ring
  unfold gatherTile gather
  dsimp only
  rw [indicesAt (validCol.trans_le (min_le_left _ _)) (validRow.trans_le (min_le_left _ _)) binary,
    Nat.mod_eq_of_lt (column.trans_le ok.fits), Nat.zero_add, Nat.mul_div_cancel _ (by decide), position, loadTile,
    copyPadInAt validRow (by rw [global.2]; omega), global.1, ← ok.start]
  congr 2
  ring

/- What a tile covers. -/
def TileRegion (node : Transpose2d) (output : Address) (batchIndex tile : ℕ) (a : Address) : Prop :=
  ∃ c ∈ List.range (node.validCols tile), ∃ i < 2 * node.validRows tile,
    output.at (2 * ((batchIndex * node.cols + (node.colStart tile + c)) * node.rows + node.rowStart tile) + i) = a

theorem storeFills (apart : input.buffer ≠ output.buffer) (side : 4 ∣ node.tile) (rowInside : batchIndex < batch)
    {output_ : ℕ → S}
    (tileHolds : ∀ c < node.validCols tile, ∀ r < node.validRows tile, ∀ index < 2,
      output_ (2 * (c * node.tile + r) + index) = m (input.at (2 * ((batchIndex * node.rows + (node.rowStart tile + r)) *
        node.cols + (node.colStart tile + c)) + index))) :
    Fills id (Reads input m) (node.wanted batch input output m) m (node.TileRegion output batchIndex tile)
      (node.storeTile output batchIndex tile output_) := by
  have rowsFit : node.validRows tile ≤ node.tile ∧ node.validRows tile ≤ node.rows :=
    ⟨min_le_left _ _, (min_le_right _ _).trans (Nat.sub_le _ _)⟩
  have pitch := tilePitch side rowsFit.1
  have global := rowPitch rowsFit.2
  have place : ∀ c i, 2 * ((batchIndex * node.cols + node.colStart tile) * node.rows + node.rowStart tile) +
      (c * (2 * node.rows) + i) =
      2 * ((batchIndex * node.cols + (node.colStart tile + c)) * node.rows + node.rowStart tile) + i := fun c i => by ring
  unfold storeTile
  refine (copyPadOutFills apart fun c validCol i inPiece => ?_).congr fun a => by
    simp only [global.1, global.2, place]
    rfl
  rw [global.2] at inPiece
  have binary := Nat.mod_lt i (show 0 < 2 by decide)
  have validRow : i / 2 < node.validRows tile := Nat.div_lt_of_lt_mul inPiece
  have inRows : node.rowStart tile + i / 2 < node.rows := Nat.add_lt_of_lt_sub' (validRow.trans_le (min_le_right _ _))
  have inCols : node.colStart tile + c < node.cols := Nat.add_lt_of_lt_sub' (validCol.trans_le (min_le_right _ _))
  have split := Nat.div_add_mod i 2
  have lane : c * localPitch (node.validRows tile * complexBytes) (node.kTileDataBlocks - (node.validRows tile + 3) / 4) + i =
      2 * (c * node.tile + i / 2) + i % 2 := by
    rw [kTileDataBlocks, pitch.1]
    calc c * (2 * node.tile) + i = c * (2 * node.tile) + (2 * (i / 2) + i % 2) := by rw [split]
      _ = _ := by ring
  have target : 2 * ((batchIndex * node.cols + (node.colStart tile + c)) * node.rows + node.rowStart tile) + i =
      2 * ((batchIndex * node.cols + (node.colStart tile + c)) * node.rows + (node.rowStart tile + i / 2)) + i % 2 := by omega
  rw [lane, global.1, place, target, wantedAt rowInside inRows inCols binary]
  exact tileHolds c validCol _ validRow _ binary

theorem tileFills (apart : input.buffer ≠ output.buffer) (side : 4 ∣ node.tile) (positive : 0 < node.tile)
    (small : node.cols < uint32Size) (inside : tileId < batch * node.tilesPerBatch) :
    Fills TileCore.memory (fun core => Reads input m core.memory) (node.wanted batch input output m) m
      (node.TileRegion output (tileId / node.tilesPerBatch) (tileId % node.tilesPerBatch))
      (node.processTile pad input output · tileId) := by
  intro core done reads filled
  have tiles : 0 < node.tilesPerBatch := Nat.pos_of_mul_pos_left (Nat.zero_lt_of_lt inside)
  have rowInside : tileId / node.tilesPerBatch < batch := Nat.div_lt_of_lt_mul (by rwa [Nat.mul_comm])
  have tileInside := Nat.mod_lt tileId tiles
  have ok := windowOk (Nat.le_of_dvd positive side) tileInside small
  refine storeFills apart side rowInside (fun c validCol r validRow index binary => ?_) core.memory done
    reads filled
  rw [gathered side ok validCol validRow binary, reads]

/- The tiles of all matrices cover the result. -/
theorem tilesCover (positive : 0 < node.tile) (a : Address) :
    (∃ tileId < batch * node.tilesPerBatch,
      node.TileRegion output (tileId / node.tilesPerBatch) (tileId % node.tilesPerBatch) a) ↔
      ∃ row < batch, ∃ k < 2 * (node.rows * node.cols), output.row (2 * (node.rows * node.cols)) row k = a := by
  constructor
  · rintro ⟨tileId, inside, c, here, i, inRow, rfl⟩
    have tiles : 0 < node.tilesPerBatch := Nat.pos_of_mul_pos_left (Nat.zero_lt_of_lt inside)
    have col : node.colStart (tileId % node.tilesPerBatch) + c < node.cols :=
      Nat.add_lt_of_lt_sub' ((List.mem_range.mp here).trans_le (min_le_right _ _))
    have row : node.rowStart (tileId % node.tilesPerBatch) + i / 2 < node.rows :=
      Nat.add_lt_of_lt_sub' ((Nat.div_lt_of_lt_mul inRow).trans_le (min_le_right _ _))
    have element := (mulAddLt col row).trans_eq (Nat.mul_comm _ _)
    refine ⟨tileId / node.tilesPerBatch, Nat.div_lt_of_lt_mul (by rwa [Nat.mul_comm]),
      2 * ((node.colStart (tileId % node.tilesPerBatch) + c) * node.rows + node.rowStart (tileId % node.tilesPerBatch)) + i,
      by omega, ?_⟩
    unfold Address.row
    congr 1
    ring
  · rintro ⟨row, rowInside, k, inside, rfl⟩
    have rows : 0 < node.rows := Nat.pos_of_ne_zero fun zero => by rw [zero] at inside; omega
    have col : k / 2 / node.rows < node.cols := Nat.div_lt_of_lt_mul (Nat.div_lt_of_lt_mul inside)
    have inRow := Nat.mod_lt (k / 2) rows
    have rowTile : k / 2 % node.rows / node.tile < node.rowTiles :=
      (ltCeilDiv positive).mpr ((Nat.div_mul_le_self _ _).trans_lt inRow)
    have colTile : k / 2 / node.rows / node.tile < node.colTiles :=
      (ltCeilDiv positive).mpr ((Nat.div_mul_le_self _ _).trans_lt col)
    let tile := k / 2 % node.rows / node.tile * node.colTiles + k / 2 / node.rows / node.tile
    have tileInside : tile < node.tilesPerBatch := mulAddLt rowTile colTile
    have rowStart : node.rowStart tile = k / 2 % node.rows / node.tile * node.tile := by rw [Transpose2d.rowStart, mulAddDiv colTile]
    have colStart : node.colStart tile = k / 2 / node.rows / node.tile * node.tile := by rw [Transpose2d.colStart, mulAddMod colTile]
    have offset : ∀ {o dim}, o < dim → o % node.tile < min node.tile (dim - o / node.tile * node.tile) := fun {o dim} small => by
      have := Nat.div_add_mod' o node.tile
      have := Nat.mod_lt o positive
      omega
    have validCol : k / 2 / node.rows % node.tile < node.validCols tile := by
      rw [validCols, colStart]
      exact offset col
    have validRow : k / 2 % node.rows % node.tile < node.validRows tile := by
      rw [validRows, rowStart]
      exact offset inRow
    refine ⟨row * node.tilesPerBatch + tile, mulAddLt rowInside tileInside, ?_⟩
    rw [mulAddDiv tileInside, mulAddMod tileInside]
    refine ⟨k / 2 / node.rows % node.tile, List.mem_range.mpr validCol, 2 * (k / 2 % node.rows % node.tile) + k % 2, by omega, ?_⟩
    unfold Address.row
    rw [rowStart, colStart, Nat.div_add_mod']
    congr 1
    calc 2 * ((row * node.cols + k / 2 / node.rows) * node.rows + k / 2 % node.rows / node.tile * node.tile) +
          (2 * (k / 2 % node.rows % node.tile) + k % 2)
        = row * (2 * (node.rows * node.cols)) + (2 * (k / 2 / node.rows * node.rows +
          (k / 2 % node.rows / node.tile * node.tile + k / 2 % node.rows % node.tile)) + k % 2) := by ring
      _ = row * (2 * (node.rows * node.cols)) + k := by
        rw [Nat.div_add_mod', Nat.div_add_mod', Nat.div_add_mod]

/- A launch leaves what is wanted, whatever order its blocks run in. -/
theorem launchWanted (apart : input.buffer ≠ output.buffer) (side : 4 ∣ node.tile) (positive : 0 < node.tile)
    (small : node.cols < uint32Size) {blocks : ℕ} (some_ : 0 < batch * node.tilesPerBatch → 0 < blocks)
    (local_ : ℕ → ℕ → S) (schedule : Schedule) (m : Memory S) :
    node.launch pad input output (batch * node.tilesPerBatch) blocks local_ schedule m = node.wanted batch input output m := by
  have fills : Fills id (Reads input m) (node.wanted batch input output m) m
      (fun a => ∃ block ∈ schedule.order blocks, ∃ tileId ∈ strided block (batch * node.tilesPerBatch) blocks,
        node.TileRegion output (tileId / node.tilesPerBatch) (tileId % node.tilesPerBatch) a)
      (node.launch pad input output (batch * node.tilesPerBatch) blocks local_ schedule) := by
    refine Fills.loop fun block here m' done reads filled => ?_
    have tiles : Fills TileCore.memory (fun core => Reads input m core.memory) (node.wanted batch input output m) m
        (fun a => ∃ tileId ∈ strided block (batch * node.tilesPerBatch) blocks,
          node.TileRegion output (tileId / node.tilesPerBatch) (tileId % node.tilesPerBatch) a)
        (node.process pad input output (batch * node.tilesPerBatch) blocks block) := by
      refine Fills.loop fun tileId inside => ?_
      obtain ⟨_, _, small'⟩ := (memStrided (Nat.zero_lt_of_lt (schedule.mem.mp here))).mp inside
      exact tileFills apart side positive small small'
    exact tiles ⟨local_ block, m'⟩ done reads filled
  have taken : ∀ a, (∃ block ∈ schedule.order blocks, ∃ tileId ∈ strided block (batch * node.tilesPerBatch) blocks,
      node.TileRegion output (tileId / node.tilesPerBatch) (tileId % node.tilesPerBatch) a) ↔
      ∃ tileId < batch * node.tilesPerBatch,
        node.TileRegion output (tileId / node.tilesPerBatch) (tileId % node.tilesPerBatch) a := by
    intro a
    constructor
    · rintro ⟨block, here, tileId, inside, covered⟩
      obtain ⟨_, _, small'⟩ := (memStrided (Nat.zero_lt_of_lt (schedule.mem.mp here))).mp inside
      exact ⟨tileId, small', covered⟩
    · rintro ⟨tileId, inside, covered⟩
      have some' := some_ (Nat.zero_lt_of_lt inside)
      exact ⟨tileId % blocks, schedule.mem.mpr (Nat.mod_lt _ some'), tileId,
        (memStrided some').mpr ⟨tileId / blocks, (Nat.mod_add_div' _ _).symm, inside⟩, covered⟩
  refine ((fills.run (s := m) (fun _ => rfl) rfl).congr fun a => (taken a).trans (tilesCover positive a)).unique ⟨fun _ _ => rfl, ?_⟩
  intro a outside
  exact wantedMap.frame m a not_false fun row rowInside k inside same => outside ⟨row, rowInside, k, inside, same.symm⟩

/- What a launch leaves, once it has not been refused. -/
theorem launchExact (apart : input.buffer ≠ output.buffer) (small : node.cols < uint32Size) {status : ℕ → ℕ}
    {local_ : ℕ → ℕ → S} {schedule : Schedule} {m' : Memory S}
    (ran : node.launchAscendcTranspose2d pad input output status batch local_ schedule m = .ok m') :
    m' = node.wanted batch input output m := by
  unfold launchAscendcTranspose2d at ran
  dsimp only at ran
  split at ran
  case isTrue => cases ran
  case isFalse checked =>
    have side : node.tile = 16 ∨ node.tile = 32 ∨ node.tile = 64 := by omega
    split at ran
    case isTrue => cases ran
    case isFalse total =>
      split at ran
      case isTrue =>
        rw [← Except.ok.inj ran, Nat.mul_assoc]
        exact launchWanted apart (by omega) (by omega) small (fun some_ => lt_min some_ (by decide)) local_ schedule m
      case isFalse => cases ran

theorem launchRuns (rows : 4 ≤ node.rows) (cols : 4 ≤ node.cols) (some_ : 0 < batch)
    (side : node.tile = 16 ∨ node.tile = 32 ∨ node.tile = 64) (tiles : batch * node.tilesPerBatch < uint32Size) {status : ℕ → ℕ}
    (accepted : ∀ blocks, status blocks = 0) (pad : S) (local_ : ℕ → ℕ → S) (schedule : Schedule) (m : Memory S) :
    ∃ m', node.launchAscendcTranspose2d pad input output status batch local_ schedule m = .ok m' := by
  have positive : 0 < node.tile := by omega
  have rowTiles : 0 < node.rowTiles := (ltCeilDiv positive).mpr (by omega)
  have colTiles : 0 < node.colTiles := (ltCeilDiv positive).mpr (by omega)
  have total : 0 < batch * node.tilesPerBatch := Nat.mul_pos some_ (Nat.mul_pos rowTiles colTiles)
  unfold launchAscendcTranspose2d
  rw [if_neg (by omega), Nat.mul_assoc, ← tilesPerBatch]
  exact ⟨_, (if_neg (by omega)).trans (if_pos (accepted _))⟩

end Launch

end Transpose2d

section Exact
variable {S : Type*} (input output : Address) (pad : S) (status : ℕ → ℕ)

/- A native transpose that is not refused leaves every element at its place in the result, and everything else alone. -/
theorem nativeTransposesExact (apart : input.buffer ≠ output.buffer) :
    (∀ (node : Transpose3d), Function.Injective node.axes → ∀ elementBytes blockLimit batch local_ schedule (m m' : Memory S),
      node.launchPerm3dNative pad input output Transpose3d.buildNpu3dTransposeIndices status elementBytes blockLimit batch local_
        schedule m = .ok m' →
      (∀ row < batch, ∀ o : Fin 3 → ℕ, (∀ j, o j < node.outDims j) → ∀ index < 2,
        m' (output.row (2 * node.volume) row (2 * ((o 0 * node.outDims 1 + o 1) * node.outDims 2 + o 2) + index)) =
          m (input.row (2 * node.volume) row (2 * node.sourceElement o + index))) ∧
      ∀ a, (∀ row < batch, ∀ k < 2 * node.volume, a ≠ output.row (2 * node.volume) row k) → m' a = m a) ∧
    (∀ (node : Transpose2d) batch local_ schedule (m m' : Memory S),
      node.launchNative pad input output status batch local_ schedule m = .ok m' →
      (∀ row < batch, ∀ r < node.rows, ∀ c < node.cols, ∀ index < 2,
        m' (output.row (2 * (node.rows * node.cols)) row (2 * (c * node.rows + r) + index)) =
          m (input.row (2 * (node.rows * node.cols)) row (2 * (r * node.cols + c) + index))) ∧
      ∀ a, (∀ row < batch, ∀ k < 2 * (node.rows * node.cols), a ≠ output.row (2 * (node.rows * node.cols)) row k) →
        m' a = m a) ∧
    ((∀ blocks, status blocks = 0) →
      (∀ (node : Transpose3d), Function.Injective node.axes → ∀ blockLimit batch local_ schedule (m : Memory S),
        (∀ i, 0 < node.dims i ∧ node.dims i ≤ int32Limit) → batch ≤ int32Limit →
        node.batchChunk blockLimit * node.tilesPerBatch < uint32Size →
        ∃ m', node.launchPerm3dNative pad input output Transpose3d.buildNpu3dTransposeIndices status complexBytes blockLimit batch
          local_ schedule m = .ok m') ∧
      ∀ (node : Transpose2d) batch local_ schedule (m : Memory S), 4 ≤ node.rows → node.rows ≤ int32Limit → 4 ≤ node.cols →
        node.cols ≤ int32Limit → 0 < batch → node.tile = 16 ∨ node.tile = 32 ∨ node.tile = 64 →
        batch * node.tilesPerBatch < uint32Size →
        ∃ m', node.launchNative pad input output status batch local_ schedule m = .ok m') := by
  refine ⟨fun node distinct elementBytes blockLimit batch local_ schedule m m' ran => ?_,
    fun node batch local_ schedule m m' ran => ?_, fun accepted => ⟨fun node distinct blockLimit batch local_ schedule m sizes rows
      blocks => ?_, fun node batch local_ schedule m rows rowsFit cols colsFit some_ side tiles => ?_⟩⟩
  · obtain ⟨writes, frame⟩ := Transpose3d.perm3dExact distinct apart ran
    refine ⟨fun row rowInside o inside index binary => ?_, frame⟩
    have element : (o 0 * node.outDims 1 + o 1) * node.outDims 2 + o 2 < node.volume := by
      rw [← Transpose3d.sameVolume distinct]
      exact cubeLt (inside 0) (inside 1) (inside 2)
    rw [writes row rowInside _ (by omega), Transpose3d.transposedAt inside binary]
  · unfold Transpose2d.launchNative at ran
    split at ran
    case isTrue => cases ran
    case isFalse checked =>
      have small : node.cols < uint32Size := by
        have limit : int32Limit < uint32Size := by decide
        omega
      split at ran
      case h_2 => cases ran
      case h_1 launched =>
        rw [← Except.ok.inj ran, Transpose2d.launchExact apart small launched]
        refine ⟨fun row rowInside r inRows c inCols index binary => ?_, fun a outside => Transpose2d.wantedMap.frame m a not_false outside⟩
        have target : row * (2 * (node.rows * node.cols)) + (2 * (c * node.rows + r) + index) =
          2 * ((row * node.cols + c) * node.rows + r) + index := by ring
        have source : row * (2 * (node.rows * node.cols)) + (2 * (r * node.cols + c) + index) =
          2 * ((row * node.rows + r) * node.cols + c) + index := by ring
        unfold Address.row
        rw [target, source]
        exact Transpose2d.wantedAt rowInside inRows inCols binary
  · exact Transpose3d.perm3dRuns distinct (fun i => (sizes i).1) (fun i => (sizes i).2) rows blocks accepted pad local_ schedule m
  · have runs : ∃ m', node.launchAscendcTranspose2d pad input output status batch local_ schedule m = .ok m' :=
      Transpose2d.launchRuns rows cols some_ side tiles accepted pad local_ schedule m
    obtain ⟨m', launched⟩ := runs
    refine ⟨m', ?_⟩
    unfold Transpose2d.launchNative
    rw [if_neg (by omega), launched]

/- Two blocks of 3 by 5 by 18 elements, the last axis brought to the front; its last tile is shifted by two columns. -/
theorem nativeTransposesExactOfBlocks :
    (⟨0, 0⟩ : Address).buffer ≠ (⟨1, 0⟩ : Address).buffer ∧ ∃ m' : Memory ℕ,
      (Transpose3d.mk ![3, 5, 18] ![2, 0, 1]).launchPerm3dNative 0 ⟨0, 0⟩ ⟨1, 0⟩ Transpose3d.buildNpu3dTransposeIndices
        (fun _ => 0) complexBytes 65535 2 (fun _ _ _ => 7) ascending (fun a => a.offset) = .ok m' ∧
      m' ((⟨1, 0⟩ : Address).row 540 1 (2 * ((17 * 3 + 2) * 5 + 4) + 1)) = 540 + (2 * ((2 * 5 + 4) * 18 + 17) + 1) := by
  have distinct : Function.Injective (![2, 0, 1] : Fin 3 → Fin 3) := by decide
  have exact_ := nativeTransposesExact (S := ℕ) ⟨0, 0⟩ ⟨1, 0⟩ 0 (fun _ => 0) (by decide)
  obtain ⟨m', ran⟩ := (exact_.2.2 fun _ => rfl).1 (Transpose3d.mk ![3, 5, 18] ![2, 0, 1]) distinct 65535 2 (fun _ _ _ => 7) ascending
    (fun a => a.offset) (by decide) (by decide) (by decide)
  have written := (exact_.1 _ distinct _ _ _ _ _ _ m' ran).1 1 (by decide) ![17, 2, 4] (by decide) 1 (by decide)
  exact ⟨by decide, m', ran, written⟩

end Exact

end FlagFft.Npu
