import FlagFft.Npu.Ascend
import FlagFft.Batch
import Mathlib.Algebra.BigOperators.Fin
import Mathlib.Tactic.FinCases
import Mathlib.Tactic.IntervalCases

/-! The native transpose of three axes. A core copies a tile of the source into local memory, gathers it into the order of
the result through a table, and copies it out; a tile at the end of a source row is read from a window that starts
earlier, and its table is shifted by as much. -/
namespace FlagFft.Npu
open Library.Indexing Library.Filling Library.Stores

def int32Limit : ℕ := 2 ^ 31 - 1

/- Three numbers, each at its axis. -/
def atAxes (axes : Fin 3 → Fin 3) (v : Fin 3 → ℕ) : Fin 3 → ℕ :=
  Function.update (Function.update (Function.update (fun _ => 0) (axes 0) (v 0)) (axes 1) (v 1)) (axes 2) (v 2)

section Axes
variable {axes : Fin 3 → Fin 3}

theorem atAxesAt (distinct : Function.Injective axes) (v : Fin 3 → ℕ) (j : Fin 3) : atAxes axes v (axes j) = v j := by
  unfold atAxes
  fin_cases j <;> simp [distinct.eq_iff]

theorem axesOnto (distinct : Function.Injective axes) (i : Fin 3) : ∃ j, axes j = i :=
  Finite.injective_iff_surjective.mp distinct i

end Axes

structure Transpose3d where
  dims : Fin 3 → ℕ
  axes : Fin 3 → Fin 3

namespace Transpose3d

def kTile : ℕ := 16

def kTileDataBlocks : ℕ := kTile * complexBytes / blockBytes

section Tables

/- Byte offsets of a tile, for one order of the axes and one shift of the last source axis. -/
def orderIndices (order : Fin 3 → Fin 3) (tailShift float : ℕ) : ℕ :=
  let element := float / 2
  let inputCoords := atAxes order ![element / kTile / kTile, element / kTile % kTile, element % kTile]
  let column := if tailShift ≠ 0 then (inputCoords 2 + tailShift) % kTile else inputCoords 2
  (2 * ((inputCoords 0 * kTile + inputCoords 1) * kTile + column) + float % 2) * floatBytes

def kOrders : List (Fin 3 → Fin 3) := [![0, 2, 1], ![2, 1, 0], ![2, 0, 1], ![1, 2, 0], ![1, 0, 2], ![0, 1, 2]]

def buildNpu3dTransposeIndices : List (ℕ → ℕ) :=
  (List.range 4).flatMap fun tailShift => kOrders.map fun order => orderIndices order tailShift

end Tables

variable (node : Transpose3d)

def outDims (j : Fin 3) : ℕ := node.dims (node.axes j)

def tileCounts (j : Fin 3) : ℕ := ceilDiv (node.outDims j) kTile

def tilesPerBatch : ℕ := node.tileCounts 0 * node.tileCounts 1 * node.tileCounts 2

def volume : ℕ := node.dims 0 * node.dims 1 * node.dims 2

/- Where a tile starts in the result, and how much of it is inside. -/
def outStart (tile : ℕ) : Fin 3 → ℕ :=
  ![tile / node.tileCounts 2 / node.tileCounts 1 * kTile, tile / node.tileCounts 2 % node.tileCounts 1 * kTile,
    tile % node.tileCounts 2 * kTile]

def outValid (tile : ℕ) (j : Fin 3) : ℕ := min kTile (node.outDims j - node.outStart tile j)

def inStart (tile : ℕ) : Fin 3 → ℕ := atAxes node.axes (node.outStart tile)

def inValid (tile : ℕ) : Fin 3 → ℕ := atAxes node.axes (node.outValid tile)

/- The window of the last source axis: its start, its width, and by how much the tile starts later. -/
def window (tile : ℕ) : ℕ × ℕ × ℕ :=
  let start := node.inStart tile 2
  let valid := node.inValid tile 2
  if valid < kTile ∧ valid % 4 ≠ 0 ∧ 4 ≤ node.dims 2 then
    let alignedWidth := (valid + 3) / 4 * 4
    -- unsigned, so a row shorter than the window gives a start beyond it
    let alignedStart := (uint32Size + node.dims 2 - alignedWidth) % uint32Size
    if alignedStart ≤ start then (alignedStart, alignedWidth, start - alignedStart) else (start, valid, 0)
  else (start, valid, 0)

section Kernel
variable {S : Type*} (indices edgeIndices : ℕ → ℕ) (pad : S) (input output : Address)

/- Row `row0` of a tile of the source, and the rows behind it. -/
def loadSlab (batchIndex tile : ℕ) (m : Memory S) (input_ : ℕ → S) (row0 : ℕ) : ℕ → S :=
  let start := (node.window tile).1
  let valid := (node.window tile).2.1
  let inputOffset := batchIndex * node.volume + (node.inStart tile 0 + row0) * node.dims 1 * node.dims 2 +
    node.inStart tile 1 * node.dims 2 + start
  copyPadIn pad (node.inValid tile 1) (valid * complexBytes) ((node.dims 2 - valid) * complexBytes)
    (kTileDataBlocks - (valid + 3) / 4) (fun i => m (input.at (2 * inputOffset + i))) (2 * (row0 * kTile * kTile)) input_

def storeSlab (batchIndex tile : ℕ) (output_ : ℕ → S) (m : Memory S) (row0 : ℕ) : Memory S :=
  let start := node.outStart tile
  let valid := node.outValid tile
  let outputOffset := batchIndex * node.volume + (start 0 + row0) * node.outDims 1 * node.outDims 2 +
    start 1 * node.outDims 2 + start 2
  copyPadOut (valid 1) (valid 2 * complexBytes) (kTileDataBlocks - (valid 2 + 3) / 4)
    ((node.outDims 2 - valid 2) * complexBytes) (fun i => output_ (2 * (row0 * kTile * kTile) + i))
    (fun i => output.at (2 * outputOffset + i)) m

def processTile (batchIndex tile : ℕ) (input_ : ℕ → S) (m : Memory S) : Memory S :=
  let input_ := (List.range (node.inValid tile 0)).foldl (node.loadSlab pad input batchIndex tile m) input_
  let index := if (node.window tile).2.2 ≠ 0 then edgeIndices else indices
  let output_ := gather input_ index 0
  (List.range (node.outValid tile 0)).foldl (node.storeSlab output batchIndex tile output_) m

def process (batch block : ℕ) (input_ : ℕ → S) (m : Memory S) : Memory S :=
  if batch ≤ block / node.tilesPerBatch then m
  else node.processTile indices edgeIndices pad input output (block / node.tilesPerBatch) (block % node.tilesPerBatch) input_ m

/- Each core starts with whatever its local memory holds. -/
def launch (batch blocks : ℕ) (local_ : ℕ → ℕ → S) (schedule : Schedule) (m : Memory S) : Memory S :=
  (schedule.order blocks).foldl
    (fun m block => node.process indices edgeIndices pad input output batch block (local_ block) m) m

/- The vendor's launcher answers a number of blocks with a status; only a launch with status 0 has run. -/
def launchAscendcTranspose3d (status : ℕ → ℕ) (batch : ℕ) (local_ : ℕ → ℕ → S) (schedule : Schedule) (m : Memory S) :
    Except Failure (Memory S) :=
  if node.dims 0 = 0 ∨ node.dims 1 = 0 ∨ node.dims 2 = 0 ∨ batch = 0 ∨ node.axes 0 = node.axes 1 ∨
      node.axes 0 = node.axes 2 ∨ node.axes 1 = node.axes 2 then .error .invalidSize
  else
    let blocks := batch * node.tileCounts 0 * node.tileCounts 1 * node.tileCounts 2
    if blocks = 0 ∨ uint32Size ≤ blocks then .error .invalidSize
    else if status blocks = 0 then
      .ok (node.launch indices edgeIndices pad input output batch blocks local_ schedule m)
    else .error .execFailed

end Kernel

section Host
variable {S : Type*} (pad : S) (input output : Address)

def orderIndex : ℕ :=
  if node.axes 0 = 0 ∧ node.axes 1 = 2 ∧ node.axes 2 = 1 then 0
  else if node.axes 0 = 2 ∧ node.axes 1 = 1 ∧ node.axes 2 = 0 then 1
  else if node.axes 0 = 2 ∧ node.axes 1 = 0 ∧ node.axes 2 = 1 then 2
  else if node.axes 0 = 1 ∧ node.axes 1 = 2 ∧ node.axes 2 = 0 then 3
  else if node.axes 0 = 1 ∧ node.axes 1 = 0 ∧ node.axes 2 = 2 then 4
  else 5

def tailShift : ℕ :=
  let remainder := node.dims 2 % 16
  if remainder % 4 = 0 then 0 else (remainder + 3) / 4 * 4 - remainder

/- The native branch: the tables of the order, and chunks of batch elements with the pointers moved. -/
def launchPerm3dNative (npuIndices : List (ℕ → ℕ)) (status : ℕ → ℕ) (elementBytes blockLimit batch : ℕ)
    (local_ : ℕ → ℕ → ℕ → S) (schedule : Schedule) (m : Memory S) : Except Failure (Memory S) :=
  if npuIndices.length ≠ 24 ∨ elementBytes ≠ complexBytes ∨ int32Limit < node.dims 0 ∨ int32Limit < node.dims 1 ∨
      int32Limit < node.dims 2 ∨ int32Limit < batch then .error .invalidSize
  else
    let perBatchTiles := (node.dims 0 + 15) / 16 * ((node.dims 1 + 15) / 16) * ((node.dims 2 + 15) / 16)
    let batchChunk := max 1 (blockLimit / max 1 perBatchTiles)
    let indices := npuIndices.getD node.orderIndex fun _ => 0
    let edgeIndices := if node.tailShift = 0 then fun _ => 0
      else npuIndices.getD (6 + (node.tailShift - 1) * 6 + node.orderIndex) fun _ => 0
    (batchChunks batch batchChunk).foldlM (fun m (offset, count) =>
      node.launchAscendcTranspose3d indices edgeIndices pad (input.at (offset * (2 * node.volume)))
        (output.at (offset * (2 * node.volume))) status count (local_ offset) schedule m) m

end Host

section Tiles
variable {node : Transpose3d} {tile : ℕ}

theorem outStartAt {t0 t1 t2 : ℕ} (h1 : t1 < node.tileCounts 1) (h2 : t2 < node.tileCounts 2) :
    node.outStart (cube (node.tileCounts 1) (node.tileCounts 2) t0 t1 t2) = ![t0 * kTile, t1 * kTile, t2 * kTile] := by
  unfold outStart
  rw [cubeDiv h2, cubeMod h2, mulAddDiv h1, mulAddMod h1]

/- A tile of the grid. -/
theorem outStartLt (inside : tile < node.tilesPerBatch) (j : Fin 3) :
    node.outStart tile j < node.outDims j ∧ kTile ∣ node.outStart tile j := by
  obtain ⟨t0, h0, t1, h1, t2, h2, rfl⟩ :=
    cubeOf (show tile < node.tileCounts 0 * node.tileCounts 1 * node.tileCounts 2 from inside)
  have count : ∀ j t, t < node.tileCounts j → t * kTile < node.outDims j := fun j t small => (ltCeilDiv (by decide)).mp small
  rw [outStartAt h1 h2]
  fin_cases j
  · exact ⟨count 0 t0 h0, Nat.dvd_mul_left _ _⟩
  · exact ⟨count 1 t1 h1, Nat.dvd_mul_left _ _⟩
  · exact ⟨count 2 t2 h2, Nat.dvd_mul_left _ _⟩

variable (distinct : Function.Injective node.axes)
include distinct

/- The same of the source. -/
theorem inStartLt (inside : tile < node.tilesPerBatch) (i : Fin 3) :
    node.inStart tile i < node.dims i ∧ kTile ∣ node.inStart tile i ∧
      node.inValid tile i = min kTile (node.dims i - node.inStart tile i) := by
  obtain ⟨j, rfl⟩ := axesOnto distinct i
  unfold inStart inValid
  rw [atAxesAt distinct, atAxesAt distinct]
  exact ⟨(outStartLt inside j).1, (outStartLt inside j).2, rfl⟩

/- The window holds the tile, and ends with the row. -/
structure WindowOk (node : Transpose3d) (tile : ℕ) : Prop where
  start : (node.window tile).1 + (node.window tile).2.2 = node.inStart tile 2
  wide : (node.window tile).2.2 + node.inValid tile 2 ≤ (node.window tile).2.1
  fits : (node.window tile).2.1 ≤ kTile
  row : (node.window tile).1 + (node.window tile).2.1 ≤ node.dims 2
  shift : (node.window tile).2.2 ≠ 0 → (node.window tile).2.2 = node.tailShift

theorem windowOk (inside : tile < node.tilesPerBatch) (small : node.dims 2 < uint32Size) : node.WindowOk tile := by
  obtain ⟨start, aligned, valid⟩ := inStartLt distinct inside 2
  have width : kTile = 16 := rfl
  have size : uint32Size = 4294967296 := rfl
  unfold kTile at aligned
  by_cases tail : node.inValid tile 2 < kTile ∧ node.inValid tile 2 % 4 ≠ 0 ∧ 4 ≤ node.dims 2
  · by_cases long : (uint32Size + node.dims 2 - (node.inValid tile 2 + 3) / 4 * 4) % uint32Size ≤ node.inStart tile 2
    · have window : node.window tile = _ := (if_pos tail).trans (if_pos long)
      rw [size] at long
      have remainder : node.tailShift = (node.dims 2 % 16 + 3) / 4 * 4 - node.dims 2 % 16 := if_neg (by omega)
      constructor <;> simp only [window, remainder, size] <;> omega
    · have window : node.window tile = _ := (if_pos tail).trans (if_neg long)
      constructor <;> simp only [window] <;> omega
  · have window : node.window tile = _ := if_neg tail
    constructor <;> simp only [window] <;> omega

end Tiles

section Load
variable {S : Type*} {node : Transpose3d} {tile batchIndex : ℕ} {pad : S} {input : Address} {m : Memory S}

theorem slabPitch {valid : ℕ} (fits : valid ≤ kTile) :
    localPitch (valid * complexBytes) (kTileDataBlocks - (valid + 3) / 4) = 2 * kTile ∧
      paddedFloats (valid * complexBytes) ≤ 2 * kTile :=
  tilePitch (by decide) fits

/- What local memory is to hold: the window of each row of the tile, filled up. -/
def loaded (node : Transpose3d) (pad : S) (input : Address) (batchIndex tile : ℕ) (m : Memory S) (j : ℕ) : S :=
  let row := j / (2 * kTile)
  let column := j % (2 * kTile)
  let inputOffset := batchIndex * node.volume + (node.inStart tile 0 + row / kTile) * node.dims 1 * node.dims 2 +
    (node.inStart tile 1 + row % kTile) * node.dims 2 + (node.window tile).1
  if column < 2 * (node.window tile).2.1 then m (input.at (2 * inputOffset + column)) else pad

theorem loadedAt (ok : node.WindowOk tile) (rows : node.inValid tile 0 ≤ kTile ∧ node.inValid tile 1 ≤ kTile) {r0 r1 column : ℕ}
    (inside0 : r0 < node.inValid tile 0) (inside1 : r1 < node.inValid tile 1) (inside : column < 2 * (node.window tile).2.1)
    (input_ : ℕ → S) :
    (List.range (node.inValid tile 0)).foldl (node.loadSlab pad input batchIndex tile m) input_
        (2 * (r0 * kTile * kTile) + (r1 * (2 * kTile) + column)) =
      m (input.at (2 * (batchIndex * node.volume + (node.inStart tile 0 + r0) * node.dims 1 * node.dims 2 +
        (node.inStart tile 1 + r1) * node.dims 2 + (node.window tile).1) + column)) := by
  have pitch := slabPitch ok.fits
  have global := rowPitch ((Nat.le_add_left _ _).trans ok.row)
  have place : ∀ r0 {r1 i}, r1 < kTile → i < 2 * kTile →
      (2 * (r0 * kTile * kTile) + (r1 * (2 * kTile) + i)) / (2 * kTile) / kTile = r0 ∧
      (2 * (r0 * kTile * kTile) + (r1 * (2 * kTile) + i)) / (2 * kTile) % kTile = r1 ∧
      (2 * (r0 * kTile * kTile) + (r1 * (2 * kTile) + i)) % (2 * kTile) = i := by
    unfold kTile
    omega
  have slabs : Fills id (fun _ => True) (node.loaded pad input batchIndex tile m) input_
      (fun j => ∃ r0 ∈ List.range (node.inValid tile 0), ∃ r1 ∈ List.range (node.inValid tile 1),
        ∃ i < paddedFloats ((node.window tile).2.1 * complexBytes), 2 * (r0 * kTile * kTile) + (r1 * (2 * kTile) + i) = j)
      ((List.range (node.inValid tile 0)).foldl (node.loadSlab pad input batchIndex tile m)) := by
    refine Fills.loop fun r0 here => ?_
    unfold loadSlab
    refine (copyPadInFills fun r1 small i inPiece => ?_).congr fun j => by rw [pitch.1]
    have narrow := small.trans_le rows.2
    obtain ⟨slab, row, column⟩ := place r0 narrow (inPiece.trans_le pitch.2)
    rw [pitch.1]
    simp only [loaded, slab, row, column, global.1, global.2]
    congr 3
    ring
  have filled := slabs.run (s := input_) trivial rfl
  have inPiece : column < paddedFloats ((node.window tile).2.1 * complexBytes) := by
    unfold paddedFloats ceilDiv complexBytes blockBytes floatBytes
    omega
  refine (filled.there _ ⟨r0, List.mem_range.mpr inside0, r1, List.mem_range.mpr inside1, column, inPiece, rfl⟩).trans ?_
  obtain ⟨slab, row, position⟩ := place r0 (inside1.trans_le rows.2) (inPiece.trans_le pitch.2)
  simp only [loaded, slab, row, position, if_pos inside]

/- The element of the source that element `o` of the result is. -/
def sourceElement (node : Transpose3d) (o : Fin 3 → ℕ) : ℕ :=
  let i := atAxes node.axes o
  (i 0 * node.dims 1 + i 1) * node.dims 2 + i 2

theorem orderIndicesAt {order : Fin 3 → Fin 3} {tailShift index : ℕ} {o : Fin 3 → ℕ} (inside : ∀ j, o j < kTile) (binary : index < 2) :
    orderIndices order tailShift (2 * ((o 0 * kTile + o 1) * kTile + o 2) + index) =
      (2 * ((atAxes order o 0 * kTile + atAxes order o 1) * kTile +
        if tailShift ≠ 0 then (atAxes order o 2 + tailShift) % kTile else atAxes order o 2) + index) * floatBytes := by
  have element : (2 * ((o 0 * kTile + o 1) * kTile + o 2) + index) / 2 = (o 0 * kTile + o 1) * kTile + o 2 := by omega
  have odd : (2 * ((o 0 * kTile + o 1) * kTile + o 2) + index) % 2 = index := by omega
  have coords : ![((o 0 * kTile + o 1) * kTile + o 2) / kTile / kTile, ((o 0 * kTile + o 1) * kTile + o 2) / kTile % kTile,
      ((o 0 * kTile + o 1) * kTile + o 2) % kTile] = o := by
    rw [mulAddDiv (inside 2), mulAddMod (inside 2), mulAddDiv (inside 1), mulAddMod (inside 1)]
    funext j
    fin_cases j <;> rfl
  unfold orderIndices
  simp only [element, odd, coords]

/- A gathered tile, in the order of the result. -/
theorem gathered (distinct : Function.Injective node.axes) (inside : tile < node.tilesPerBatch)
    (small : node.dims 2 < uint32Size) {indices edgeIndices : ℕ → ℕ} (table : indices = orderIndices node.axes 0)
    (edge : node.tailShift ≠ 0 → edgeIndices = orderIndices node.axes node.tailShift) {o : Fin 3 → ℕ}
    (valid : ∀ j, o j < node.outValid tile j) {index : ℕ} (binary : index < 2) (input_ : ℕ → S) :
    gather ((List.range (node.inValid tile 0)).foldl (node.loadSlab pad input batchIndex tile m) input_)
        (if (node.window tile).2.2 ≠ 0 then edgeIndices else indices) 0 (2 * ((o 0 * kTile + o 1) * kTile + o 2) + index) =
      m (input.at (2 * (batchIndex * node.volume + node.sourceElement fun j => node.outStart tile j + o j) + index)) := by
  have ok := windowOk distinct inside small
  have inTile : ∀ j, o j < kTile := fun j => (valid j).trans_le (min_le_left _ _)
  have source : ∀ i, atAxes node.axes o i < node.inValid tile i ∧
      atAxes node.axes (fun j => node.outStart tile j + o j) i = node.inStart tile i + atAxes node.axes o i := by
    intro i
    obtain ⟨j, rfl⟩ := axesOnto distinct i
    unfold inValid inStart
    simp only [atAxesAt distinct]
    exact ⟨valid j, trivial⟩
  have rows : ∀ i, node.inValid tile i ≤ kTile := fun i => (inStartLt distinct inside i).2.2 ▸ min_le_left _ _
  -- the column of the window, shifted or not
  have column : (if (node.window tile).2.2 ≠ 0 then edgeIndices else indices) (2 * ((o 0 * kTile + o 1) * kTile + o 2) + index) =
      (2 * ((atAxes node.axes o 0 * kTile + atAxes node.axes o 1) * kTile + (atAxes node.axes o 2 + (node.window tile).2.2)) +
        index) * floatBytes := by
    have fits := ok.wide.trans ok.fits
    have third := (source 2).1
    by_cases shifted : (node.window tile).2.2 ≠ 0
    · have shift := ok.shift shifted
      rw [if_pos shifted, edge (shift ▸ shifted), orderIndicesAt inTile binary, if_pos (shift ▸ shifted), ← shift,
        Nat.mod_eq_of_lt (by omega)]
    · rw [if_neg shifted, table, orderIndicesAt inTile binary, if_neg (by simp), not_not.mp shifted, Nat.add_zero]
  have position : 2 * ((atAxes node.axes o 0 * kTile + atAxes node.axes o 1) * kTile +
      (atAxes node.axes o 2 + (node.window tile).2.2)) + index =
      2 * (atAxes node.axes o 0 * kTile * kTile) + (atAxes node.axes o 1 * (2 * kTile) +
        (2 * (atAxes node.axes o 2 + (node.window tile).2.2) + index)) := by ring
  have inWindow := ok.wide
  have third := (source 2).1
  rw [gather, column, Nat.zero_add, Nat.mul_div_cancel _ (by decide), position,
    loadedAt ok ⟨rows 0, rows 1⟩ (source 0).1 (source 1).1 (by omega)]
  unfold sourceElement
  simp only [(source 0).2, (source 1).2, (source 2).2, ← ok.start]
  congr 2
  ring

end Load

section Launch
variable {S : Type*} {node : Transpose3d} {batch tile batchIndex : ℕ} {pad : S} {input output : Address} {m : Memory S}

def outVolume (node : Transpose3d) : ℕ := node.outDims 0 * node.outDims 1 * node.outDims 2

theorem sameVolume (distinct : Function.Injective node.axes) : node.outVolume = node.volume := by
  have bijective : Function.Bijective node.axes := Finite.injective_iff_bijective.mp distinct
  have product := bijective.prod_comp node.dims
  rw [Fin.prod_univ_three, Fin.prod_univ_three] at product
  exact product

/- A row of the result: one batch element, its axes in the new order. -/
def transposedRow (node : Transpose3d) (x : ℕ → S) (k : ℕ) : S :=
  let element := k / 2
  x (2 * node.sourceElement ![element / node.outDims 2 / node.outDims 1, element / node.outDims 2 % node.outDims 1,
    element % node.outDims 2] + k % 2)

theorem transposedAt {x : ℕ → S} {o : Fin 3 → ℕ} (inside : ∀ j, o j < node.outDims j) {index : ℕ} (binary : index < 2) :
    node.transposedRow x (2 * ((o 0 * node.outDims 1 + o 1) * node.outDims 2 + o 2) + index) =
      x (2 * node.sourceElement o + index) := by
  have element : (2 * ((o 0 * node.outDims 1 + o 1) * node.outDims 2 + o 2) + index) / 2 =
    (o 0 * node.outDims 1 + o 1) * node.outDims 2 + o 2 := by omega
  have odd : (2 * ((o 0 * node.outDims 1 + o 1) * node.outDims 2 + o 2) + index) % 2 = index := by omega
  have coords : ![((o 0 * node.outDims 1 + o 1) * node.outDims 2 + o 2) / node.outDims 2 / node.outDims 1,
      ((o 0 * node.outDims 1 + o 1) * node.outDims 2 + o 2) / node.outDims 2 % node.outDims 1,
      ((o 0 * node.outDims 1 + o 1) * node.outDims 2 + o 2) % node.outDims 2] = o := by
    rw [mulAddDiv (inside 2), mulAddMod (inside 2), mulAddDiv (inside 1), mulAddMod (inside 1)]
    funext j
    fin_cases j <;> rfl
  unfold transposedRow
  simp only [element, odd, coords]

/- The memory the transpose is to leave. -/
noncomputable def wanted (node : Transpose3d) (batch : ℕ) (input output : Address) (m : Memory S) : Memory S :=
  idealLayout (2 * node.volume) batch node.transposedRow (input.row (2 * node.volume)) (output.row (2 * node.volume)) m

theorem wantedMap : LayoutMap (node.wanted batch input output (S := S)) (fun _ => False) (input.row (2 * node.volume))
    (output.row (2 * node.volume)) (2 * node.volume) batch node.transposedRow :=
  idealLayoutMap (Address.strideInjective le_rfl)

theorem wantedAt (distinct : Function.Injective node.axes) (rowInside : batchIndex < batch) {o : Fin 3 → ℕ}
    (inside : ∀ j, o j < node.outDims j) {index : ℕ} (binary : index < 2) :
    node.wanted batch input output m
        (output.at (2 * (batchIndex * node.volume + ((o 0 * node.outDims 1 + o 1) * node.outDims 2 + o 2)) + index)) =
      m (input.at (2 * (batchIndex * node.volume + node.sourceElement o) + index)) := by
  have element : (o 0 * node.outDims 1 + o 1) * node.outDims 2 + o 2 < node.volume := by
    rw [← sameVolume distinct]
    exact cubeLt (inside 0) (inside 1) (inside 2)
  have place : ∀ e, 2 * (batchIndex * node.volume + e) + index = batchIndex * (2 * node.volume) + (2 * e + index) := fun e => by
    ring
  have bound : 2 * ((o 0 * node.outDims 1 + o 1) * node.outDims 2 + o 2) + index < 2 * node.volume := by omega
  rw [place, place]
  exact (wantedMap.writes m batchIndex rowInside _ bound).trans (transposedAt inside binary)

/- What a tile covers. -/
def TileRegion (node : Transpose3d) (output : Address) (batchIndex tile : ℕ) (a : Address) : Prop :=
  ∃ r0 ∈ List.range (node.outValid tile 0), ∃ r1 ∈ List.range (node.outValid tile 1), ∃ i < 2 * node.outValid tile 2,
    output.at (2 * (batchIndex * node.volume + (((node.outStart tile 0 + r0) * node.outDims 1 + (node.outStart tile 1 + r1)) *
      node.outDims 2 + node.outStart tile 2)) + i) = a

theorem tileFills (distinct : Function.Injective node.axes) (apart : input.buffer ≠ output.buffer) (rowInside : batchIndex < batch)
    (inside : tile < node.tilesPerBatch) (small : node.dims 2 < uint32Size) {indices edgeIndices : ℕ → ℕ}
    (table : indices = orderIndices node.axes 0) (edge : node.tailShift ≠ 0 → edgeIndices = orderIndices node.axes node.tailShift)
    (input_ : ℕ → S) :
    Fills id (Reads input m) (node.wanted batch input output m) m (node.TileRegion output batchIndex tile)
      (node.processTile indices edgeIndices pad input output batchIndex tile input_) := by
  intro m' done reads filled
  have fits : node.outValid tile 2 ≤ kTile ∧ node.outValid tile 2 ≤ node.outDims 2 :=
    ⟨min_le_left _ _, (min_le_right _ _).trans (Nat.sub_le _ _)⟩
  have pitch := slabPitch fits.1
  have global := rowPitch fits.2
  have slabs : Fills id (Reads input m) (node.wanted batch input output m) m (node.TileRegion output batchIndex tile)
      ((List.range (node.outValid tile 0)).foldl (node.storeSlab output batchIndex tile (gather
        ((List.range (node.inValid tile 0)).foldl (node.loadSlab pad input batchIndex tile m') input_)
        (if (node.window tile).2.2 ≠ 0 then edgeIndices else indices) 0))) := by
    refine Fills.loop fun r0 here => ?_
    have place : ∀ r1 i, 2 * (batchIndex * node.volume + (node.outStart tile 0 + r0) * node.outDims 1 * node.outDims 2 +
        node.outStart tile 1 * node.outDims 2 + node.outStart tile 2) + (r1 * (2 * node.outDims 2) + i) =
        2 * (batchIndex * node.volume + (((node.outStart tile 0 + r0) * node.outDims 1 + (node.outStart tile 1 + r1)) *
          node.outDims 2 + node.outStart tile 2)) + i := fun r1 i => by ring
    unfold storeSlab
    refine (copyPadOutFills apart fun r1 valid1 i inPiece => ?_).congr fun a => by simp only [global.1, global.2, place]
    rw [global.2] at inPiece
    let o : Fin 3 → ℕ := ![r0, r1, i / 2]
    have valid : ∀ j, o j < node.outValid tile j := by
      rw [List.mem_range] at here
      intro j
      fin_cases j
      · exact here
      · exact valid1
      · exact Nat.div_lt_of_lt_mul inPiece
    have inDims : ∀ j, node.outStart tile j + o j < node.outDims j := fun j =>
      Nat.add_lt_of_lt_sub' ((valid j).trans_le (min_le_right _ _))
    have binary := Nat.mod_lt i (show 0 < 2 by decide)
    have lane : 2 * (r0 * kTile * kTile) + (r1 * localPitch (node.outValid tile 2 * complexBytes)
        (kTileDataBlocks - (node.outValid tile 2 + 3) / 4) + i) = 2 * ((o 0 * kTile + o 1) * kTile + o 2) + i % 2 := by
      have split := Nat.div_add_mod i 2
      rw [pitch.1]
      calc 2 * (r0 * kTile * kTile) + (r1 * (2 * kTile) + i)
          = 2 * (r0 * kTile * kTile) + (r1 * (2 * kTile) + (2 * (i / 2) + i % 2)) := by rw [split]
        _ = 2 * ((r0 * kTile + r1) * kTile + i / 2) + i % 2 := by ring
    have target : 2 * (batchIndex * node.volume + (((node.outStart tile 0 + o 0) * node.outDims 1 + (node.outStart tile 1 + o 1)) *
        node.outDims 2 + (node.outStart tile 2 + o 2))) + i % 2 =
        2 * (batchIndex * node.volume + (((node.outStart tile 0 + r0) * node.outDims 1 + (node.outStart tile 1 + r1)) *
          node.outDims 2 + node.outStart tile 2)) + i := by
      have split := Nat.div_add_mod i 2
      calc _ = 2 * (batchIndex * node.volume + (((node.outStart tile 0 + r0) * node.outDims 1 + (node.outStart tile 1 + r1)) *
            node.outDims 2 + node.outStart tile 2)) + (2 * (i / 2) + i % 2) := by
            change 2 * (batchIndex * node.volume + (((node.outStart tile 0 + r0) * node.outDims 1 + (node.outStart tile 1 + r1)) *
              node.outDims 2 + (node.outStart tile 2 + i / 2))) + i % 2 = _
            ring
        _ = _ := by rw [split]
    rw [lane, global.1, place, ← target, wantedAt distinct rowInside inDims binary, ← reads]
    exact gathered distinct inside small table edge valid binary input_
  exact slabs m' done reads filled

/- The tiles of all batch elements cover the result. -/
theorem tilesCover (distinct : Function.Injective node.axes) (a : Address) :
    (∃ block < batch * node.tilesPerBatch, node.TileRegion output (block / node.tilesPerBatch) (block % node.tilesPerBatch) a) ↔
      ∃ row < batch, ∃ k < 2 * node.volume, output.row (2 * node.volume) row k = a := by
  constructor
  · rintro ⟨block, inside, r0, here0, r1, here1, i, here2, rfl⟩
    have positive : 0 < node.tilesPerBatch := Nat.pos_of_mul_pos_left (Nat.zero_lt_of_lt inside)
    have valid : ∀ j r, r < node.outValid (block % node.tilesPerBatch) j →
        node.outStart (block % node.tilesPerBatch) j + r < node.outDims j := fun j r small =>
      Nat.add_lt_of_lt_sub' (small.trans_le (min_le_right _ _))
    have element := cubeLt (valid 0 r0 (List.mem_range.mp here0)) (valid 1 r1 (List.mem_range.mp here1))
      (valid 2 (i / 2) (Nat.div_lt_of_lt_mul here2))
    rw [show node.outDims 0 * node.outDims 1 * node.outDims 2 = node.volume from sameVolume distinct] at element
    refine ⟨block / node.tilesPerBatch, Nat.div_lt_of_lt_mul (by rwa [Nat.mul_comm]), 2 * (((node.outStart
      (block % node.tilesPerBatch) 0 + r0) * node.outDims 1 + (node.outStart (block % node.tilesPerBatch) 1 + r1)) *
      node.outDims 2 + node.outStart (block % node.tilesPerBatch) 2) + i, ?_, ?_⟩
    · unfold cube at element
      omega
    · unfold Address.row
      congr 1
      ring
  · rintro ⟨row, rowInside, k, inside, rfl⟩
    have element : k / 2 < node.outDims 0 * node.outDims 1 * node.outDims 2 :=
      (Nat.div_lt_of_lt_mul inside).trans_eq (sameVolume distinct).symm
    obtain ⟨o0, h0, o1, h1, o2, h2, same⟩ := cubeOf element
    have count : ∀ j o, o < node.outDims j → o / kTile < node.tileCounts j := fun j o small =>
      (ltCeilDiv (by decide)).mpr ((Nat.div_mul_le_self o kTile).trans_lt small)
    let tile := cube (node.tileCounts 1) (node.tileCounts 2) (o0 / kTile) (o1 / kTile) (o2 / kTile)
    have tileInside : tile < node.tilesPerBatch := cubeLt (count 0 o0 h0) (count 1 o1 h1) (count 2 o2 h2)
    have start : node.outStart tile = ![o0 / kTile * kTile, o1 / kTile * kTile, o2 / kTile * kTile] :=
      outStartAt (count 1 o1 h1) (count 2 o2 h2)
    have offset : ∀ {o dim}, o < dim → o % kTile < min kTile (dim - o / kTile * kTile) := fun {o dim} small => by
      have := Nat.div_add_mod' o kTile
      have := Nat.mod_lt o (show 0 < kTile by decide)
      omega
    have valid : ∀ j o, o < node.outDims j → node.outStart tile j = o / kTile * kTile → o % kTile < node.outValid tile j := by
      intro j o small here
      rw [outValid, here]
      exact offset small
    have start0 : node.outStart tile 0 = o0 / kTile * kTile := congrFun start 0
    have start1 : node.outStart tile 1 = o1 / kTile * kTile := congrFun start 1
    have start2 : node.outStart tile 2 = o2 / kTile * kTile := congrFun start 2
    refine ⟨row * node.tilesPerBatch + tile, mulAddLt rowInside tileInside, ?_⟩
    rw [mulAddDiv tileInside, mulAddMod tileInside]
    refine ⟨o0 % kTile, List.mem_range.mpr (valid 0 o0 h0 start0), o1 % kTile, List.mem_range.mpr (valid 1 o1 h1 start1),
      2 * (o2 % kTile) + k % 2, ?_, ?_⟩
    · have := valid 2 o2 h2 start2
      omega
    · have split2 := Nat.div_add_mod' o2 kTile
      have pair := Nat.div_add_mod k 2
      unfold Address.row
      congr 1
      rw [start0, start1, start2, Nat.div_add_mod', Nat.div_add_mod']
      calc 2 * (row * node.volume + ((o0 * node.outDims 1 + o1) * node.outDims 2 + o2 / kTile * kTile)) +
            (2 * (o2 % kTile) + k % 2)
          = row * (2 * node.volume) + (2 * ((o0 * node.outDims 1 + o1) * node.outDims 2 + (o2 / kTile * kTile + o2 % kTile)) +
            k % 2) := by ring
        _ = row * (2 * node.volume) + (2 * (k / 2) + k % 2) := by rw [split2, same, cube]
        _ = _ := by rw [pair]

/- A launch leaves what is wanted, whatever order its blocks run in. -/
theorem launchWanted (distinct : Function.Injective node.axes) (apart : input.buffer ≠ output.buffer)
    (small : node.dims 2 < uint32Size) {indices edgeIndices : ℕ → ℕ} (table : indices = orderIndices node.axes 0)
    (edge : node.tailShift ≠ 0 → edgeIndices = orderIndices node.axes node.tailShift) (local_ : ℕ → ℕ → S) (schedule : Schedule)
    (m : Memory S) :
    node.launch indices edgeIndices pad input output batch (batch * node.tileCounts 0 * node.tileCounts 1 * node.tileCounts 2)
      local_ schedule m = node.wanted batch input output m := by
  have blocks : batch * node.tileCounts 0 * node.tileCounts 1 * node.tileCounts 2 = batch * node.tilesPerBatch := by
    unfold tilesPerBatch
    ring
  have fills : Fills id (Reads input m) (node.wanted batch input output m) m
      (fun a => ∃ block ∈ schedule.order (batch * node.tilesPerBatch),
        node.TileRegion output (block / node.tilesPerBatch) (block % node.tilesPerBatch) a)
      (node.launch indices edgeIndices pad input output batch (batch * node.tilesPerBatch) local_ schedule) := by
    refine Fills.loop fun block here => ?_
    have inside := schedule.mem.mp here
    have positive : 0 < node.tilesPerBatch := Nat.pos_of_mul_pos_left (Nat.zero_lt_of_lt inside)
    have row : block / node.tilesPerBatch < batch := Nat.div_lt_of_lt_mul (by rwa [Nat.mul_comm])
    unfold process
    simp only [if_neg (not_le.mpr row)]
    exact tileFills distinct apart row (Nat.mod_lt _ positive) small table edge _
  have filled := (fills.run (s := m) (fun _ => rfl) rfl).congr fun a => by
    simp only [schedule.mem]
    exact tilesCover distinct a
  rw [blocks]
  refine filled.unique ⟨fun _ _ => rfl, fun a outside => ?_⟩
  exact wantedMap.frame m a not_false fun row rowInside k inside same => outside ⟨row, rowInside, k, inside, same.symm⟩

end Launch

section Chosen
variable {node : Transpose3d}

theorem kOrdersAt (distinct : Function.Injective node.axes) (fallback : Fin 3 → Fin 3) :
    kOrders.getD node.orderIndex fallback = node.axes := by
  have all : ∀ a0 a1 a2 : Fin 3, a0 ≠ a1 → a0 ≠ a2 → a1 ≠ a2 → kOrders.getD (Transpose3d.orderIndex ⟨fun _ => 0, ![a0, a1, a2]⟩)
      fallback = ![a0, a1, a2] := by
    intro a0 a1 a2
    fin_cases a0 <;> fin_cases a1 <;> fin_cases a2 <;> simp [orderIndex, kOrders]
  have axes : ![node.axes 0, node.axes 1, node.axes 2] = node.axes := by
    funext j
    fin_cases j <;> rfl
  have chosen := all (node.axes 0) (node.axes 1) (node.axes 2) (distinct.ne (by decide)) (distinct.ne (by decide))
    (distinct.ne (by decide))
  rw [axes] at chosen
  exact chosen

theorem orderIndexLt : node.orderIndex < 6 := by
  unfold orderIndex
  split_ifs <;> decide

theorem tailShiftLt : node.tailShift < 4 := by
  by_cases aligned : node.dims 2 % 16 % 4 = 0
  · rw [show node.tailShift = 0 from if_pos aligned]
    decide
  · rw [show node.tailShift = (node.dims 2 % 16 + 3) / 4 * 4 - node.dims 2 % 16 from if_neg aligned]
    omega

/- Table `6 * tailShift + index` is the one of the shift and the order. -/
theorem tablesAt {tailShift index : ℕ} (shift : tailShift < 4) (order : index < 6) :
    (buildNpu3dTransposeIndices.getD (6 * tailShift + index) fun _ => 0) =
      orderIndices (kOrders.getD index fun _ => 0) tailShift := by
  interval_cases tailShift <;> interval_cases index <;> rfl

end Chosen

section Execute
variable {S : Type*} {node : Transpose3d} {input output : Address} {batch : ℕ}

theorem sourceElementLt (distinct : Function.Injective node.axes) {o : Fin 3 → ℕ} (inside : ∀ j, o j < node.outDims j) :
    node.sourceElement o < node.volume := by
  have bound : ∀ i, atAxes node.axes o i < node.dims i := by
    intro i
    obtain ⟨j, rfl⟩ := axesOnto distinct i
    rw [atAxesAt distinct]
    exact inside j
  exact cubeLt (bound 0) (bound 1) (bound 2)

theorem transposedLocal (distinct : Function.Injective node.axes) :
    RowLocal (2 * node.volume) (2 * node.volume) (node.transposedRow (S := S)) := by
  intro x y same k inside
  obtain ⟨o0, h0, o1, h1, o2, h2, here⟩ := cubeOf ((Nat.div_lt_of_lt_mul inside).trans_eq (sameVolume distinct).symm)
  let o : Fin 3 → ℕ := ![o0, o1, o2]
  have bound : ∀ j, o j < node.outDims j := by
    intro j
    fin_cases j
    · exact h0
    · exact h1
    · exact h2
  have binary := Nat.mod_lt k (show 0 < 2 by decide)
  have element := sourceElementLt distinct bound
  have place : k = 2 * ((o 0 * node.outDims 1 + o 1) * node.outDims 2 + o 2) + k % 2 := by
    have pair := Nat.div_add_mod k 2
    rw [here] at pair
    exact pair.symm
  rw [place, transposedAt bound binary, transposedAt bound binary]
  exact same _ (by omega)

theorem launchExact (distinct : Function.Injective node.axes) (apart : input.buffer ≠ output.buffer)
    (small : node.dims 2 < uint32Size) {indices edgeIndices : ℕ → ℕ} (table : indices = orderIndices node.axes 0)
    (edge : node.tailShift ≠ 0 → edgeIndices = orderIndices node.axes node.tailShift) {pad : S} {status : ℕ → ℕ}
    {local_ : ℕ → ℕ → S} {schedule : Schedule} {m m' : Memory S}
    (ran : node.launchAscendcTranspose3d indices edgeIndices pad input output status batch local_ schedule m = .ok m') :
    m' = node.wanted batch input output m := by
  unfold launchAscendcTranspose3d at ran
  dsimp only at ran
  split at ran
  case isTrue => cases ran
  case isFalse =>
    split at ran
    case isTrue => cases ran
    case isFalse =>
      split at ran
      case isTrue =>
        rw [← Except.ok.inj ran]
        exact launchWanted distinct apart small table edge _ schedule m
      case isFalse => cases ran

theorem launchRuns (distinct : Function.Injective node.axes) (positive : ∀ i, 0 < node.dims i) (some_ : 0 < batch)
    (blocks : batch * node.tilesPerBatch < uint32Size) {status : ℕ → ℕ} (accepted : ∀ blocks, status blocks = 0)
    (indices edgeIndices : ℕ → ℕ) (pad : S) (local_ : ℕ → ℕ → S) (schedule : Schedule) (m : Memory S) :
    ∃ m', node.launchAscendcTranspose3d indices edgeIndices pad input output status batch local_ schedule m = .ok m' := by
  have tiles : ∀ j, 0 < node.tileCounts j := fun j => (ltCeilDiv (by decide)).mpr ((Nat.zero_mul _).trans_lt (positive _))
  have total : batch * node.tileCounts 0 * node.tileCounts 1 * node.tileCounts 2 = batch * node.tilesPerBatch := by
    unfold tilesPerBatch
    ring
  have some' : 0 < batch * node.tilesPerBatch :=
    Nat.mul_pos some_ (Nat.mul_pos (Nat.mul_pos (tiles 0) (tiles 1)) (tiles 2))
  have valid : ¬(node.dims 0 = 0 ∨ node.dims 1 = 0 ∨ node.dims 2 = 0 ∨ batch = 0 ∨ node.axes 0 = node.axes 1 ∨
      node.axes 0 = node.axes 2 ∨ node.axes 1 = node.axes 2) := by
    simp [(positive _).ne', some_.ne', distinct.eq_iff]
  unfold launchAscendcTranspose3d
  rw [if_neg valid, total]
  refine ⟨_, (if_neg (by omega)).trans (if_pos (accepted _))⟩

/- What a native launch leaves, once it has not been refused. -/
theorem perm3dExact (distinct : Function.Injective node.axes) (apart : input.buffer ≠ output.buffer) {pad : S} {status : ℕ → ℕ}
    {elementBytes blockLimit : ℕ} {local_ : ℕ → ℕ → ℕ → S} {schedule : Schedule} {m m' : Memory S}
    (ran : node.launchPerm3dNative pad input output buildNpu3dTransposeIndices status elementBytes blockLimit batch local_
      schedule m = .ok m') :
    (∀ row < batch, ∀ k < 2 * node.volume,
      m' (output.row (2 * node.volume) row k) = node.transposedRow (fun j => m (input.row (2 * node.volume) row j)) k) ∧
    ∀ a, (∀ row < batch, ∀ k < 2 * node.volume, a ≠ output.row (2 * node.volume) row k) → m' a = m a := by
  unfold launchPerm3dNative at ran
  split at ran
  case isTrue => cases ran
  case isFalse checked =>
    have small : node.dims 2 < uint32Size := by
      have limit : int32Limit < uint32Size := by decide
      omega
    have table : (buildNpu3dTransposeIndices.getD node.orderIndex fun _ => 0) = orderIndices node.axes 0 := by
      have found := tablesAt (show 0 < 4 by decide) (@orderIndexLt node)
      rw [kOrdersAt distinct, Nat.mul_zero, Nat.zero_add] at found
      exact found
    have edge : node.tailShift ≠ 0 → (if node.tailShift = 0 then fun _ => 0
        else buildNpu3dTransposeIndices.getD (6 + (node.tailShift - 1) * 6 + node.orderIndex) fun _ => 0) =
        orderIndices node.axes node.tailShift := by
      intro shifted
      have found := tablesAt (@tailShiftLt node) (@orderIndexLt node)
      rw [kOrdersAt distinct] at found
      rw [if_neg shifted, ← found]
      congr 1
      omega
    dsimp only at ran
    generalize (if node.tailShift = 0 then fun _ => 0
      else buildNpu3dTransposeIndices.getD (6 + (node.tailShift - 1) * 6 + node.orderIndex) fun _ => 0) = edgeIndices at ran edge
    generalize (buildNpu3dTransposeIndices.getD node.orderIndex fun _ => 0) = indices at ran table
    have each : ∀ (m : Memory S) (piece : ℕ × ℕ) (m' : Memory S),
        node.launchAscendcTranspose3d indices edgeIndices pad (input.at (piece.1 * (2 * node.volume)))
          (output.at (piece.1 * (2 * node.volume))) status piece.2 (local_ piece.1) schedule m = .ok m' →
        m' = node.wanted piece.2 (input.at (piece.1 * (2 * node.volume))) (output.at (piece.1 * (2 * node.volume))) m := by
      intro m piece m' one
      refine launchExact distinct ?_ small table edge one
      exact apart
    have result := foldlMRun each ran
    have map : RowMap (chunkLoop (fun offset count => node.wanted count (input.at (offset * (2 * node.volume)))
        (output.at (offset * (2 * node.volume)))) batch (max 1 (blockLimit / max 1 ((node.dims 0 + 15) / 16 *
          ((node.dims 1 + 15) / 16) * ((node.dims 2 + 15) / 16))))) (fun _ => False) input output (2 * node.volume)
        (2 * node.volume) batch (node.transposedRow (S := S)) :=
      chunkedRowMap (fun _ => Nat.lt_of_lt_of_le Nat.zero_lt_one (le_max_left _ _)) (transposedLocal distinct) (.inr apart)
        (fun _ => not_false) (fun _ => not_false) fun _ _ _ => wantedMap
    rw [result]
    exact ⟨map.writes m, fun a outside => map.frame m a not_false outside⟩

def batchChunk (node : Transpose3d) (blockLimit : ℕ) : ℕ := max 1 (blockLimit / max 1 node.tilesPerBatch)

/- Nothing but the checks and the launcher refuses. -/
theorem perm3dRuns (distinct : Function.Injective node.axes) (positive : ∀ i, 0 < node.dims i)
    (small : ∀ i, node.dims i ≤ int32Limit) (rows : batch ≤ int32Limit) {blockLimit : ℕ}
    (blocks : node.batchChunk blockLimit * node.tilesPerBatch < uint32Size) {status : ℕ → ℕ}
    (accepted : ∀ blocks, status blocks = 0) (pad : S) (local_ : ℕ → ℕ → ℕ → S) (schedule : Schedule) (m : Memory S) :
    ∃ m', node.launchPerm3dNative pad input output buildNpu3dTransposeIndices status complexBytes blockLimit batch local_
      schedule m = .ok m' := by
  have tiles : (node.dims 0 + 15) / 16 * ((node.dims 1 + 15) / 16) * ((node.dims 2 + 15) / 16) = node.tilesPerBatch := by
    have product := (Finite.injective_iff_bijective.mp distinct).prod_comp fun i => (node.dims i + 15) / 16
    rw [Fin.prod_univ_three, Fin.prod_univ_three] at product
    exact product.symm
  have size : ¬(buildNpu3dTransposeIndices.length ≠ 24 ∨ complexBytes ≠ complexBytes ∨ int32Limit < node.dims 0 ∨
      int32Limit < node.dims 1 ∨ int32Limit < node.dims 2 ∨ int32Limit < batch) := by
    have := small 0
    have := small 1
    have := small 2
    have : buildNpu3dTransposeIndices.length = 24 := rfl
    omega
  unfold launchPerm3dNative
  rw [if_neg size, tiles]
  refine foldlMEnds (fun piece inside m => ?_) m
  obtain ⟨i, chunk, rfl⟩ := List.mem_map.mp inside
  have start : i * node.batchChunk blockLimit < batch :=
    (ltCeilDiv (Nat.lt_of_lt_of_le Nat.zero_lt_one (le_max_left _ _))).mp (List.mem_range.mp chunk)
  have fits := Nat.mul_le_mul_right node.tilesPerBatch (min_le_left (node.batchChunk blockLimit) (batch - i * node.batchChunk blockLimit))
  exact launchRuns distinct positive (lt_min (by unfold batchChunk; omega) (by omega)) (fits.trans_lt blocks) accepted _ _ pad _ schedule m

end Execute

end Transpose3d

end FlagFft.Npu
