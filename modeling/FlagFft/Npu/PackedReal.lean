import FlagFft.Npu.Ascend
import FlagFft.Real.Packed

/-! The vector kernel at the boundary of packed real transforms. A core walks over groups of rows; it gathers each tile
of a row through tables of byte offsets, and the rows of a group of the inverse direction leave it together. -/
namespace FlagFft.Npu
open Library.Indexing Library.Filling FlagFft.Real

def kTile : ℕ := 128

structure PackedRealBoundary where
  length : ℕ
  r2cPostprocess : Bool
  deriving DecidableEq, Repr

namespace PackedRealBoundary
section Tables
variable (node : PackedRealBoundary)

def packed : ℕ := node.length / 2

def half : ℕ := node.packed + 1

def paddedHalf : ℕ := ceilDiv node.half kTile * kTile

def outputCount : ℕ := if node.r2cPostprocess then node.half else node.packed

def inputCount : ℕ := 2 * if node.r2cPostprocess then node.packed else node.half

theorem groupRowsFound (count : ℕ) : ∃ rows, 0 < rows ∧ count * rows % 4 = 0 := ⟨4, by decide, Nat.mul_mod_left count 4⟩

/- The fewest rows whose stores end at a whole block of local memory. -/
def groupRows : ℕ := Nat.find (groupRowsFound node.outputCount)

def stagingRowPitch : ℕ := ceilDiv node.outputCount kTile * kTile

def compactCount : ℕ := ceilDiv (node.groupRows * node.outputCount) kTile * kTile

def compactIndexBase : ℕ := 3 * node.paddedHalf + 2 * kTile

def indexCount : ℕ := node.compactIndexBase + 2 * node.compactCount

/- Lanes beyond the row read what lane 0 reads. -/
def lane (k : ℕ) : ℕ := if k < node.outputCount then k else 0

def sourceA (k : ℕ) : ℕ := if node.r2cPostprocess then node.lane k % node.packed else node.lane k

def sourceB (k : ℕ) : ℕ :=
  if node.r2cPostprocess then (node.packed - node.sourceA k) % node.packed else node.packed - node.lane k

def compactSource (flatComplex : ℕ) : ℕ :=
  if flatComplex < node.groupRows * node.outputCount then
    flatComplex / node.outputCount * node.stagingRowPitch + flatComplex % node.outputCount
  else 0

/- The table of byte offsets: three runs of lanes, the interleaving of two tiles, the rows of a group put together. -/
def indices (i : ℕ) : ℕ :=
  if i < node.paddedHalf then 2 * node.sourceA i * floatBytes
  else if i < 2 * node.paddedHalf then 2 * node.sourceB (i - node.paddedHalf) * floatBytes
  else if i < 3 * node.paddedHalf then 2 * node.lane (i - 2 * node.paddedHalf) * floatBytes
  else if i < node.compactIndexBase then
    let j := i - 3 * node.paddedHalf
    (j % 2 * kTile + j / 2) * floatBytes
  else if i < node.indexCount then
    let flatFloat := i - node.compactIndexBase
    (2 * node.compactSource (flatFloat / 2) + flatFloat % 2) * floatBytes
  else 0

noncomputable def twiddles (i : ℕ) : ℝ :=
  if i / 2 < node.half then
    let angle := -(2 : ℕ) * Real.pi * (i / 2 : ℕ) / node.length
    part (Real.cos angle, Real.sin angle) (i % 2)
  else 0

end Tables

/- The local memory of a core that outlives a tile, and the global memory. -/
structure Core (S : Type*) where
  input : ℕ → S
  staging : ℕ → S
  memory : Memory S

section Kernel
variable {S : Type*} [Field S] (node : PackedRealBoundary) (twiddle : ℕ → S) (input output : Address)
  (inputDistance outputDistance batch : ℕ)

/- The outputs of the tile that starts at `first`, lane by lane. -/
def tileLanes (source : ℕ → S) (first : ℕ) : (ℕ → S) × (ℕ → S) :=
  let valid := min kTile (node.outputCount - first)
  let indexA lane := node.indices (first + lane)
  let indexB lane := node.indices (node.paddedHalf + first + lane)
  let indexW lane := node.indices (2 * node.paddedHalf + first + lane)
  let aReal := gather source indexA 0
  let aImag := gather source indexA floatBytes
  let bReal := gather source indexB 0
  let bImag lane := gather source indexB floatBytes lane * -1
  let wReal := gather twiddle indexW 0
  let wImag := gather twiddle indexW floatBytes
  let sumReal lane := aReal lane + bReal lane
  let sumImag lane := aImag lane + bImag lane
  let diffReal lane := aReal lane - bReal lane
  let diffImag lane := aImag lane - bImag lane
  if node.r2cPostprocess then
    let productReal lane := diffReal lane * wReal lane - diffImag lane * wImag lane
    let productImag lane := diffImag lane * wReal lane + diffReal lane * wImag lane
    let outputReal lane := sumReal lane * (1 / (2 : ℕ)) + productImag lane * (1 / (2 : ℕ))
    let outputImag lane := sumImag lane * (1 / (2 : ℕ)) - productReal lane * (1 / (2 : ℕ))
    let outputImag := if first = 0 then Function.update outputImag 0 0 else outputImag
    (outputReal, if first ≤ node.packed ∧ node.packed < first + valid then
      Function.update outputImag (node.packed - first) 0 else outputImag)
  else
    let productReal lane := diffReal lane * wReal lane + diffImag lane * wImag lane
    let productImag lane := diffImag lane * wReal lane - diffReal lane * wImag lane
    (fun lane => sumReal lane - productImag lane, fun lane => sumImag lane + productReal lane)

/- The same, interleaved. -/
def tile (source : ℕ → S) (first : ℕ) : ℕ → S :=
  let lanes := node.tileLanes twiddle source first
  let merge i := if i < kTile then lanes.1 i else lanes.2 (i - kTile)
  gather merge (fun i => node.indices (3 * node.paddedHalf + i)) 0

/- A tile of the forward direction goes to its row, one of the inverse direction to the slot of its row. -/
def storeTile (row rowSlot : ℕ) (core : Core S) (first : ℕ) : Core S :=
  let valid := min kTile (node.outputCount - first)
  let tile := node.tile twiddle core.input first
  if node.r2cPostprocess then
    { core with memory := copy (fun i => output.at ((row * outputDistance + first) * 2 + i)) (2 * valid) tile core.memory }
  else
    { core with
      staging := copy (fun i => rowSlot * node.stagingRowPitch * 2 + first * 2 + i) (2 * kTile) tile core.staging }

def loadRow (row : ℕ) (core : Core S) : Core S :=
  let source i := core.memory (input.at (row * inputDistance * 2 + i))
  { core with input := copy id node.inputCount source core.input }

def processRow (firstRow : ℕ) (core : Core S) (rowSlot : ℕ) : Core S :=
  let row := firstRow + rowSlot
  (strided 0 node.outputCount kTile).foldl (node.storeTile twiddle output outputDistance row rowSlot)
    (node.loadRow input inputDistance row core)

def compactTile (firstRow flatCount : ℕ) (core : Core S) (first : ℕ) : Core S :=
  let valid := min kTile (flatCount - first)
  let tile := gather core.staging (fun i => node.indices (node.compactIndexBase + 2 * first + i)) 0
  { core with
    memory := copy (fun i => output.at ((firstRow * node.outputCount + first) * 2 + i)) (2 * valid) tile core.memory }

def processGroup (core : Core S) (group : ℕ) : Core S :=
  let firstRow := group * node.groupRows
  let validRows := min node.groupRows (batch - firstRow)
  let core := (List.range validRows).foldl (node.processRow twiddle input output inputDistance outputDistance firstRow) core
  if node.r2cPostprocess then core
  else
    let flatCount := validRows * node.outputCount
    (strided 0 flatCount kTile).foldl (node.compactTile output firstRow flatCount) core

def rowGroups : ℕ := ceilDiv batch node.groupRows

def process (grid block : ℕ) (core : Core S) : Core S :=
  if grid = 0 ∨ node.length < 128 ∨ 2048 < node.length ∨ node.length % 2 ≠ 0 then core
  else (strided block (node.rowGroups batch) grid).foldl
    (node.processGroup twiddle input output inputDistance outputDistance batch) core

def kMaxBlocks : ℕ := 65535

/- Each core starts with whatever its local memory holds. -/
def launch (local_ : ℕ → (ℕ → S) × (ℕ → S)) (schedule : Schedule) (m : Memory S) : Memory S :=
  let blocks := min (node.rowGroups batch) kMaxBlocks
  (schedule.order blocks).foldl (fun m block =>
    (node.process twiddle input output inputDistance outputDistance batch blocks block
      ⟨(local_ block).1, (local_ block).2, m⟩).memory) m

end Kernel

section Node
variable {S : Type*} [Field S] (node : PackedRealBoundary) (twiddle : ℕ → S) (context : BatchContext)

def int32Max : ℕ := 2 ^ 31 - 1

def inputDistance : ℕ :=
  if node.r2cPostprocess then node.packed
  else if 0 < context.inputDistance then context.inputDistance else node.half

def outputDistance : ℕ :=
  if 0 < context.outputDistance then context.outputDistance
  else if node.r2cPostprocess then node.half else node.packed

/- The tables are never empty; no pointer is null. -/
def launchBoundary (input output : Address) (inputDistance outputDistance batch : ℕ) (local_ : ℕ → (ℕ → S) × (ℕ → S))
    (schedule : Schedule) (m : Memory S) : Except Failure (Memory S) :=
  let minimumInputDistance := if node.r2cPostprocess then node.packed else node.half
  let minimumOutputDistance := if node.r2cPostprocess then node.half else node.packed
  if node.length < 128 ∨ 2048 < node.length ∨ node.length % 2 ≠ 0 ∨ inputDistance < minimumInputDistance ∨
      outputDistance < minimumOutputDistance ∨ batch = 0 then .error .invalidSize
  else .ok (node.launch twiddle input output inputDistance outputDistance batch local_ schedule m)

def execute (input output : Address) (local_ : ℕ → (ℕ → S) × (ℕ → S)) (schedule : Schedule) (m : Memory S) :
    Except Failure (Memory S) :=
  if node.length < 128 ∨ 2048 < node.length ∨ node.length % 2 ≠ 0 ∨ context.batch = 0 ∨ int32Max < context.batch ∨
      int32Max < node.inputDistance context ∨ int32Max < node.outputDistance context then .error .invalidSize
  else node.launchBoundary twiddle input output (node.inputDistance context) (node.outputDistance context) context.batch
    local_ schedule m

end Node

section Lookups
variable {node : PackedRealBoundary} {first lane : ℕ}

theorem outputCountHalf : node.outputCount ≤ node.half := by
  unfold outputCount half
  split <;> omega

/- The last tile of a row ends inside the padded row. -/
theorem tilePadded {count : ℕ} (here : first ∈ strided 0 count kTile) (small : lane < kTile) {bound : ℕ} (wide : count ≤ bound) :
    first + lane < ceilDiv bound kTile * kTile := by
  obtain ⟨t, rfl, inside⟩ := (memStrided (by decide)).mp here
  have tile : t < ceilDiv bound kTile := (ltCeilDiv (by decide)).mpr (by omega)
  rw [Nat.zero_add]
  exact mulAddLt tile small

variable (here : first ∈ strided 0 node.outputCount kTile) (small : lane < kTile)
include here small

theorem indexA : node.indices (first + lane) = 2 * node.sourceA (first + lane) * floatBytes :=
  if_pos (tilePadded here small outputCountHalf)

theorem indexB : node.indices (node.paddedHalf + first + lane) = 2 * node.sourceB (first + lane) * floatBytes := by
  have padded : first + lane < node.paddedHalf := tilePadded here small outputCountHalf
  unfold indices
  rw [if_neg (by omega), if_pos (by omega), show node.paddedHalf + first + lane - node.paddedHalf = first + lane by omega]

theorem indexW : node.indices (2 * node.paddedHalf + first + lane) = 2 * node.lane (first + lane) * floatBytes := by
  have padded : first + lane < node.paddedHalf := tilePadded here small outputCountHalf
  unfold indices
  rw [if_neg (by omega), if_neg (by omega), if_pos (by omega),
    show 2 * node.paddedHalf + first + lane - 2 * node.paddedHalf = first + lane by omega]

omit here small in
theorem compactIndex {flatFloat : ℕ} (inside : flatFloat < 2 * (node.groupRows * node.outputCount)) :
    node.indices (node.compactIndexBase + flatFloat) =
      (2 * (flatFloat / 2 / node.outputCount * node.stagingRowPitch + flatFloat / 2 % node.outputCount) + flatFloat % 2) *
        floatBytes := by
  have covered : node.groupRows * node.outputCount ≤ node.compactCount := by
    by_contra beyond
    exact absurd ((ltCeilDiv (by decide)).mpr (not_le.mp beyond)) (lt_irrefl _)
  have base : node.compactIndexBase = 3 * node.paddedHalf + 2 * kTile := rfl
  have total : node.indexCount = node.compactIndexBase + 2 * node.compactCount := rfl
  unfold indices
  rw [if_neg (by omega), if_neg (by omega), if_neg (by omega), if_neg (by omega), if_pos (by omega), Nat.add_sub_cancel_left]
  simp only [compactSource, if_pos (show flatFloat / 2 < node.groupRows * node.outputCount by omega)]

end Lookups

section Tile

variable {S : Type*} [Field S] {node : PackedRealBoundary} {twiddle source : ℕ → S} {first lane : ℕ}

/- Zeros written over two lanes. -/
theorem zerosAt {f : ℕ → S} {p q : Prop} [Decidable p] [Decidable q] {middle lane : ℕ} {ends : Prop} [Decidable ends]
    (same : (q ∧ lane = 0) ∨ (p ∧ lane = middle) ↔ ends) :
    (if p then Function.update (if q then Function.update f 0 0 else f) middle 0
      else if q then Function.update f 0 0 else f) lane = if ends then 0 else f lane := by
  by_cases atMiddle : p <;> by_cases atStart : q <;>
    simp only [atMiddle, atStart, true_and, false_and, or_false, false_or, if_true, if_false, Function.update_apply] at same ⊢ <;>
    simp only [← same] <;> split_ifs <;> first | rfl | tauto

/- One output from its two inputs and its root; at the ends of a half spectrum the imaginary part is zero. -/
def boundary (r2cPostprocess : Bool) (ends : Prop) [Decidable ends] (a b w : S × S) : S × S :=
  let (sumReal, sumImag) := (a.1 + b.1, a.2 + b.2 * -1)
  let (diffReal, diffImag) := (a.1 - b.1, a.2 - b.2 * -1)
  if r2cPostprocess then
    let productReal := diffReal * w.1 - diffImag * w.2
    let productImag := diffImag * w.1 + diffReal * w.2
    (sumReal * (1 / (2 : ℕ)) + productImag * (1 / (2 : ℕ)),
      if ends then 0 else sumImag * (1 / (2 : ℕ)) - productReal * (1 / (2 : ℕ)))
  else
    let productReal := diffReal * w.1 + diffImag * w.2
    let productImag := diffImag * w.1 - diffReal * w.2
    (sumReal - productImag, sumImag + productReal)

theorem lanesAt (here : first ∈ strided 0 node.outputCount kTile) (small : lane < kTile) :
    ((node.tileLanes twiddle source first).1 lane, (node.tileLanes twiddle source first).2 lane) =
      boundary node.r2cPostprocess (first + lane = 0 ∨ first + lane = node.packed)
        (pair source (node.sourceA (first + lane))) (pair source (node.sourceB (first + lane)))
        (pair twiddle (node.lane (first + lane))) := by
  have a := indexA here small
  have b := indexB here small
  have w := indexW here small
  obtain ⟨t, start, inside⟩ := (memStrided (by decide)).mp here
  cases mode : node.r2cPostprocess with
  | false =>
    simp only [tileLanes, boundary, mode, gather, a, b, w, offsetReal, offsetImag, pair,
      Bool.false_eq_true, if_false]
  | true =>
    have count : node.outputCount = node.packed + 1 := by rw [outputCount, mode, if_pos rfl, half]
    rw [count] at inside
    -- the lane of the middle is inside the tile that holds it
    have middle : (first ≤ node.packed ∧ node.packed < first + min kTile (node.outputCount - first)) ∧ lane = node.packed - first ↔
        first + lane = node.packed := by
      rw [count]
      omega
    have zeros : (first = 0 ∧ lane = 0) ∨ ((first ≤ node.packed ∧ node.packed < first + min kTile (node.outputCount - first)) ∧
        lane = node.packed - first) ↔ first + lane = 0 ∨ first + lane = node.packed :=
      or_congr (by omega) middle
    simp only [tileLanes, boundary, mode, if_true, pair, Prod.mk.injEq, zerosAt zeros]
    simp only [gather, a, b, w, offsetReal, offsetImag, true_and]

/- Even positions of a tile are real parts, odd positions imaginary parts. -/
theorem tileAt (here : first ∈ strided 0 node.outputCount kTile) (small : lane < kTile) {index : ℕ} (binary : index < 2) :
    node.tile twiddle source first (2 * lane + index) =
      part (boundary node.r2cPostprocess (first + lane = 0 ∨ first + lane = node.packed)
        (pair source (node.sourceA (first + lane))) (pair source (node.sourceB (first + lane)))
        (pair twiddle (node.lane (first + lane)))) index := by
  have offset : node.indices (3 * node.paddedHalf + (2 * lane + index)) = (index * kTile + lane) * floatBytes := by
    have inside : 2 * lane + index < 2 * kTile := by omega
    have odd : (2 * lane + index) % 2 = index := by omega
    have even : (2 * lane + index) / 2 = lane := by omega
    unfold indices compactIndexBase
    rw [if_neg (by omega), if_neg (by omega), if_neg (by omega), if_pos (by omega), Nat.add_sub_cancel_left]
    simp only [odd, even]
  rw [← lanesAt here small]
  unfold tile gather
  simp only [offset, Nat.zero_add, Nat.mul_div_cancel _ (show 0 < floatBytes by decide)]
  cases index with
  | zero => rw [Nat.zero_mul, Nat.zero_add, if_pos small, part, if_pos rfl]
  | succ index =>
    obtain rfl : index = 0 := by omega
    rw [Nat.zero_add, Nat.one_mul, if_neg (by omega), Nat.add_sub_cancel_left, part, if_neg Nat.one_ne_zero]

/- A tile depends on the part of a row that is copied in. -/
theorem tileCongr {source' : ℕ → S} (positive : 0 < node.packed) (same : ∀ i < node.inputCount, source i = source' i)
    (here : first ∈ strided 0 node.outputCount kTile) (small : lane < kTile) {index : ℕ} (binary : index < 2) :
    node.tile twiddle source first (2 * lane + index) = node.tile twiddle source' first (2 * lane + index) := by
  have pairSame : ∀ j, 2 * j < node.inputCount → pair source j = pair source' j := by
    intro j inside
    unfold pair
    rw [same _ inside, same]
    unfold inputCount at inside ⊢
    omega
  have laneLt : node.lane (first + lane) < node.outputCount := by
    obtain ⟨_, _, inside⟩ := (memStrided (by decide)).mp here
    unfold PackedRealBoundary.lane
    split
    case isTrue fits => exact fits
    case isFalse => omega
  have a : 2 * node.sourceA (first + lane) < node.inputCount := by
    unfold sourceA inputCount
    cases mode : node.r2cPostprocess with
    | true =>
      have := Nat.mod_lt (node.lane (first + lane)) positive
      simpa using this
    | false =>
      have := laneLt.trans_le outputCountHalf
      simpa using this
  have b : 2 * node.sourceB (first + lane) < node.inputCount := by
    unfold sourceB inputCount PackedRealBoundary.half
    cases mode : node.r2cPostprocess with
    | true =>
      have := Nat.mod_lt (node.packed - node.sourceA (first + lane)) positive
      simpa using this
    | false => simp
  rw [tileAt here small binary, tileAt here small binary, pairSame _ a, pairSame _ b]

/- The kernel for any backend. -/
def generic (node : PackedRealBoundary) (root : ℕ → S × S) (inputDistance outputDistance : ℕ) : TileKernel S :=
  if node.r2cPostprocess then r2cPackedPostprocess node.length root outputDistance
  else c2rPackedPreprocess node.length root inputDistance

/- The table holds the roots, and the roots at the ends of a half spectrum are real. -/
structure TableOk (node : PackedRealBoundary) (twiddle : ℕ → S) (root : ℕ → S × S) : Prop where
  pairs : ∀ k < node.half, pair twiddle k = root k
  first : (root 0).2 = 0
  middle : (root node.packed).2 = 0

theorem valueAt {root : ℕ → S × S} {inputDistance outputDistance k index : ℕ} (table : node.TableOk twiddle root)
    (inside : k < node.outputCount) :
    part (boundary node.r2cPostprocess (k = 0 ∨ k = node.packed) (pair source (node.sourceA k)) (pair source (node.sourceB k))
      (pair twiddle (node.lane k))) index = (node.generic root inputDistance outputDistance).value source k index := by
  have laneSelf : node.lane k = k := if_pos inside
  rw [laneSelf, table.pairs k (inside.trans_le outputCountHalf)]
  cases mode : node.r2cPostprocess with
  | false =>
    simp only [generic, mode, c2rPackedPreprocess, boundary, sourceA, sourceB, laneSelf, Bool.false_eq_true, if_false, packed]
    congr 1
    refine Prod.ext ?_ ?_ <;> ring
  | true =>
    have count : k ≤ node.packed := by
      rw [outputCount, mode, if_pos rfl, half] at inside
      omega
    have mirrored : (node.packed - k % node.packed) % node.packed = (node.packed - k) % node.packed := by
      obtain rfl | below := count.eq_or_lt
      · simp
      · rw [Nat.mod_eq_of_lt below]
    simp only [generic, mode, r2cPackedPostprocess, boundary, sourceA, sourceB, laneSelf, if_true, mirrored]
    congr 1
    refine Prod.ext ?_ ?_
    · simp only [packed]
      ring
    · split
      case isTrue ends =>
        have real : (root k).2 = 0 := by
          obtain rfl | rfl := ends
          · exact table.first
          · exact table.middle
        have own : (node.packed - k) % node.packed = k % node.packed := by
          obtain rfl | rfl := ends <;> simp
        simp only [packed] at own
        simp only [own, real]
        ring
      case isFalse =>
        simp only [packed]
        ring

end Tile

section Rows
variable {S : Type*} [Field S] {node : PackedRealBoundary} {twiddle : ℕ → S} {root : ℕ → S × S} {input output : Address}
  {inputDistance outputDistance batch : ℕ}

/- The tiles of a run of complex elements take its scalars once. -/
theorem memTiles {count : ℕ} {P : ℕ → Prop} :
    (∃ first ∈ strided 0 count kTile, ∃ i < 2 * min kTile (count - first), P (2 * first + i)) ↔ ∃ k < 2 * count, P k := by
  have width : kTile = 128 := rfl
  constructor
  · rintro ⟨first, here, i, small, holds⟩
    obtain ⟨_, _, inside⟩ := (memStrided (by decide)).mp here
    exact ⟨2 * first + i, by omega, holds⟩
  · rintro ⟨k, inside, holds⟩
    refine ⟨k / 256 * 128, (memStrided (by decide)).mpr ⟨k / 256, by rw [width, Nat.zero_add], by omega⟩, k % 256, by omega, ?_⟩
    rwa [show 2 * (k / 256 * 128) + k % 256 = k by omega]

/- What a launch is given. -/
structure Given (node : PackedRealBoundary) (twiddle : ℕ → S) (root : ℕ → S × S) (input output : Address)
    (inputDistance outputDistance : ℕ) : Prop where
  table : node.TableOk twiddle root
  positive : 0 < node.packed
  apart : input.buffer ≠ output.buffer
  dense : node.r2cPostprocess = true → inputDistance = node.packed
  fits : node.r2cPostprocess = true → node.half ≤ outputDistance

section Loads
variable {m : Memory S} {core : Core S} {row : ℕ}

/- A row has been copied in. -/
def Loaded (node : PackedRealBoundary) (input : Address) (inputDistance row : ℕ) (m : Memory S) (core : Core S) : Prop :=
  ∀ i < node.inputCount, core.input i = m (input.row (2 * inputDistance) row i)

omit [Field S] in
theorem loadRowLoads (reads : Reads input m core.memory) :
    node.Loaded input inputDistance row m (node.loadRow input inputDistance row core) := by
  intro i small
  refine (copyThere Function.injective_id small).trans ?_
  rw [reads]
  unfold Address.row
  congr 2
  ring

end Loads

section Generic
variable (given : node.Given twiddle root input output inputDistance outputDistance)
include given

theorem genericComputes : (node.generic root inputDistance outputDistance).Computes (2 * node.outputCount)
    (fun x k => (node.generic root inputDistance outputDistance).value x (k / 2) (k % 2)) := by
  have parts : (node.generic root inputDistance outputDistance).parts = 2 := by
    unfold generic
    split <;> rfl
  refine ⟨?_, ?_, ?_, fun x c _ index binary => ?_⟩
  · unfold generic
    split <;> exact le_rfl
  · rw [parts, Nat.mul_comm]
    unfold generic outputCount half packed
    split <;> rfl
  · have fits := given.fits
    unfold generic outputCount
    split
    case isTrue mode => exact Nat.mul_le_mul_left 2 (fits mode)
    case isFalse => exact le_rfl
  · rw [parts] at binary ⊢
    rw [mulAddDiv binary, mulAddMod binary]

theorem inStride : (node.generic root inputDistance outputDistance).inStride = 2 * inputDistance := by
  have dense := given.dense
  unfold generic
  split
  case isTrue mode => rw [dense mode]; rfl
  case isFalse => rfl

/- The memory a launch of the generic kernel leaves. -/
theorem genericMap (schedule : Schedule) (scratch : Address → Prop) :
    LayoutMap ((node.generic root inputDistance outputDistance).launch input output batch schedule) scratch
      (input.row (2 * inputDistance)) (output.row (node.generic root inputDistance outputDistance).outStride)
      (2 * node.outputCount) batch
      (fun x k => (node.generic root inputDistance outputDistance).value x (k / 2) (k % 2)) := by
  rw [← inStride given]
  exact (genericComputes given).launchMap input output given.apart batch schedule scratch

variable {m : Memory S} {source : ℕ → S} {row first lane index : ℕ}

/- A lane of a tile holds what the generic kernel leaves for it. -/
theorem tileWanted (schedule : Schedule) (rowInside : row < batch)
    (same : ∀ i < node.inputCount, source i = m (input.row (2 * inputDistance) row i))
    (here : first ∈ strided 0 node.outputCount kTile) (small : lane < kTile) (inside : first + lane < node.outputCount)
    (binary : index < 2) :
    node.tile twiddle source first (2 * lane + index) =
      (node.generic root inputDistance outputDistance).launch input output batch schedule m
        (output.row (node.generic root inputDistance outputDistance).outStride row (2 * (first + lane) + index)) := by
  have odd : (2 * (first + lane) + index) % 2 = index := by omega
  have even : (2 * (first + lane) + index) / 2 = first + lane := by omega
  rw [(genericMap given schedule fun _ => False).writes m row rowInside _ (by omega), odd, even,
    ← valueAt given.table inside, ← tileAt here small binary]
  exact tileCongr given.positive same here small binary

/- A row of the forward direction, tile by tile. -/
theorem forwardRow (schedule : Schedule) (mode : node.r2cPostprocess = true) {firstRow slot : ℕ} (rowInside : firstRow + slot < batch) :
    Fills Core.memory (fun core => Reads input m core.memory) ((node.generic root inputDistance outputDistance).launch input output batch schedule m) m
      (fun a => ∃ k < 2 * node.outputCount,
        output.row (node.generic root inputDistance outputDistance).outStride (firstRow + slot) k = a)
      (node.processRow twiddle input output inputDistance outputDistance firstRow · slot) := by
  have stride : (node.generic root inputDistance outputDistance).outStride = 2 * outputDistance := by
    unfold generic
    rw [if_pos mode]
    rfl
  have tiles : Fills Core.memory (fun core => Reads input m core.memory ∧ node.Loaded input inputDistance (firstRow + slot) m core)
      ((node.generic root inputDistance outputDistance).launch input output batch schedule m) m
      (fun a => ∃ first ∈ strided 0 node.outputCount kTile, ∃ i < 2 * min kTile (node.outputCount - first),
        output.row (2 * outputDistance) (firstRow + slot) (2 * first + i) = a)
      ((strided 0 node.outputCount kTile).foldl
        (node.storeTile twiddle output outputDistance (firstRow + slot) slot)) := by
    refine Fills.loop fun first here core done ready filled => ?_
    have place : ∀ i, output.at (((firstRow + slot) * outputDistance + first) * 2 + i) =
        output.row (2 * outputDistance) (firstRow + slot) (2 * first + i) := fun i => by
      unfold Address.row
      congr 1
      ring
    simp only [storeTile, mode, if_true]
    refine ⟨⟨readsCopy given.apart ready.1, ready.2⟩, ?_⟩
    simp only [place]
    refine filled.copy fun i small => ?_
    have lane : i / 2 < kTile ∧ first + i / 2 < node.outputCount := by omega
    have wanted := tileWanted given schedule rowInside ready.2 here lane.1 lane.2 (Nat.mod_lt i (by decide))
    rw [stride, show 2 * (first + i / 2) + i % 2 = 2 * first + i by omega, Nat.div_add_mod] at wanted
    exact wanted
  rw [stride]
  exact (tiles.congr fun a => memTiles (P := fun k => output.row (2 * outputDistance) (firstRow + slot) k = a)).prepare (fun core reads => ⟨reads, loadRowLoads reads⟩) (fun _ _ => rfl) fun _ => And.left

/- What a slot of the staging buffer is to hold, the lanes beyond the row included. -/
def staged (node : PackedRealBoundary) (twiddle : ℕ → S) (rows : ℕ → ℕ → S) (j : ℕ) : S :=
  let column := j % (2 * node.stagingRowPitch)
  node.tile twiddle (rows (j / (2 * node.stagingRowPitch))) (column / (2 * kTile) * kTile) (column % (2 * kTile))

omit given in
theorem stagedAt {rows : ℕ → ℕ → S} {slot i : ℕ} (here : first ∈ strided 0 node.outputCount kTile) (small : i < 2 * kTile) :
    node.staged twiddle rows (slot * node.stagingRowPitch * 2 + first * 2 + i) = node.tile twiddle (rows slot) first i := by
  have inside : 2 * first + i < 2 * node.stagingRowPitch := by
    have padded : first + i / 2 < node.stagingRowPitch := tilePadded here (by omega) le_rfl
    omega
  obtain ⟨t, rfl, _⟩ := (memStrided (by decide)).mp here
  have column : 2 * (0 + t * kTile) + i = t * (2 * kTile) + i := by ring
  have place : slot * node.stagingRowPitch * 2 + (0 + t * kTile) * 2 + i =
      slot * (2 * node.stagingRowPitch) + (t * (2 * kTile) + i) := by ring
  rw [column] at inside
  rw [place]
  unfold staged
  simp only [mulAddDiv inside, mulAddMod inside, mulAddDiv small, mulAddMod small, Nat.zero_add]

/- A row of the inverse direction stays in its slot. -/
theorem inverseRow (mode : node.r2cPostprocess = false) {firstRow slot : ℕ} {m' : Memory S} (reads : Reads input m m')
    {start : ℕ → S} :
    Fills Core.staging (fun core => core.memory = m')
      (node.staged twiddle fun slot i => m (input.row (2 * inputDistance) (firstRow + slot) i)) start
      (fun j => ∃ first ∈ strided 0 node.outputCount kTile, ∃ i < 2 * kTile,
        slot * node.stagingRowPitch * 2 + first * 2 + i = j)
      (node.processRow twiddle input output inputDistance outputDistance firstRow · slot) := by
  have tiles : Fills Core.staging
      (fun core => core.memory = m' ∧ node.Loaded input inputDistance (firstRow + slot) m core)
      (node.staged twiddle fun slot i => m (input.row (2 * inputDistance) (firstRow + slot) i)) start
      (fun j => ∃ first ∈ strided 0 node.outputCount kTile, ∃ i < 2 * kTile,
        slot * node.stagingRowPitch * 2 + first * 2 + i = j)
      ((strided 0 node.outputCount kTile).foldl
        (node.storeTile twiddle output outputDistance (firstRow + slot) slot)) := by
    refine Fills.loop fun first here core done ready filled => ?_
    simp only [storeTile, mode, Bool.false_eq_true, if_false]
    refine ⟨ready, filled.copy fun i small => ?_⟩
    rw [stagedAt here small, ← Nat.div_add_mod i 2]
    exact tileCongr given.positive ready.2 here (by omega) (Nat.mod_lt i (by decide))
  exact tiles.prepare (fun core same => ⟨same, loadRowLoads (same ▸ reads)⟩) (fun _ _ => rfl) fun _ => And.left

/- The staging buffer holds the rows of a group. -/
def GroupStaged (node : PackedRealBoundary) (twiddle : ℕ → S) (input : Address) (inputDistance firstRow validRows : ℕ)
    (m : Memory S) (core : Core S) : Prop :=
  ∀ slot < validRows, ∀ c < node.outputCount, ∀ index < 2,
    core.staging (2 * (slot * node.stagingRowPitch + c) + index) =
      node.tile twiddle (fun i => m (input.row (2 * inputDistance) (firstRow + slot) i)) (c / kTile * kTile)
        (2 * (c % kTile) + index)

theorem groupStaged (mode : node.r2cPostprocess = false) {firstRow validRows : ℕ} {core : Core S}
    (reads : Reads input m core.memory) :
    ((List.range validRows).foldl (node.processRow twiddle input output inputDistance outputDistance firstRow) core).memory =
        core.memory ∧
      node.GroupStaged twiddle input inputDistance firstRow validRows m
        ((List.range validRows).foldl (node.processRow twiddle input output inputDistance outputDistance firstRow) core) := by
  have rows : Fills Core.staging (fun after => after.memory = core.memory)
      (node.staged twiddle fun slot i => m (input.row (2 * inputDistance) (firstRow + slot) i)) core.staging
      (fun j => ∃ slot ∈ List.range validRows, ∃ first ∈ strided 0 node.outputCount kTile, ∃ i < 2 * kTile,
        slot * node.stagingRowPitch * 2 + first * 2 + i = j)
      ((List.range validRows).foldl (node.processRow twiddle input output inputDistance outputDistance firstRow)) :=
    Fills.loop fun slot _ => inverseRow given mode reads
  refine ⟨(rows core (fun _ => False) rfl .fresh).1, fun slot rowInside c inside index binary => ?_⟩
  have small : 2 * (c % kTile) + index < 2 * kTile := by
    have := Nat.mod_lt c (show 0 < kTile by decide)
    omega
  have here : c / kTile * kTile ∈ strided 0 node.outputCount kTile :=
    (memStrided (by decide)).mpr ⟨c / kTile, (Nat.zero_add _).symm, (Nat.div_mul_le_self c kTile).trans_lt inside⟩
  have place : 2 * (slot * node.stagingRowPitch + c) + index =
      slot * node.stagingRowPitch * 2 + c / kTile * kTile * 2 + (2 * (c % kTile) + index) := by
    have split := Nat.div_add_mod' c kTile
    calc 2 * (slot * node.stagingRowPitch + c) + index
        = 2 * (slot * node.stagingRowPitch + (c / kTile * kTile + c % kTile)) + index := by rw [split]
      _ = _ := by ring
  rw [place, (rows.run rfl rfl).there _ ⟨slot, List.mem_range.mpr rowInside, _, here, _, small, rfl⟩, stagedAt here small]

/- The rows of a group leave together. -/
theorem compactRows (schedule : Schedule) (mode : node.r2cPostprocess = false) {firstRow validRows : ℕ}
    (rowsInside : firstRow + validRows ≤ batch) (rowsOfGroup : validRows ≤ node.groupRows) :
    Fills Core.memory
      (fun core => Reads input m core.memory ∧ node.GroupStaged twiddle input inputDistance firstRow validRows m core)
      ((node.generic root inputDistance outputDistance).launch input output batch schedule m) m
      (fun a => ∃ slot < validRows, ∃ k < 2 * node.outputCount,
        output.row (node.generic root inputDistance outputDistance).outStride (firstRow + slot) k = a)
      ((strided 0 (validRows * node.outputCount) kTile).foldl
        (node.compactTile output firstRow (validRows * node.outputCount))) := by
  have stride : (node.generic root inputDistance outputDistance).outStride = 2 * node.outputCount := by
    unfold generic outputCount
    rw [mode]
    rfl
  -- the scalars of the rows of a group, one row after the other
  have place : ∀ slot k, output.at (firstRow * node.outputCount * 2 + (slot * (2 * node.outputCount) + k)) =
      output.row (2 * node.outputCount) (firstRow + slot) k := fun slot k => by
    unfold Address.row
    congr 1
    ring
  have tiles : Fills Core.memory
      (fun core => Reads input m core.memory ∧ node.GroupStaged twiddle input inputDistance firstRow validRows m core)
      ((node.generic root inputDistance outputDistance).launch input output batch schedule m) m
      (fun a => ∃ first ∈ strided 0 (validRows * node.outputCount) kTile,
        ∃ i < 2 * min kTile (validRows * node.outputCount - first), output.at (firstRow * node.outputCount * 2 + (2 * first + i)) = a)
      ((strided 0 (validRows * node.outputCount) kTile).foldl
        (node.compactTile output firstRow (validRows * node.outputCount))) := by
    refine Fills.loop fun first here core done ready filled => ?_
    refine ⟨⟨readsCopy given.apart ready.1, ready.2⟩, ?_⟩
    have same : ∀ i, output.at ((firstRow * node.outputCount + first) * 2 + i) =
        output.at (firstRow * node.outputCount * 2 + (2 * first + i)) := fun i => by
      congr 1
      ring
    simp only [compactTile, same]
    refine filled.copy fun i small => ?_
    have flat : (2 * first + i) / 2 < validRows * node.outputCount := by omega
    have countPositive : 0 < node.outputCount := Nat.pos_of_mul_pos_left (Nat.zero_lt_of_lt flat)
    have slotInside := Nat.div_lt_of_lt_mul (Nat.mul_comm validRows node.outputCount ▸ flat)
    have columnInside := Nat.mod_lt ((2 * first + i) / 2) countPositive
    have binary := Nat.mod_lt (2 * first + i) (show 0 < 2 by decide)
    have group : 2 * first + i < 2 * (node.groupRows * node.outputCount) := by
      have := Nat.mul_le_mul_right node.outputCount rowsOfGroup
      omega
    simp only [gather, Nat.add_assoc node.compactIndexBase, compactIndex group, Nat.zero_add,
      Nat.mul_div_cancel _ (show 0 < floatBytes by decide)]
    -- column `c` of slot `slot` of the group
    let slot := (2 * first + i) / 2 / node.outputCount
    let c := (2 * first + i) / 2 % node.outputCount
    have column : c / kTile * kTile + c % kTile = c := Nat.div_add_mod' c kTile
    have start : c / kTile * kTile ∈ strided 0 node.outputCount kTile :=
      (memStrided (by decide)).mpr ⟨c / kTile, (Nat.zero_add _).symm, (Nat.div_mul_le_self c kTile).trans_lt columnInside⟩
    have wanted := tileWanted given schedule (m := m) (show firstRow + slot < batch by omega) (fun _ _ => rfl) start
      (Nat.mod_lt c (by decide)) (column.symm ▸ columnInside) binary
    have here : slot * (2 * node.outputCount) + (2 * c + (2 * first + i) % 2) = 2 * first + i := by
      calc slot * (2 * node.outputCount) + (2 * c + (2 * first + i) % 2)
          = 2 * (slot * node.outputCount + c) + (2 * first + i) % 2 := by ring
        _ = 2 * ((2 * first + i) / 2) + (2 * first + i) % 2 := by rw [Nat.div_add_mod']
        _ = _ := Nat.div_add_mod _ 2
    rw [stride, column, ← place, here] at wanted
    exact (ready.2 _ slotInside _ columnInside _ binary).trans wanted
  refine tiles.congr fun a => ?_
  rw [memTiles (P := fun f => output.at (firstRow * node.outputCount * 2 + f) = a), stride]
  constructor
  · rintro ⟨f, inside, rfl⟩
    have positive : 0 < 2 * node.outputCount := by
      by_contra zero
      obtain rfl | some_ := Nat.eq_zero_or_pos validRows
      · omega
      · rw [show node.outputCount = 0 by omega] at inside
        omega
    refine ⟨f / (2 * node.outputCount), Nat.div_lt_of_lt_mul ?_, f % (2 * node.outputCount), Nat.mod_lt _ positive, ?_⟩
    · calc f < 2 * (validRows * node.outputCount) := inside
        _ = 2 * node.outputCount * validRows := by ring
    · rw [← place, Nat.div_add_mod']
  · rintro ⟨slot, slotInside, k, inside, rfl⟩
    refine ⟨slot * (2 * node.outputCount) + k, ?_, place slot k⟩
    calc slot * (2 * node.outputCount) + k < validRows * (2 * node.outputCount) := mulAddLt slotInside inside
      _ = 2 * (validRows * node.outputCount) := by ring

/- The rows of a group. -/
def GroupRegion (node : PackedRealBoundary) (dst : Layout) (batch group : ℕ) (a : Address) : Prop :=
  ∃ slot < min node.groupRows (batch - group * node.groupRows), ∃ k < 2 * node.outputCount,
    dst (group * node.groupRows + slot) k = a

theorem groupFills (schedule : Schedule) {group : ℕ} (inside : group < node.rowGroups batch) :
    Fills Core.memory (fun core => Reads input m core.memory)
      ((node.generic root inputDistance outputDistance).launch input output batch schedule m) m
      (node.GroupRegion (output.row (node.generic root inputDistance outputDistance).outStride) batch group)
      (node.processGroup twiddle input output inputDistance outputDistance batch · group) := by
  have positive : 0 < node.groupRows := (Nat.find_spec (groupRowsFound node.outputCount)).1
  have start : group * node.groupRows < batch := (ltCeilDiv positive).mp inside
  cases mode : node.r2cPostprocess with
  | true =>
    simp only [processGroup, mode, if_true]
    have rows : Fills Core.memory (fun core => Reads input m core.memory)
        ((node.generic root inputDistance outputDistance).launch input output batch schedule m) m
        (fun a => ∃ slot ∈ List.range (min node.groupRows (batch - group * node.groupRows)), ∃ k < 2 * node.outputCount,
          output.row (node.generic root inputDistance outputDistance).outStride (group * node.groupRows + slot) k = a)
        ((List.range (min node.groupRows (batch - group * node.groupRows))).foldl
          (node.processRow twiddle input output inputDistance outputDistance (group * node.groupRows))) :=
      Fills.loop fun slot here => forwardRow given schedule mode (by rw [List.mem_range] at here; omega)
    exact rows.congr fun a => by simp only [List.mem_range, GroupRegion]
  | false =>
    simp only [processGroup, mode, Bool.false_eq_true, if_false]
    exact (compactRows given schedule mode (by omega) (min_le_left _ _)).prepare
      (fun core reads => ⟨(groupStaged given mode reads).1.symm ▸ reads, (groupStaged given mode reads).2⟩)
      (fun core reads => (groupStaged given mode reads).1) fun _ => And.left

/- Every row is in the group that some block takes. -/
omit [Field S] given in
theorem blocksCover {dst : Layout} {blocks : ℕ} (positive : 0 < blocks) (schedule : Schedule) (a : Address) :
    (∃ block ∈ schedule.order blocks, ∃ group ∈ strided block (node.rowGroups batch) blocks,
      node.GroupRegion dst batch group a) ↔ ∃ row < batch, ∃ k < 2 * node.outputCount, dst row k = a := by
  have rows : 0 < node.groupRows := (Nat.find_spec (groupRowsFound node.outputCount)).1
  constructor
  · rintro ⟨block, _, group, _, slot, small, k, inside, rfl⟩
    exact ⟨group * node.groupRows + slot, by omega, k, inside, rfl⟩
  · rintro ⟨row, rowInside, k, inside, rfl⟩
    have split := Nat.div_add_mod' row node.groupRows
    have short := Nat.mod_lt row rows
    have group : row / node.groupRows < node.rowGroups batch := (ltCeilDiv rows).mpr (by omega)
    refine ⟨row / node.groupRows % blocks, schedule.mem.mpr (Nat.mod_lt _ positive), row / node.groupRows,
      (memStrided positive).mpr ⟨row / node.groupRows / blocks, (Nat.mod_add_div' _ blocks).symm, group⟩,
      row % node.groupRows, lt_min short (by omega), k, inside, ?_⟩
    rw [split]

/- Any launch leaves what a launch of the generic kernel leaves. -/
theorem launchSame (length : 128 ≤ node.length ∧ node.length ≤ 2048 ∧ node.length % 2 = 0) (some_ : 0 < batch)
    (local_ : ℕ → (ℕ → S) × (ℕ → S)) (schedule schedule' : Schedule) (m : Memory S) :
    node.launch twiddle input output inputDistance outputDistance batch local_ schedule m =
      (node.generic root inputDistance outputDistance).launch input output batch schedule' m := by
  have rows : 0 < node.groupRows := (Nat.find_spec (groupRowsFound node.outputCount)).1
  have blocksPositive : 0 < min (node.rowGroups batch) kMaxBlocks :=
    lt_min ((ltCeilDiv rows).mpr (by omega)) (by decide)
  have fills : Fills id (Reads input m)
      ((node.generic root inputDistance outputDistance).launch input output batch schedule' m) m
      (fun a => ∃ block ∈ schedule.order (min (node.rowGroups batch) kMaxBlocks),
        ∃ group ∈ strided block (node.rowGroups batch) (min (node.rowGroups batch) kMaxBlocks),
          node.GroupRegion (output.row (node.generic root inputDistance outputDistance).outStride) batch group a)
      (node.launch twiddle input output inputDistance outputDistance batch local_ schedule) := by
    refine Fills.loop fun block _ m' done reads filled => ?_
    have guard : ¬(min (node.rowGroups batch) kMaxBlocks = 0 ∨ node.length < 128 ∨ 2048 < node.length ∨ node.length % 2 ≠ 0) := by
      omega
    have groups : Fills Core.memory (fun core => Reads input m core.memory)
        ((node.generic root inputDistance outputDistance).launch input output batch schedule' m) m
        (fun a => ∃ group ∈ strided block (node.rowGroups batch) (min (node.rowGroups batch) kMaxBlocks),
          node.GroupRegion (output.row (node.generic root inputDistance outputDistance).outStride) batch group a)
        (node.process twiddle input output inputDistance outputDistance batch (min (node.rowGroups batch) kMaxBlocks) block ·) := by
      simp only [process, if_neg guard]
      refine Fills.loop fun group here => groupFills given schedule' ?_
      obtain ⟨_, _, inside⟩ := (memStrided blocksPositive).mp here
      exact inside
    exact groups ⟨_, _, m'⟩ done reads filled
  refine ((fills.run (s := m) (fun _ => rfl) rfl).congr fun a => blocksCover blocksPositive schedule a).unique ⟨fun _ _ => rfl, ?_⟩
  intro a outside
  exact (genericMap given schedule' fun _ => False).frame m a not_false fun row rowInside k inside same =>
    outside ⟨row, rowInside, k, inside, same.symm⟩

end Generic

end Rows

section Accepts
variable (node : PackedRealBoundary) (context : BatchContext)

/- What the node and its launch check. -/
structure Accepts : Prop where
  short : 128 ≤ node.length
  long : node.length ≤ 2048
  even : node.length % 2 = 0
  rows : 0 < context.batch
  batch : context.batch ≤ int32Max
  inputDistance : node.inputDistance context ≤ int32Max
  outputDistance : node.outputDistance context ≤ int32Max
  inputFits : (if node.r2cPostprocess then node.packed else node.half) ≤ node.inputDistance context
  outputFits : (if node.r2cPostprocess then node.half else node.packed) ≤ node.outputDistance context

theorem tablesOk {node : PackedRealBoundary} (positive : 0 < node.packed) (even : node.length % 2 = 0) :
    node.TableOk node.twiddles (buildRawPackedRealTwiddle node.length) where
  pairs k inside := by
    have below : k < node.length / 2 + 1 := inside
    have odd : (2 * k + 1) / 2 = k := by omega
    simp only [pair, twiddles, Nat.mul_div_cancel_left k (show 0 < 2 by decide), odd, if_pos inside, buildRawPackedRealTwiddle,
      if_pos below, part, Nat.mul_mod_right, Nat.mul_add_mod, if_true]
    simp
  first := by simp [buildRawPackedRealTwiddle]
  middle := by
    have whole : node.length = 2 * node.packed := by unfold packed; omega
    rw [buildRawPackedRealTwiddleAt (by unfold packed; omega), whole, forwardRootMiddle positive]
    simp

section Accepted
variable {node : PackedRealBoundary} {context : BatchContext} {input output : Address}

theorem acceptedGiven (accepts : node.Accepts context) (apart : input.buffer ≠ output.buffer) :
    node.Given node.twiddles (buildRawPackedRealTwiddle node.length) input output (node.inputDistance context)
      (node.outputDistance context) := by
  have positive : 0 < node.packed := by
    have := accepts.short
    unfold packed
    omega
  refine ⟨tablesOk positive accepts.even, positive, apart, fun mode => if_pos mode, fun mode => ?_⟩
  have fits := accepts.outputFits
  rwa [if_pos mode] at fits

theorem executeAccepted (accepts : node.Accepts context) (local_ : ℕ → (ℕ → ℝ) × (ℕ → ℝ)) (schedule : Schedule)
    (m : Memory ℝ) :
    node.execute node.twiddles context input output local_ schedule m =
      .ok (node.launch node.twiddles input output (node.inputDistance context) (node.outputDistance context) context.batch
        local_ schedule m) := by
  obtain ⟨short, long, even, rows, batch, inputDistance, outputDistance, inputFits, outputFits⟩ := accepts
  unfold execute launchBoundary
  rw [if_neg (by omega), if_neg (by omega)]

theorem executeRejected (rejects : ¬ node.Accepts context) (local_ : ℕ → (ℕ → ℝ) × (ℕ → ℝ)) (schedule : Schedule)
    (m : Memory ℝ) : node.execute node.twiddles context input output local_ schedule m = .error .invalidSize := by
  unfold execute
  split
  case isTrue => rfl
  case isFalse first =>
    unfold launchBoundary
    refine if_pos ?_
    by_contra passed
    exact rejects (by constructor <;> omega)

end Accepted

/- A node that accepts its context leaves what the kernel for any backend leaves: its values in every row, everything
else as it was. -/
theorem boundaryMatchesGeneric (input output : Address) (apart : input.buffer ≠ output.buffer)
    (local_ : ℕ → (ℕ → ℝ) × (ℕ → ℝ)) (schedule : Schedule) (m : Memory ℝ) :
    let kernel : TileKernel ℝ := node.generic (buildRawPackedRealTwiddle node.length) (node.inputDistance context)
      (node.outputDistance context)
    (¬ node.Accepts context → node.execute node.twiddles context input output local_ schedule m = .error .invalidSize) ∧
    (node.Accepts context → ∃ m', node.execute node.twiddles context input output local_ schedule m = .ok m' ∧
      (∀ schedule', m' = kernel.launch input output context.batch schedule' m) ∧
      (∀ row < context.batch, ∀ k < node.outputCount, ∀ index < 2,
        m' (output.row kernel.outStride row (2 * k + index)) =
          kernel.value (fun j => m (input.row (2 * node.inputDistance context) row j)) k index) ∧
      ∀ a, (∀ row < context.batch, ∀ k < 2 * node.outputCount, a ≠ output.row kernel.outStride row k) → m' a = m a) := by
  intro kernel
  refine ⟨fun rejects => executeRejected rejects local_ schedule m, fun accepts => ?_⟩
  have given := acceptedGiven accepts apart
  have same := launchSame given ⟨accepts.short, accepts.long, accepts.even⟩ accepts.rows local_ schedule
  refine ⟨_, executeAccepted accepts local_ schedule m, fun schedule' => same schedule' m,
    fun row rowInside k inside index binary => ?_, fun a outside => ?_⟩
  · have odd : (2 * k + index) % 2 = index := by omega
    have even : (2 * k + index) / 2 = k := by omega
    rw [same schedule m, (genericMap given schedule fun _ => False).writes m row rowInside _ (by omega), odd, even]
  · rw [same schedule m]
    exact (genericMap given schedule fun _ => False).frame m a not_false outside

/- Three rows of 65 outputs, the last group short. -/
theorem boundaryMatchesGenericOf130 :
    (⟨0, 0⟩ : Address).buffer ≠ (⟨1, 0⟩ : Address).buffer ∧ (⟨130, false⟩ : PackedRealBoundary).Accepts ⟨3, 70, 0⟩ ∧
    ∃ m', (⟨130, false⟩ : PackedRealBoundary).execute (twiddles ⟨130, false⟩) ⟨3, 70, 0⟩ ⟨0, 0⟩ ⟨1, 0⟩
        (fun _ => (fun _ => 0, fun _ => 0)) ascending (fun _ => 1) = .ok m' ∧
      ∀ a, (∀ row < 3, ∀ k < 130, a ≠ (⟨1, 0⟩ : Address).row 130 row k) → m' a = 1 := by
  have accepts : (⟨130, false⟩ : PackedRealBoundary).Accepts ⟨3, 70, 0⟩ := by
    constructor <;> decide
  obtain ⟨m', ran, _, _, frame⟩ := (boundaryMatchesGeneric ⟨130, false⟩ ⟨3, 70, 0⟩ ⟨0, 0⟩ ⟨1, 0⟩ (by decide)
    (fun _ => (fun _ => 0, fun _ => 0)) ascending (fun _ => 1)).2 accepts
  exact ⟨by decide, accepts, m', ran, frame⟩

end Accepts

end PackedRealBoundary

end FlagFft.Npu
