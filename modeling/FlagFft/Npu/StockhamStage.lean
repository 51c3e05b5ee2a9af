import FlagFft.Npu.Ascend
import FlagFft.Stockham.Paired

/-! A Stockham stage on the vector cores: tiles of 128 lanes, filled by a piece of one group of butterflies, by several short
groups, or by several transforms. The host prepares roots, twiddles and tables of byte offsets. -/
namespace FlagFft.Npu
open Library.Indexing Library.Stores Library.Filling FlagFft.Stockham
open FlagFft.Real (part)

/- A complex value is two floats; its address counts values. -/
def complexView (m : Memory ℝ) : Memory ℂ := fun a => ⟨m ⟨a.buffer, 2 * a.offset⟩, m ⟨a.buffer, 2 * a.offset + 1⟩⟩

def floatAddress (a : Address) : Address := ⟨a.buffer, 2 * a.offset⟩

structure StockhamStage where
  length : ℕ
  radix : ℕ
  span : ℕ
  deriving DecidableEq, Repr

namespace StockhamStage

def kTile : ℕ := 128

def kMaxRadix : ℕ := 19

def kRootStride : ℕ := 24

def kComplexAlignment : ℕ := 4

/- Transforms share a tile where each of them starts at a whole block of local memory. -/
def stockhamBatchGroup (laneExtent : ℕ) : ℕ :=
  if 0 < laneExtent ∧ laneExtent < kTile ∧ laneExtent % kComplexAlignment = 0 then kTile / laneExtent else 1

section Shape
variable (node : StockhamStage)

def ndiv : ℕ := node.length / node.radix

def batchLaneExtent : ℕ := if node.span = 1 then node.ndiv else min node.span kTile

def batchGroup : ℕ := stockhamBatchGroup node.batchLaneExtent

def packedGroupsPerTile : ℕ := if 1 < node.span ∧ node.span < kTile ∧ node.batchGroup = 1 then kTile / node.span else 1

def groupsPerTransform : ℕ := if node.span = 1 then 1 else node.ndiv / node.span

def tilesPerGroup : ℕ := if node.span = 1 then 1 else ceilDiv node.span kTile

def tilesPerTransform : ℕ :=
  if node.span = 1 then ceilDiv node.ndiv kTile
  else ceilDiv node.groupsPerTransform node.packedGroupsPerTile * node.tilesPerGroup

def batchGroups (batch : ℕ) : ℕ := ceilDiv batch node.batchGroup

def twiddleStride : ℕ := if 1 < node.packedGroupsPerTile then kTile else node.span

/- Rounded up to a whole block. -/
def storeIndexStride : ℕ :=
  let storeLanes := if node.span = 1 then min node.ndiv kTile else node.batchLaneExtent
  (2 * node.radix * storeLanes + 7) / 8 * 8

end Shape

/- The device tables of a stage; only some stages have store indices. -/
structure Tables (S : Type*) where
  twiddles : ℕ → S
  roots : ℕ → S
  indices : ℕ → ℕ
  storeIndices : Option (ℕ → ℕ)

section Host
variable (node : StockhamStage)

/- Whether the compiler takes the vector kernel for a stage: lanes and tiles enough to keep the cores at work. -/
def UseAivStage (npu2dAivStockham : Bool) (batch : ℕ) : Prop :=
  let effectiveBatchLanes := if 0 < batch then min node.batchGroup batch else 0
  let effectiveStageLanes := effectiveBatchLanes * node.batchLaneExtent
  let stageBatchGroups := batch / node.batchGroup + if batch % node.batchGroup ≠ 0 then 1 else 0
  let minAivStageTiles := kTile / 8
  let stageGroupsNeeded := if 0 < node.tilesPerTransform then ceilDiv minAivStageTiles node.tilesPerTransform else minAivStageTiles
  let enoughStageWork := 0 < batch ∧ 0 < node.tilesPerTransform ∧ stageGroupsNeeded ≤ stageBatchGroups
  npu2dAivStockham = true ∧ 0 < node.length ∧ node.length < uint32Size ∧ 2 ≤ node.radix ∧ node.radix ≤ kMaxRadix ∧
    0 < node.span ∧ node.span < uint32Size ∧ node.length % node.radix = 0 ∧ node.length % (node.radix * node.span) = 0 ∧
    kTile / 8 ≤ effectiveStageLanes ∧ enoughStageWork

/- Five vectors: the parts of a tile of values, the interleaving of two tiles, the rows of the roots. -/
def aivIndices (i : ℕ) : ℕ :=
  if i < kTile then 2 * i * floatBytes
  else if i < 2 * kTile then (2 * (i - kTile) + 1) * floatBytes
  else if i < 4 * kTile then
    let j := i - 2 * kTile
    (j % 2 * kTile + j / 2) * floatBytes
  else if i < 5 * kTile then
    let lane := i - 4 * kTile
    if lane < kMaxRadix then lane * kRootStride * floatBytes else 0
  else 0

def sign : Direction → ℝ
  | .forward => -1
  | .inverse => 1

/- exp of the sign of the direction times 2 pi i * count / n, by its parts. -/
noncomputable def unitPart (direction : Direction) (count n index : ℕ) : ℝ :=
  let angle := sign direction * (2 : ℕ) * Real.pi * count / n
  part (Real.cos angle, Real.sin angle) index

noncomputable def roots (direction : Direction) (i : ℕ) : ℝ :=
  let plane := i / (node.radix * kRootStride)
  let q := i % (node.radix * kRootStride) / kRootStride
  let digit := i % (node.radix * kRootStride) % kRootStride
  if plane < 2 ∧ digit < node.radix then unitPart direction (q * digit) node.radix plane else 0

noncomputable def stageTwiddles (direction : Direction) (i : ℕ) : ℝ :=
  let digit := i / 2 / node.twiddleStride
  let j := i / 2 % node.twiddleStride
  if digit < node.radix then unitPart direction (digit * (j % node.span)) (node.radix * node.span) (i % 2) else 0

def hostStoreLanes : ℕ := if node.span = 1 then min node.ndiv kTile else node.span

def hostStoreIndexStride : ℕ := (2 * node.radix * node.hostStoreLanes + 7) / 8 * 8

def outputComplex (q lane : ℕ) : ℕ := if node.span = 1 then lane * node.radix + q else q * node.hostStoreLanes + lane

/- The floats of the accumulators in the order of the outputs, for each transform of a tile. -/
def storeEntries : List (Store ℕ ℕ) :=
  (List.range node.batchGroup).flatMap fun transform => (List.range node.radix).flatMap fun q =>
    (List.range node.hostStoreLanes).flatMap fun lane =>
      let mapping := transform * node.hostStoreIndexStride
      let inputLane := transform * node.hostStoreLanes + lane
      [⟨mapping + 2 * node.outputComplex q lane, (q * kTile + inputLane) * floatBytes⟩,
        ⟨mapping + (2 * node.outputComplex q lane + 1), (node.radix * kTile + q * kTile + inputLane) * floatBytes⟩]

noncomputable def buildTables (direction : Direction) : Tables ℝ where
  twiddles := node.stageTwiddles direction
  roots := node.roots direction
  indices := aivIndices
  storeIndices :=
    if node.span ≤ kTile ∧ node.packedGroupsPerTile = 1 then some (commitAll (fun _ => 0) node.storeEntries) else none

end Host

structure Tile where
  batchIndex : ℕ
  groupedBatchCount : ℕ
  kStart : ℕ
  jStart : ℕ
  valid : ℕ
  validPerGroup : ℕ
  groupsInTile : ℕ

def tile (node : StockhamStage) (batch tileId : ℕ) : Tile :=
  let localTile := tileId % node.tilesPerTransform
  let batchIndex := tileId / node.tilesPerTransform * node.batchGroup
  let groupedBatchCount := min (batch - batchIndex) node.batchGroup
  if node.span = 1 then
    let kStart := localTile * kTile
    let valid := min (node.ndiv - kStart) kTile
    ⟨batchIndex, groupedBatchCount, kStart, 0, valid, valid, 1⟩
  else
    let jStart := localTile % node.tilesPerGroup * kTile
    let group := localTile / node.tilesPerGroup * node.packedGroupsPerTile
    let validPerGroup := min (node.span - jStart) kTile
    let groupsInTile := min (node.groupsPerTransform - group) node.packedGroupsPerTile
    ⟨batchIndex, groupedBatchCount, group * node.span + jStart, jStart,
      if 1 < node.packedGroupsPerTile then groupsInTile * validPerGroup else validPerGroup, validPerGroup, groupsInTile⟩

section Kernel
variable {S : Type*} [CommRing S] (node : StockhamStage) (tables : Tables S) (pad : S) (input output : Address)

/- The lanes of every transform of a tile, over zeros. -/
def loadTile (tile : Tile) (source : ℕ → ℕ → S) : ℕ → S :=
  (List.range tile.groupedBatchCount).foldl (fun local_ transform =>
    let dest := 2 * (transform * node.batchLaneExtent)
    if tile.valid = kTile ∧ node.batchGroup = 1 then copy (dest + ·) (2 * kTile) (source transform) local_
    else copyPadIn pad 1 (tile.valid * complexBytes) 0 0 (source transform) dest local_) fun _ => 0

/- The parts of one digit of every butterfly, after its twiddle. -/
def loadDigit (tile : Tile) (m : Memory S) (digit : ℕ) : (ℕ → S) × (ℕ → S) :=
  let inputLocal := node.loadTile pad tile fun transform i =>
    m (input.at (2 * ((tile.batchIndex + transform) * node.length + tile.kStart + digit * node.ndiv) + i))
  let digitReal := gather inputLocal tables.indices 0
  let digitImag := gather inputLocal (fun lane => tables.indices (kTile + lane)) 0
  if 0 < digit ∧ 1 < node.span then
    let twiddle := node.loadTile pad tile fun _ i => tables.twiddles (2 * (digit * node.twiddleStride + tile.jStart) + i)
    let twiddleReal := gather twiddle tables.indices 0
    let twiddleImag := gather twiddle (fun lane => tables.indices (kTile + lane)) 0
    (fun lane => digitReal lane * twiddleReal lane - digitImag lane * twiddleImag lane,
      fun lane => digitReal lane * twiddleImag lane + digitImag lane * twiddleReal lane)
  else (digitReal, digitImag)

def addDigit (digits : ℕ → (ℕ → S) × (ℕ → S)) (q lane : ℕ) (acc : S × S) (digit : ℕ) : S × S :=
  let inputReal := (digits digit).1 lane
  let inputImag := (digits digit).2 lane
  if digit = 0 then (acc.1 + inputReal, acc.2 + inputImag)
  else
    let rootOffsets q := tables.indices (4 * kTile + q)
    let coeffReal := gather tables.roots rootOffsets (digit * floatBytes) q
    let coeffImag := gather tables.roots rootOffsets ((node.radix * kRootStride + digit) * floatBytes) q
    (acc.1 + (inputReal * coeffReal - inputImag * coeffImag), acc.2 + (inputReal * coeffImag + inputImag * coeffReal))

def accumulate (digits : ℕ → (ℕ → S) × (ℕ → S)) (q lane : ℕ) : S × S :=
  (List.range node.radix).foldl (node.addDigit tables digits q lane) (0, 0)

/- The accumulators in local memory: real parts by output and lane, then imaginary parts. -/
def qAcc (digits : ℕ → (ℕ → S) × (ℕ → S)) (i : ℕ) : S :=
  part (node.accumulate tables digits (i % (node.radix * kTile) / kTile) (i % kTile)) (i / (node.radix * kTile))

def outputBase (tile : Tile) (transform : ℕ) : ℕ :=
  (tile.batchIndex + transform) * node.length + node.radix * tile.kStart - (node.radix - 1) * tile.jStart

/- The outputs of a transform, repacked and written in one piece. -/
def storeContiguous (storeIndices : ℕ → ℕ) (tile : Tile) (acc : ℕ → S) (m : Memory S) (transform : ℕ) : Memory S :=
  let outputComplexCount := node.radix * tile.valid
  let store := gather acc (fun i => storeIndices (transform * node.storeIndexStride + i)) 0
  let base := node.outputBase tile transform
  if base % 4 = 0 then copy (fun i => output.at (2 * base + i)) (2 * outputComplexCount) store m
  else copyPadOut 1 (outputComplexCount * complexBytes) 0 0 store (fun i => output.at (2 * base + i)) m

/- The groups of a tile that leave one after the other, the lanes of each, and where they are. -/
def groupsToStore (tile : Tile) : ℕ := if 1 < node.packedGroupsPerTile then tile.groupsInTile else 1

def groupValid (tile : Tile) : ℕ := if 1 < node.packedGroupsPerTile then tile.validPerGroup else tile.valid

def groupOffset (groupSlot : ℕ) : ℕ := if 1 < node.packedGroupsPerTile then groupSlot * node.span else 0

def groupBase (tile : Tile) (q transform groupSlot : ℕ) : ℕ :=
  node.outputBase tile transform + (if 1 < node.packedGroupsPerTile then groupSlot * node.radix * node.span else 0) +
    q * node.span

/- Every value at the start of a block of local memory. -/
def spread (count : ℕ) (packed : ℕ → S) : ℕ → S :=
  (List.range count).foldl (fun store lane =>
    Function.update (Function.update store (8 * lane) (packed (2 * lane))) (8 * lane + 1) (packed (2 * lane + 1))) fun _ => 0

/- One output of the butterflies of one group, value by value unless the lanes are whole and in order. -/
def storeGroup (tile : Tile) (acc : ℕ → S) (q transform : ℕ) (m : Memory S) (groupSlot : ℕ) : Memory S :=
  let planar i := if i < kTile then acc (q * kTile + i) else acc (node.radix * kTile + q * kTile + (i - kTile))
  let packed := gather planar (fun i => tables.indices (2 * kTile + i)) 0
  let base := node.groupBase tile q transform groupSlot
  let groupValid := node.groupValid tile
  let laneOffset := transform * node.batchLaneExtent + node.groupOffset groupSlot
  if node.packedGroupsPerTile = 1 ∧ 1 < node.span ∧ tile.groupedBatchCount = 1 ∧ groupValid = kTile ∧ base % 4 = 0 then
    copy (fun i => output.at (2 * base + i)) (2 * groupValid) (fun i => packed (2 * laneOffset + i)) m
  else
    let store := spread groupValid fun i => packed (2 * laneOffset + i)
    let outputStride := if node.span = 1 then (node.radix - 1) * complexBytes else 0
    copyPadOut groupValid complexBytes 0 outputStride store (fun i => output.at (2 * base + i)) m

def storeScattered (tile : Tile) (acc : ℕ → S) (m : Memory S) : Memory S :=
  (List.range node.radix).foldl (fun m q => (List.range tile.groupedBatchCount).foldl (fun m transform =>
    (List.range (node.groupsToStore tile)).foldl (node.storeGroup tables output tile acc q transform) m) m) m

def processTile (batch : ℕ) (m : Memory S) (tileId : ℕ) : Memory S :=
  let tile := node.tile batch tileId
  let acc := node.qAcc tables (node.loadDigit tables pad input tile m)
  match tables.storeIndices with
  | some storeIndices =>
    let hasContiguousStore := node.span ≤ kTile ∧ node.packedGroupsPerTile = 1
    if hasContiguousStore ∧ node.radix * tile.valid % 4 = 0 then
      (List.range tile.groupedBatchCount).foldl (node.storeContiguous output storeIndices tile acc) m
    else node.storeScattered tables output tile acc m
  | none => node.storeScattered tables output tile acc m

def totalTiles (batch : ℕ) : ℕ := node.batchGroups batch * node.tilesPerTransform

def process (batch blockCount block : ℕ) (m : Memory S) : Memory S :=
  if blockCount = 0 then m
  else (strided block (node.totalTiles batch) blockCount).foldl (node.processTile tables pad input output batch) m

def kMaxGrid : ℕ := 65535

def launch (batch : ℕ) (schedule : Schedule) (m : Memory S) : Memory S :=
  let blocks := min (node.totalTiles batch) kMaxGrid
  (schedule.order blocks).foldl (fun m block => node.process tables pad input output batch blocks block m) m

/- Without null pointers; the runtime accepts the launch. -/
def launchAscendcStockhamStage (batch : ℕ) (schedule : Schedule) (m : Memory S) : Except Failure (Memory S) :=
  if node.length = 0 ∨ node.radix < 2 ∨ kMaxRadix < node.radix ∨ node.span = 0 ∨ node.length % node.radix ≠ 0 ∨
      node.length % (node.radix * node.span) ≠ 0 ∨ batch = 0 then .error .invalidSize
  else if node.tilesPerTransform = 0 ∨ node.totalTiles batch = 0 then .error .invalidSize
  else .ok (node.launch tables pad input output batch schedule m)

/- A stage of the node, in chunks of transforms whose tiles 32 bits can count. -/
def execute (current dst : Address) (batch : ℕ) (schedule : Schedule) (m : Memory S) : Except Failure (Memory S) :=
  let tilesPerTransform :=
    if node.span = 1 then ceilDiv node.ndiv kTile else node.ndiv / node.span * ceilDiv node.span kTile
  let maxBatch := max 1 ((uint32Size - 1) / max 1 tilesPerTransform)
  let narrowed : StockhamStage := ⟨node.length % uint32Size, node.radix % uint32Size, node.span % uint32Size⟩
  chunkLoopM (fun offset count m =>
      narrowed.launchAscendcStockhamStage tables pad (floatAddress (current.at (offset * node.length)))
        (floatAddress (dst.at (offset * node.length))) (count % uint32Size) schedule m)
    batch (min batch maxBatch) m

end Kernel

section Lookups
variable {lane : ℕ} {S : Type*} {source : ℕ → S}

theorem aivReal (small : lane < kTile) : aivIndices lane = 2 * lane * floatBytes := if_pos small

theorem aivImag (small : lane < kTile) : aivIndices (kTile + lane) = (2 * lane + 1) * floatBytes := by
  unfold aivIndices
  rw [if_neg (by omega), if_pos (by omega), Nat.add_sub_cancel_left]

theorem aivMerged {i : ℕ} (small : i < 2 * kTile) : aivIndices (2 * kTile + i) = (i % 2 * kTile + i / 2) * floatBytes := by
  unfold aivIndices
  rw [if_neg (by omega), if_neg (by omega), if_pos (by omega), Nat.add_sub_cancel_left]

theorem aivRoot {q : ℕ} (small : q < kMaxRadix) : aivIndices (4 * kTile + q) = q * kRootStride * floatBytes := by
  have tile : kTile = 128 := rfl
  have most : kMaxRadix = 19 := rfl
  unfold aivIndices
  rw [if_neg (by omega), if_neg (by omega), if_neg (by omega), if_pos (by omega)]
  simp only [Nat.add_sub_cancel_left, if_pos small]

theorem gatherReal (small : lane < kTile) : gather source aivIndices 0 lane = source (2 * lane) := by
  rw [gather, aivReal small, offsetReal]

theorem gatherImag (small : lane < kTile) : gather source (fun lane => aivIndices (kTile + lane)) 0 lane = source (2 * lane + 1) := by
  rw [gather, aivImag small, Nat.zero_add, Nat.mul_div_cancel _ (by decide)]

/- Even positions of an interleaved tile come from the first half, odd positions from the second. -/
theorem gatherMerged {i : ℕ} (small : i < 2 * kTile) :
    gather source (fun i => aivIndices (2 * kTile + i)) 0 i = source (i % 2 * kTile + i / 2) := by
  rw [gather, aivMerged small, Nat.zero_add, Nat.mul_div_cancel _ (by decide)]

theorem gatherRoot {q : ℕ} (small : q < kMaxRadix) (base : ℕ) :
    gather source (fun q => aivIndices (4 * kTile + q)) (base * floatBytes) q = source (base + q * kRootStride) := by
  rw [gather, aivRoot small, ← Nat.add_mul, Nat.mul_div_cancel _ (by decide)]

end Lookups

section Roots
variable {node : StockhamStage} {direction : Direction}

theorem unitRoot (count n : ℕ) :
    (⟨unitPart direction count n 0, unitPart direction count n 1⟩ : ℂ) = directionRoot direction n ^ count := by
  have parts (x : ℝ) : Complex.exp (x * Complex.I) = ⟨Real.cos x, Real.sin x⟩ :=
    Complex.ext (Complex.exp_ofReal_mul_I_re x) (Complex.exp_ofReal_mul_I_im x)
  cases direction with
  | forward =>
    have angle : sign .forward * (2 : ℕ) * Real.pi * count / n = -(2 : ℕ) * Real.pi * count / n := by
      rw [sign, neg_one_mul]
    rw [directionRoot, FlagFft.Real.forwardRootPow, parts, unitPart, unitPart, angle]
    rfl
  | inverse =>
    have angle : sign .inverse * (2 : ℕ) * Real.pi * count / n = -(-(2 : ℕ) * Real.pi * count / n) := by
      rw [sign]
      ring
    rw [directionRoot, ← map_pow, FlagFft.Real.forwardRootPow, parts, unitPart, unitPart, angle, Real.cos_neg, Real.sin_neg]
    rfl

theorem rootsAt {q digit : ℕ} (hq : q < node.radix) (hd : digit < node.radix) (narrow : node.radix ≤ kMaxRadix) :
    (⟨node.roots direction (digit + q * kRootStride), node.roots direction (node.radix * kRootStride + digit + q * kRootStride)⟩ : ℂ) =
      directionRoot direction node.radix ^ (q * digit) := by
  have most : kMaxRadix = 19 := rfl
  have row : digit < kRootStride := by
    have stride : kRootStride = 24 := rfl
    omega
  have inside := mulAddLt hq row
  have real : digit + q * kRootStride = 0 * (node.radix * kRootStride) + (q * kRootStride + digit) := by ring
  have imag : node.radix * kRootStride + digit + q * kRootStride = 1 * (node.radix * kRootStride) + (q * kRootStride + digit) := by ring
  rw [← unitRoot]
  unfold roots
  simp only [real, imag, mulAddDiv inside, mulAddMod inside, mulAddDiv row, mulAddMod row, hd, and_true,
    show (0 : ℕ) < 2 by decide, show (1 : ℕ) < 2 by decide, if_true]

theorem stageTwiddlesAt {digit j : ℕ} (hd : digit < node.radix) (hj : j < node.twiddleStride) :
    (⟨node.stageTwiddles direction (2 * (digit * node.twiddleStride + j)),
      node.stageTwiddles direction (2 * (digit * node.twiddleStride + j) + 1)⟩ : ℂ) =
      directionRoot direction (node.radix * node.span) ^ (digit * (j % node.span)) := by
  have odd (i : ℕ) : (2 * i + 1) / 2 = i ∧ (2 * i + 1) % 2 = 1 := by omega
  rw [← unitRoot]
  unfold stageTwiddles
  simp only [Nat.mul_div_cancel_left _ (show 0 < 2 by decide), Nat.mul_mod_right, (odd _).1, (odd _).2, mulAddDiv hj, mulAddMod hj,
    if_pos hd]

end Roots

end StockhamStage

end FlagFft.Npu
