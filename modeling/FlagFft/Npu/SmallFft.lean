import FlagFft.Exec.Launches
import Mathlib.Tactic.Positivity

/-! The native transforms of 16, 32 and 64 points, launched in chunks of blocks. The host moves the pointers to the first
transform of a chunk and the kernel counts its blocks from zero again. Addresses are in bytes, from the pointers the node
is given; a scalar has four of them. -/
namespace FlagFft.Npu
open Library.Indexing Exec

/- A copy of a block: pieces of `width` scalars, `pitch` scalars apart. -/
structure Region where
  base : ℕ
  rows : ℕ
  width : ℕ
  pitch : ℕ
  deriving DecidableEq, Repr

def Region.addresses (pointer : ℕ) (region : Region) : List ℕ :=
  (List.range region.rows).flatMap fun row => (List.range region.width).map fun i =>
    pointer + 4 * (region.base + row * region.pitch + i)

def Region.flat (base count : ℕ) : Region := ⟨base, 1, count, 0⟩

/- What a block works on. -/
structure Block where
  transforms : List ℕ
  reads : List ℕ
  writes : List ℕ
  deriving DecidableEq, Repr

/- A kernel by what its blocks copy, and the host by where it moves the pointers for a first transform. -/
structure ChunkedKernel where
  groupSize : ℕ
  maxBlocks : ℕ
  source : ℕ → List Region
  target : ℕ → List Region
  inputOffset : ℕ → ℕ
  outputOffset : ℕ → ℕ

namespace ChunkedKernel
variable (kernel : ChunkedKernel)

def block (transformOffset inputOffset outputOffset index : ℕ) : Block where
  transforms := List.range' (transformOffset + index * kernel.groupSize) kernel.groupSize
  reads := (kernel.source index).flatMap (Region.addresses inputOffset)
  writes := (kernel.target index).flatMap (Region.addresses outputOffset)

/- The launches of one execution, the blocks of each counted from zero. -/
def chunked (blocks : ℕ) : List Block :=
  (batchChunks blocks kernel.maxBlocks).flatMap fun (blockOffset, chunkBlocks) =>
    let transformOffset := blockOffset * kernel.groupSize
    (List.range chunkBlocks).map
      (kernel.block transformOffset (kernel.inputOffset transformOffset) (kernel.outputOffset transformOffset))

/- One launch of all blocks. -/
def single (blocks : ℕ) : List Block := (List.range blocks).map (kernel.block 0 0 0)

/- Every transform once, at the addresses of a single launch. -/
structure Exact (batch : ℕ) : Prop where
  once : (kernel.chunked (batch / kernel.groupSize)).flatMap Block.transforms = List.range batch
  same : kernel.chunked (batch / kernel.groupSize) = kernel.single (batch / kernel.groupSize)

variable {kernel}

/- The two sides of a block, moved by the host or counted on by the kernel. -/
def SameRegions (regions : ℕ → List Region) (offset start index : ℕ) : Prop :=
  (regions index).flatMap (Region.addresses offset) = (regions (start + index)).flatMap (Region.addresses 0)

theorem blockSame {start index : ℕ} :
    kernel.block (start * kernel.groupSize) (kernel.inputOffset (start * kernel.groupSize))
        (kernel.outputOffset (start * kernel.groupSize)) index = kernel.block 0 0 0 (start + index) ↔
      SameRegions kernel.source (kernel.inputOffset (start * kernel.groupSize)) start index ∧
        SameRegions kernel.target (kernel.outputOffset (start * kernel.groupSize)) start index := by
  have transforms : start * kernel.groupSize + index * kernel.groupSize = 0 + (start + index) * kernel.groupSize := by ring
  simp only [block, Block.mk.injEq, transforms, true_and, SameRegions]

/- The blocks of all launches, by launch and index. -/
def handed (blocks maxBlocks : ℕ) : List ((ℕ × ℕ) × ℕ) :=
  (batchChunks blocks maxBlocks).flatMap fun piece => (List.range piece.2).map fun index => (piece, index)

theorem memHanded {blocks maxBlocks : ℕ} {piece : ℕ × ℕ} {index : ℕ} :
    (piece, index) ∈ handed blocks maxBlocks ↔ piece ∈ batchChunks blocks maxBlocks ∧ index < piece.2 := by
  simp only [handed, List.mem_flatMap, List.mem_map, List.mem_range, Prod.mk.injEq]
  constructor
  · rintro ⟨_, member, _, inside, rfl, rfl⟩
    exact ⟨member, inside⟩
  · rintro ⟨member, inside⟩
    exact ⟨piece, member, index, inside, rfl, rfl⟩

theorem handedBlocks {blocks maxBlocks : ℕ} (positive : 0 < maxBlocks) :
    (handed blocks maxBlocks).map (fun entry => entry.1.1 + entry.2) = List.range blocks := by
  rw [← @chunksCover blocks _ positive, handed, List.map_flatMap]
  refine List.flatMap_congr fun piece _ => ?_
  rw [List.map_map, List.range'_eq_map_range]
  rfl

theorem chunkedSame (positive : 0 < kernel.maxBlocks) (blocks : ℕ) :
    kernel.chunked blocks = kernel.single blocks ↔ ∀ piece ∈ batchChunks blocks kernel.maxBlocks, ∀ index < piece.2,
      SameRegions kernel.source (kernel.inputOffset (piece.1 * kernel.groupSize)) piece.1 index ∧
        SameRegions kernel.target (kernel.outputOffset (piece.1 * kernel.groupSize)) piece.1 index := by
  have left : kernel.chunked blocks = (handed blocks kernel.maxBlocks).map fun entry =>
      kernel.block (entry.1.1 * kernel.groupSize) (kernel.inputOffset (entry.1.1 * kernel.groupSize))
        (kernel.outputOffset (entry.1.1 * kernel.groupSize)) entry.2 := by
    simp only [chunked, handed, List.map_flatMap, List.map_map]
    rfl
  have right : kernel.single blocks = (handed blocks kernel.maxBlocks).map fun entry =>
      kernel.block 0 0 0 (entry.1.1 + entry.2) := by
    rw [single, ← handedBlocks positive, List.map_map]
    rfl
  rw [left, right, List.map_inj_left]
  constructor
  · intro same piece member index inside
    exact blockSame.mp (same (piece, index) (memHanded.mpr ⟨member, inside⟩))
  · rintro same ⟨piece, index⟩ here
    obtain ⟨member, inside⟩ := memHanded.mp here
    exact blockSame.mpr (same piece member index inside)

theorem groupsCover (blocks groupSize : ℕ) :
    ((List.range blocks).flatMap fun index => List.range' (index * groupSize) groupSize) = List.range (blocks * groupSize) := by
  induction blocks with
  | zero => simp
  | succ blocks ih =>
      rw [List.range_succ, List.flatMap_append, ih, List.flatMap_singleton, Nat.succ_mul, List.range_eq_range',
        List.range_eq_range']
      have joined := @List.range'_append_1 0 (blocks * groupSize) groupSize
      rwa [Nat.zero_add] at joined

/- The chunks miss no transform and repeat none, wherever the pointers are. -/
theorem transformsOnce (positive : 0 < kernel.maxBlocks) {batch : ℕ} (whole : batch % kernel.groupSize = 0) :
    (kernel.chunked (batch / kernel.groupSize)).flatMap Block.transforms = List.range batch := by
  have flat : (kernel.chunked (batch / kernel.groupSize)).flatMap Block.transforms =
      ((handed (batch / kernel.groupSize) kernel.maxBlocks).map fun entry => entry.1.1 + entry.2).flatMap fun index =>
        List.range' (index * kernel.groupSize) kernel.groupSize := by
    rw [List.flatMap_map, chunked, handed, List.flatMap_assoc, List.flatMap_assoc]
    refine List.flatMap_congr fun piece _ => ?_
    rw [List.flatMap_map, List.flatMap_map]
    refine List.flatMap_congr fun index _ => ?_
    simp only [block, Nat.add_mul]
  rw [flat, handedBlocks positive, groupsCover, Nat.div_mul_cancel (Nat.dvd_of_mod_eq_zero whole)]

/- Copies of one shape are the same when they start at the same byte. -/
theorem regionSame {pointer base base' rows width pitch : ℕ} (hr : 0 < rows) (hw : 0 < width) :
    Region.addresses pointer ⟨base, rows, width, pitch⟩ = Region.addresses 0 ⟨base', rows, width, pitch⟩ ↔
      pointer + 4 * base = 4 * base' := by
  constructor
  · intro same
    obtain ⟨r, rfl⟩ := Nat.exists_eq_add_of_le' hr
    obtain ⟨c, rfl⟩ := Nat.exists_eq_add_of_le' hw
    have first := congrArg List.head? same
    simpa [Region.addresses, List.range_succ_eq_map] using first
  · intro same
    refine List.flatMap_congr fun row _ => List.map_congr_left fun i _ => ?_
    simp only
    omega

end ChunkedKernel

inductive Mode where
  | complex
  | realForward
  | realInverse
  deriving DecidableEq, Repr

/- The first element of a group of columns of a matrix of `n` rows, or of a group of contiguous rows. -/
def elementBase (n stride transformBase : ℕ) : ℕ :=
  if stride = 1 then transformBase * n
  else transformBase / stride * n * stride + transformBase % stride

/- `groupSize` neighbouring columns of such a matrix, or as many rows. -/
def complexRegion (n stride groupSize transformBase : ℕ) : Region :=
  if stride = 1 then .flat (transformBase * n * 2) (2 * (n * groupSize))
  else ⟨elementBase n stride transformBase * 2, n, 2 * groupSize, 2 * stride⟩

def realRegion (n groupSize transformBase : ℕ) : Region := .flat (transformBase * n) (n * groupSize)

def halfRegion (n groupSize transformBase : ℕ) : Region :=
  .flat (transformBase * (n / 2 + 1) * 2) (2 * groupSize * (n / 2 + 1))

/- CompiledRawNpuAivFFTSmallNode -/
structure SmallNode where
  length : ℕ
  stride : ℕ
  outputStride : ℕ
  groupSize : ℕ
  mode : Mode
  deriving DecidableEq, Repr

namespace SmallNode
variable (node : SmallNode)

def preferredGroup : ℕ := if node.length = 16 then 8 else if node.length = 32 then 4 else 0

/- The checks of execute; what they refuse is an invalid size. -/
structure Accepts (batch : ℕ) : Prop where
  some_ : 0 < batch
  range : batch ≤ 2147483647
  length : node.length = 16 ∨ node.length = 32
  group : node.groupSize = 1 ∨ node.groupSize = node.preferredGroup
  stride : 0 < node.stride
  outputStride : 0 < node.outputStride
  real : node.mode ≠ .complex → node.stride = 1 ∧ node.outputStride = 1
  columns : node.stride ≠ 1 → node.groupSize ≤ node.stride ∧ node.stride % node.groupSize = 0
  outputColumns : node.outputStride ≠ 1 → node.groupSize ≤ node.outputStride ∧ node.outputStride % node.groupSize = 0
  whole : batch % node.groupSize = 0

/- Bytes up to a first transform. -/
def complexOffset (stride transformOffset : ℕ) : ℕ :=
  if stride = 1 then transformOffset * node.length * 8
  else transformOffset / stride * node.length * stride * 8 + transformOffset % stride * 8

def kernel : ChunkedKernel where
  groupSize := node.groupSize
  maxBlocks := 65535
  source index := match node.mode with
    | .realForward => [realRegion node.length node.groupSize (index * node.groupSize)]
    | .realInverse => [halfRegion node.length node.groupSize (index * node.groupSize)]
    | .complex => [complexRegion node.length node.stride node.groupSize (index * node.groupSize)]
  target index := match node.mode with
    | .realForward => [halfRegion node.length node.groupSize (index * node.groupSize)]
    | .realInverse => [realRegion node.length node.groupSize (index * node.groupSize)]
    | .complex => [complexRegion node.length node.outputStride node.groupSize (index * node.groupSize)]
  inputOffset transformOffset := match node.mode with
    | .realForward => transformOffset * node.length * 4
    | .realInverse => transformOffset * (node.length / 2 + 1) * 8
    | .complex => node.complexOffset node.stride transformOffset
  outputOffset transformOffset := match node.mode with
    | .realForward => transformOffset * (node.length / 2 + 1) * 8
    | .realInverse => transformOffset * node.length * 4
    | .complex => node.complexOffset node.outputStride transformOffset

end SmallNode

/- CompiledRawNpuAivFFT64Node -/
structure Fft64Node where
  stride : ℕ
  groupSize : ℕ
  radix4Pair : Bool
  mode : Mode
  deriving DecidableEq, Repr

namespace Fft64Node
variable (node : Fft64Node)

structure Accepts (batch : ℕ) : Prop where
  some_ : 0 < batch
  range : batch ≤ 2147483647
  stride : 0 < node.stride
  group : node.groupSize ∈ [1, 4, 8] ∨ (node.radix4Pair = true ∧ node.groupSize ∈ [16, 32])
  columns : node.groupSize ≠ 1 → node.stride = 1 ∨ node.stride = 64
  real : node.mode ≠ .complex → node.stride = 1
  whole : batch % node.groupSize = 0

def blocksPerMatrixGroup : ℕ := if 1 < node.groupSize then 64 / node.groupSize else if node.stride = 64 then 64 else 1

/- Groups of 4 or 8: the block counts the groups of a matrix, and `group` columns or rows from the first of its group. -/
def groupRegions (groupSize columns shift index : ℕ) : Region :=
  let groupsPerMatrix := 64 / groupSize
  let base := index / groupsPerMatrix * 64 * 64 +
    (if node.stride = 64 then index % groupsPerMatrix * groupSize else index % groupsPerMatrix * groupSize * 64)
  if node.stride = 64 then ⟨(base + shift) * 2, 64, 2 * columns, 2 * 64⟩
  else .flat ((base + shift * 64) * 2) (2 * (64 * columns))

def groupReal (groupSize columns shift index : ℕ) : Region :=
  let groupsPerMatrix := 64 / groupSize
  .flat (index / groupsPerMatrix * 64 * 64 + index % groupsPerMatrix * groupSize * 64 + shift * 64) (64 * columns)

def groupHalf (groupSize columns shift index : ℕ) : Region :=
  let groupsPerMatrix := 64 / groupSize
  .flat ((index / groupsPerMatrix * 64 * (64 / 2 + 1) + index % groupsPerMatrix * groupSize * (64 / 2 + 1) +
    shift * (64 / 2 + 1)) * 2) (2 * (64 / 2 + 1) * columns)

/- One side of a block that holds real rows, half spectra, or complex rows and columns. -/
inductive Side where
  | real
  | half
  | complex

def loads (side : Side) (index : ℕ) : List Region :=
  if node.radix4Pair ∨ node.groupSize = 1 then
    let transform := index * node.groupSize
    match side with
    | .real => [realRegion 64 node.groupSize transform]
    | .half => [halfRegion 64 node.groupSize transform]
    | .complex => [if node.radix4Pair then complexRegion 64 1 node.groupSize transform
        else complexRegion 64 node.stride 1 transform]
  else match side with
    | .real => [groupReal node.groupSize node.groupSize 0 index]
    | .half => [groupHalf node.groupSize node.groupSize 0 index]
    | .complex => [node.groupRegions node.groupSize node.groupSize 0 index]

/- Eight transforms are stored four at a time. -/
def stores (side : Side) (index : ℕ) : List Region :=
  if node.radix4Pair ∨ node.groupSize ≠ 8 then node.loads side index
  else match side with
    | .real => [groupReal 8 4 0 index, groupReal 8 4 4 index]
    | .half => [groupHalf 8 4 0 index, groupHalf 8 4 4 index]
    | .complex => [node.groupRegions 8 4 0 index, node.groupRegions 8 4 4 index]

def complexOffset (transformOffset : ℕ) : ℕ :=
  if node.stride = 64 then (transformOffset / 64 * 64 * 64 + transformOffset % 64) * 8 else transformOffset * 64 * 8

def kernel : ChunkedKernel where
  groupSize := node.groupSize
  maxBlocks := 65535 / node.blocksPerMatrixGroup * node.blocksPerMatrixGroup
  source := match node.mode with
    | .realForward => node.loads .real
    | .realInverse => node.loads .half
    | .complex => node.loads .complex
  target := match node.mode with
    | .realForward => node.stores .half
    | .realInverse => node.stores .real
    | .complex => node.stores .complex
  inputOffset transformOffset := match node.mode with
    | .realForward => transformOffset * 64 * 4
    | .realInverse => transformOffset * (64 / 2 + 1) * 8
    | .complex => node.complexOffset transformOffset
  outputOffset transformOffset := match node.mode with
    | .realForward => transformOffset * (64 / 2 + 1) * 8
    | .realInverse => transformOffset * 64 * 4
    | .complex => node.complexOffset transformOffset

end Fft64Node

inductive AivNode where
  | small (node : SmallNode)
  | fft64 (node : Fft64Node)

def AivNode.Accepts (node : AivNode) (batch : ℕ) : Prop :=
  match node with
  | .small node => node.Accepts batch
  | .fft64 node => node.Accepts batch

def AivNode.kernel : AivNode → ChunkedKernel
  | .small node => node.kernel
  | .fft64 node => node.kernel

/- A launch of `count` groups from group `start` on begins with a matrix, or ends inside the matrix it begins in. -/
def Restarts (stride groupSize : ℕ) (piece : ℕ × ℕ) : Prop :=
  stride = 1 ∨ piece.1 * groupSize % stride = 0 ∨ piece.1 * groupSize % stride + piece.2 * groupSize ≤ stride

/- Chunks of the small transforms are of 65535 blocks whatever the stride; single columns of 64 points are only aligned
for matrices of 64 columns. -/
def AivNode.Aligned (node : AivNode) (batch : ℕ) : Prop :=
  match node with
  | .small node => ∀ piece ∈ batchChunks (batch / node.groupSize) 65535,
      Restarts node.stride node.groupSize piece ∧ Restarts node.outputStride node.groupSize piece
  | .fft64 node => node.radix4Pair = true ∨ node.stride = 64 ∨ batch ≤ 65535 ∨ 65535 % node.stride = 0

section Bases

open ChunkedKernel

variable {n stride groupSize offset start index : ℕ}

/- Restarting inside a matrix only works while the columns do not run over its end. -/
theorem baseRestart (several : 1 < n) (positive : 0 < stride) (t t' : ℕ) :
    elementBase n stride (t + t') = elementBase n stride t + elementBase n stride t' ↔
      stride = 1 ∨ t % stride + t' % stride < stride := by
  by_cases rows : stride = 1
  · simp [elementBase, rows, Nat.add_mul]
  · simp only [elementBase, rows, if_false, false_or, Nat.add_div positive]
    by_cases inside : t % stride + t' % stride < stride
    · rw [if_neg (by omega), Nat.add_mod, Nat.mod_eq_of_lt inside]
      simp only [inside, iff_true]
      ring
    · have beyond : stride ≤ t % stride + t' % stride := by omega
      have low := Nat.mod_lt t positive
      have low' := Nat.mod_lt t' positive
      rw [if_pos beyond, Nat.add_mod, Nat.mod_eq_sub_mod beyond, Nat.mod_eq_of_lt (by omega)]
      simp only [inside, iff_false]
      have matrix : stride < n * stride := (Nat.lt_mul_iff_one_lt_left positive).mpr several
      have spread : (t / stride + t' / stride + 1) * n * stride =
          t / stride * n * stride + t' / stride * n * stride + n * stride := by ring
      omega

theorem flatSame {first : ℕ → ℕ} {count : ℕ} (some_ : 0 < count) :
    SameRegions (fun index => [.flat (first index) count]) offset start index ↔
      offset + 4 * first index = 4 * first (start + index) := by
  simp only [SameRegions, List.flatMap_singleton]
  exact regionSame Nat.one_pos some_

theorem complexSame (several : 1 < n) (positive : 0 < stride) (group : 0 < groupSize) :
    SameRegions (fun index => [complexRegion n stride groupSize (index * groupSize)])
        (8 * elementBase n stride (start * groupSize)) start index ↔
      stride = 1 ∨ start * groupSize % stride + index * groupSize % stride < stride := by
  have shape : SameRegions (fun index => [complexRegion n stride groupSize (index * groupSize)])
      (8 * elementBase n stride (start * groupSize)) start index ↔
        elementBase n stride (start * groupSize + index * groupSize) =
          elementBase n stride (start * groupSize) + elementBase n stride (index * groupSize) := by
    have length : 0 < n := one_pos.trans several
    by_cases rows : stride = 1
    · simp only [complexRegion, rows, if_true]
      rw [@flatSame _ _ _ (fun index => index * groupSize * n * 2) _ (by positivity)]
      simp only [elementBase, if_true]
      exact iff_of_true (by ring) (by ring)
    · simp only [complexRegion, rows, if_false, SameRegions, List.flatMap_singleton]
      rw [regionSame (by omega) (by omega), Nat.add_mul]
      omega
  rw [shape, baseRestart several positive]

theorem restartsIff {count : ℕ} (positive : 0 < stride) (group : 0 < groupSize)
    (columns : stride ≠ 1 → groupSize ≤ stride ∧ stride % groupSize = 0) :
    (∀ index < count, stride = 1 ∨ start * groupSize % stride + index * groupSize % stride < stride) ↔
      Restarts stride groupSize (start, count) := by
  by_cases rows : stride = 1
  · simp [Restarts, rows]
  · simp only [Restarts, rows, false_or]
    obtain ⟨_, whole⟩ := columns rows
    have low := Nat.mod_lt (start * groupSize) positive
    constructor
    · intro inside
      by_contra crosses
      rw [not_or, not_le] at crosses
      obtain ⟨middle, crosses⟩ := crosses
      -- the first group of the next matrix
      have divides : groupSize ∣ stride - start * groupSize % stride :=
        Nat.dvd_sub (Nat.dvd_of_mod_eq_zero whole)
          ((Nat.dvd_mod_iff (Nat.dvd_of_mod_eq_zero whole)).mpr (Nat.dvd_mul_left _ _))
      obtain ⟨next, gap⟩ := divides
      rw [Nat.mul_comm groupSize next] at gap
      have here : next < count := Nat.lt_of_mul_lt_mul_right (a := groupSize) (by omega)
      have first := inside next here
      have short : next * groupSize < stride := by omega
      rw [Nat.mod_eq_of_lt short] at first
      omega
    · rintro (aligned | ends) index here
      · rw [aligned, Nat.zero_add]
        exact Nat.mod_lt _ positive
      · have before : index * groupSize < count * groupSize := Nat.mul_lt_mul_of_pos_right here group
        have less := Nat.mod_le (index * groupSize) stride
        omega

end Bases

section Small

variable {node : SmallNode} {batch : ℕ}

theorem SmallNode.Accepts.groupPositive (ok : node.Accepts batch) : 0 < node.groupSize := by
  rcases ok.group with one | preferred
  · omega
  · rw [preferred, preferredGroup]
    rcases ok.length with length | length <;> simp [length]

theorem SmallNode.complexOffsetEq (stride transformOffset : ℕ) :
    node.complexOffset stride transformOffset = 8 * elementBase node.length stride transformOffset := by
  rw [complexOffset, elementBase]
  split <;> ring

/- Real rows and half spectra follow each other, whatever the block they are counted from. -/
theorem realSame {n groupSize start index : ℕ} (some_ : 0 < n * groupSize) :
    ChunkedKernel.SameRegions (fun index => [realRegion n groupSize (index * groupSize)]) (start * groupSize * n * 4)
      start index := by
  refine (flatSame some_).mpr ?_
  ring

theorem halfSame {n groupSize start index : ℕ} (group : 0 < groupSize) :
    ChunkedKernel.SameRegions (fun index => [halfRegion n groupSize (index * groupSize)])
      (start * groupSize * (n / 2 + 1) * 8) start index := by
  refine (flatSame (by positivity)).mpr ?_
  ring

theorem smallChunks (ok : node.Accepts batch) :
    node.kernel.chunked (batch / node.groupSize) = node.kernel.single (batch / node.groupSize) ↔
      ∀ piece ∈ batchChunks (batch / node.groupSize) 65535,
        Restarts node.stride node.groupSize piece ∧ Restarts node.outputStride node.groupSize piece := by
  have group := ok.groupPositive
  have length : 1 < node.length := by rcases ok.length with length | length <;> omega
  rw [ChunkedKernel.chunkedSame (Nat.succ_pos 65534)]
  refine forall_congr' fun piece => forall_congr' fun _ => ?_
  cases mode : node.mode with
  | complex =>
      simp only [SmallNode.kernel, mode, SmallNode.complexOffsetEq, complexSame length ok.stride group,
        complexSame length ok.outputStride group, forall_and]
      exact and_congr (restartsIff ok.stride group ok.columns) (restartsIff ok.outputStride group ok.outputColumns)
  | realForward =>
      obtain ⟨rows, outputRows⟩ := ok.real (by simp [mode])
      simp only [SmallNode.kernel, mode]
      exact iff_of_true (fun _ _ => ⟨realSame (by positivity), halfSame group⟩) ⟨.inl rows, .inl outputRows⟩
  | realInverse =>
      obtain ⟨rows, outputRows⟩ := ok.real (by simp [mode])
      simp only [SmallNode.kernel, mode]
      exact iff_of_true (fun _ _ => ⟨halfSame group, realSame (by positivity)⟩) ⟨.inl rows, .inl outputRows⟩

end Small

section Fft64

open ChunkedKernel

variable {node : Fft64Node} {batch : ℕ}

def Region.shift (scalars : ℕ) (region : Region) : Region := { region with base := region.base + scalars }

theorem Region.shiftAddresses (scalars : ℕ) (region : Region) :
    (region.shift scalars).addresses 0 = region.addresses (4 * scalars) := by
  refine List.flatMap_congr fun row _ => List.map_congr_left fun i _ => ?_
  simp only [shift]
  ring

/- Regions that the kernel moves as far as the host does. -/
theorem shiftSame {regions : ℕ → List Region} {offset scalars start index : ℕ} (moved : offset = 4 * scalars)
    (shifted : regions (start + index) = (regions index).map (Region.shift scalars)) :
    SameRegions regions offset start index := by
  rw [SameRegions, shifted, moved, List.flatMap_map]
  exact List.flatMap_congr fun region _ => (Region.shiftAddresses scalars region).symm

theorem groupShift {groupSize matrices columns shift index : ℕ} (some_ : 0 < 64 / groupSize) :
    node.groupRegions groupSize columns shift (matrices * (64 / groupSize) + index) =
        (node.groupRegions groupSize columns shift index).shift (matrices * 64 * 64 * 2) ∧
      Fft64Node.groupReal groupSize columns shift (matrices * (64 / groupSize) + index) =
        (Fft64Node.groupReal groupSize columns shift index).shift (matrices * 64 * 64) ∧
      Fft64Node.groupHalf groupSize columns shift (matrices * (64 / groupSize) + index) =
        (Fft64Node.groupHalf groupSize columns shift index).shift (matrices * 64 * (64 / 2 + 1) * 2) := by
  have quotient : (matrices * (64 / groupSize) + index) / (64 / groupSize) = matrices + index / (64 / groupSize) := by
    rw [Nat.add_comm, Nat.add_mul_div_right _ _ some_, Nat.add_comm]
  have remainder : (matrices * (64 / groupSize) + index) % (64 / groupSize) = index % (64 / groupSize) := by
    rw [Nat.add_comm, Nat.add_mul_mod_self_right]
  refine ⟨?_, ?_, ?_⟩
  · simp only [Fft64Node.groupRegions, quotient, remainder]
    split <;> simp only [Region.shift, Region.flat, Region.mk.injEq, and_true] <;> ring
  · simp only [Fft64Node.groupReal, quotient, remainder, Region.shift, Region.flat, Region.mk.injEq, and_true]
    ring
  · simp only [Fft64Node.groupHalf, quotient, remainder, Region.shift, Region.flat, Region.mk.injEq, and_true]
    ring

theorem Fft64Node.Accepts.groupCases (ok : node.Accepts batch) :
    (node.radix4Pair = true ∨ node.groupSize = 1) ∨
      (node.radix4Pair = false ∧ (node.groupSize = 4 ∨ node.groupSize = 8) ∧ (node.stride = 1 ∨ node.stride = 64)) := by
  cases radix : node.radix4Pair with
  | true => exact .inl (.inl rfl)
  | false =>
      have group := ok.group
      simp only [radix, Bool.false_eq_true, false_and, or_false, List.mem_cons, List.not_mem_nil] at group
      rcases group with one | four
      · exact .inl (.inr one)
      · exact .inr ⟨rfl, four, ok.columns (by omega)⟩

/- Every launch starts with the first group of a matrix. -/
theorem Fft64Node.matrixGroup (ok : node.Accepts batch) : 0 < node.blocksPerMatrixGroup ∧ node.blocksPerMatrixGroup ≤ 64 ∧
    (1 < node.groupSize ∨ node.stride = 64 → node.blocksPerMatrixGroup * node.groupSize = 64) := by
  have group : node.groupSize = 1 ∨ (1 < node.groupSize ∧ 0 < 64 / node.groupSize ∧ 64 / node.groupSize * node.groupSize = 64) := by
    rcases ok.group with plain | ⟨_, pair⟩
    · simp only [List.mem_cons, List.not_mem_nil, or_false] at plain
      rcases plain with size | size | size <;> simp [size]
    · simp only [List.mem_cons, List.not_mem_nil, or_false] at pair
      rcases pair with size | size <;> simp [size]
  rw [blocksPerMatrixGroup]
  rcases group with one | ⟨several, some_, whole⟩
  · by_cases columns : node.stride = 64 <;> simp [one, columns]
  · rw [if_pos several]
    exact ⟨some_, Nat.div_le_self _ _, fun _ => whole⟩

theorem Fft64Node.kernelBlocks (node : Fft64Node) (ok : node.Accepts batch) : 0 < node.kernel.maxBlocks := by
  obtain ⟨some_, fits, _⟩ := matrixGroup ok
  exact Nat.mul_pos (Nat.div_pos (by omega) some_) some_

theorem Fft64Node.pieceStarts (ok : node.Accepts batch) {piece : ℕ × ℕ}
    (member : piece ∈ batchChunks (batch / node.groupSize) node.kernel.maxBlocks)
    (grouped : 1 < node.groupSize ∨ node.stride = 64) :
    ∃ matrices, piece.1 = matrices * node.blocksPerMatrixGroup ∧ piece.1 * node.groupSize = matrices * 64 := by
  obtain ⟨i, _, rfl⟩ := memChunks.mp member
  refine ⟨i * (65535 / node.blocksPerMatrixGroup), ?_, ?_⟩
  · simp only [kernel]
    ring
  · simp only [kernel]
    rw [← (matrixGroup ok).2.2 grouped]
    ring

def Fft64Node.sideOffset (node : Fft64Node) (side : Fft64Node.Side) (transformOffset : ℕ) : ℕ :=
  match side with
  | .real => transformOffset * 64 * 4
  | .half => transformOffset * (64 / 2 + 1) * 8
  | .complex => node.complexOffset transformOffset

theorem Fft64Node.offsetOfMatrices (matrices : ℕ) : node.complexOffset (matrices * 64) = matrices * 64 * 64 * 8 := by
  rw [complexOffset]
  split
  · rw [Nat.mul_div_cancel _ (by decide), Nat.mul_mod_left, Nat.add_zero]
  · rfl

/- Contiguous rows, or matrices of 64 columns. -/
def Fft64Node.Regular (node : Fft64Node) : Prop := node.radix4Pair = true ∨ node.stride = 1 ∨ node.stride = 64

theorem Fft64Node.rowsSame (ok : node.Accepts batch) {piece : ℕ × ℕ}
    (member : piece ∈ batchChunks (batch / node.groupSize) node.kernel.maxBlocks) (index : ℕ) :
    SameRegions (fun index => [complexRegion 64 1 node.groupSize (index * node.groupSize)])
      (node.complexOffset (piece.1 * node.groupSize)) piece.1 index := by
  have group : 0 < node.groupSize := by
    rcases ok.groupCases with (radix | one) | ⟨_, size, _⟩
    · have sizes := ok.group
      simp only [List.mem_cons, List.not_mem_nil, or_false] at sizes
      omega
    · omega
    · omega
  have offset : node.complexOffset (piece.1 * node.groupSize) = 8 * elementBase 64 1 (piece.1 * node.groupSize) := by
    by_cases grouped : 1 < node.groupSize ∨ node.stride = 64
    · obtain ⟨matrices, _, start⟩ := pieceStarts ok member grouped
      rw [start, offsetOfMatrices, elementBase, if_pos rfl]
      ring
    · rw [not_or] at grouped
      rw [complexOffset, if_neg grouped.2, elementBase, if_pos rfl]
      ring
  rw [offset]
  exact (complexSame (by decide) Nat.one_pos group).mpr (.inl rfl)

theorem Fft64Node.Accepts.groupPositive (ok : node.Accepts batch) : 0 < node.groupSize := by
  have sizes := ok.group
  simp only [List.mem_cons, List.not_mem_nil, or_false] at sizes
  omega

theorem Fft64Node.plainLoads (plain : node.radix4Pair = true ∨ node.groupSize = 1) :
    node.loads .real = (fun index => [realRegion 64 node.groupSize (index * node.groupSize)]) ∧
      node.loads .half = (fun index => [halfRegion 64 node.groupSize (index * node.groupSize)]) ∧
      node.loads .complex = fun index => [if node.radix4Pair then complexRegion 64 1 node.groupSize (index * node.groupSize)
        else complexRegion 64 node.stride 1 (index * node.groupSize)] := by
  refine ⟨?_, ?_, ?_⟩ <;> funext index <;> simp only [loads, if_pos plain]

theorem Fft64Node.groupLoads (kind : ¬(node.radix4Pair = true ∨ node.groupSize = 1)) :
    node.loads .real = (fun index => [groupReal node.groupSize node.groupSize 0 index]) ∧
      node.loads .half = (fun index => [groupHalf node.groupSize node.groupSize 0 index]) ∧
      node.loads .complex = fun index => [node.groupRegions node.groupSize node.groupSize 0 index] := by
  refine ⟨?_, ?_, ?_⟩ <;> funext index <;> simp only [loads, if_neg kind]

theorem Fft64Node.wholeStores (whole : node.radix4Pair = true ∨ node.groupSize ≠ 8) (side : Side) :
    node.stores side = node.loads side := by
  funext index
  simp only [stores, if_pos whole]

theorem Fft64Node.halfStores (halves : ¬(node.radix4Pair = true ∨ node.groupSize ≠ 8)) :
    node.stores .real = (fun index => [groupReal 8 4 0 index, groupReal 8 4 4 index]) ∧
      node.stores .half = (fun index => [groupHalf 8 4 0 index, groupHalf 8 4 4 index]) ∧
      node.stores .complex = fun index => [node.groupRegions 8 4 0 index, node.groupRegions 8 4 4 index] := by
  refine ⟨?_, ?_, ?_⟩ <;> funext index <;> simp only [stores, if_neg halves]

/- A block of single transforms, or of the paired kernel. -/
theorem Fft64Node.plainSame (ok : node.Accepts batch) (regular : node.Regular) {piece : ℕ × ℕ}
    (member : piece ∈ batchChunks (batch / node.groupSize) node.kernel.maxBlocks)
    (plain : node.radix4Pair = true ∨ node.groupSize = 1) (side : Side) (index : ℕ) :
    SameRegions (node.loads side) (node.sideOffset side (piece.1 * node.groupSize)) piece.1 index := by
  have group := ok.groupPositive
  obtain ⟨real, half, complex⟩ := plainLoads plain
  cases side with
  | real =>
      rw [real]
      exact realSame (Nat.mul_pos (by decide) group)
  | half =>
      rw [half]
      exact halfSame group
  | complex =>
      rw [complex]
      cases pair : node.radix4Pair with
      | true => exact rowsSame ok member index
      | false =>
          have one : node.groupSize = 1 := by simpa [pair] using plain
          rcases (by simpa [Regular, pair] using regular : node.stride = 1 ∨ node.stride = 64) with rows | columns
          · have same := rowsSame ok member index
            rw [one] at same
            simpa [sideOffset, one, rows] using same
          · obtain ⟨matrices, _, start⟩ := pieceStarts ok member (.inr columns)
            rw [one] at start
            have inside : piece.1 * 1 % 64 + index * 1 % 64 < 64 := by
              rw [start, Nat.mul_mod_left, Nat.zero_add]
              exact Nat.mod_lt _ (by decide)
            have offset : node.complexOffset (piece.1 * 1) = 8 * elementBase 64 64 (piece.1 * 1) := by
              rw [complexOffset, if_pos columns, elementBase, if_neg (by decide)]
              ring
            have same := (@complexSame 64 64 1 piece.1 index (by decide) (by decide) Nat.one_pos).mpr (.inr inside)
            rw [← offset] at same
            simpa [sideOffset, one, columns] using same

/- What the loads and stores of grouped blocks have in common. -/
theorem Fft64Node.groupedSame (ok : node.Accepts batch) {piece : ℕ × ℕ}
    (member : piece ∈ batchChunks (batch / node.groupSize) node.kernel.maxBlocks)
    (size : node.groupSize = 4 ∨ node.groupSize = 8) (columns : ℕ) (shifts : List ℕ) (index : ℕ) :
    SameRegions (fun index => shifts.map fun shift => groupReal node.groupSize columns shift index)
        (node.sideOffset .real (piece.1 * node.groupSize)) piece.1 index ∧
      SameRegions (fun index => shifts.map fun shift => groupHalf node.groupSize columns shift index)
        (node.sideOffset .half (piece.1 * node.groupSize)) piece.1 index ∧
      SameRegions (fun index => shifts.map fun shift => node.groupRegions node.groupSize columns shift index)
        (node.sideOffset .complex (piece.1 * node.groupSize)) piece.1 index := by
  have several : 1 < node.groupSize := by omega
  obtain ⟨matrices, start, first⟩ := pieceStarts ok member (.inl several)
  rw [blocksPerMatrixGroup, if_pos several] at start
  have some_ : 0 < 64 / node.groupSize := by rcases size with size | size <;> simp [size]
  have shifted (shift : ℕ) := @groupShift node node.groupSize matrices columns shift index some_
  refine ⟨@shiftSame _ _ (matrices * 64 * 64) _ _ ?_ ?_, @shiftSame _ _ (matrices * 64 * (64 / 2 + 1) * 2) _ _ ?_ ?_,
    @shiftSame _ _ (matrices * 64 * 64 * 2) _ _ ?_ ?_⟩
  · rw [sideOffset, first]
    ring
  · rw [List.map_map, start]
    exact List.map_congr_left fun shift _ => (shifted shift).2.1
  · rw [sideOffset, first]
    ring
  · rw [List.map_map, start]
    exact List.map_congr_left fun shift _ => (shifted shift).2.2
  · rw [sideOffset, first, offsetOfMatrices]
    ring
  · rw [List.map_map, start]
    exact List.map_congr_left fun shift _ => (shifted shift).1

theorem Fft64Node.regularSame (ok : node.Accepts batch) (regular : node.Regular) {piece : ℕ × ℕ}
    (member : piece ∈ batchChunks (batch / node.groupSize) node.kernel.maxBlocks) (side : Side) (index : ℕ) :
    SameRegions (node.loads side) (node.sideOffset side (piece.1 * node.groupSize)) piece.1 index ∧
      SameRegions (node.stores side) (node.sideOffset side (piece.1 * node.groupSize)) piece.1 index := by
  rcases ok.groupCases with plain | ⟨radix, size, _⟩
  · have whole : node.radix4Pair = true ∨ node.groupSize ≠ 8 := plain.imp_right fun one => by omega
    rw [wholeStores whole]
    exact and_self_iff.mpr (plainSame ok regular member plain side index)
  · have kind : ¬(node.radix4Pair = true ∨ node.groupSize = 1) := by
      rw [radix]
      simp only [Bool.false_eq_true, false_or]
      omega
    have loads : SameRegions (node.loads side) (node.sideOffset side (piece.1 * node.groupSize)) piece.1 index := by
      obtain ⟨real, half, complex⟩ := groupedSame ok member size node.groupSize [0] index
      obtain ⟨realLoads, halfLoads, complexLoads⟩ := groupLoads kind
      cases side with
      | real => rwa [realLoads]
      | half => rwa [halfLoads]
      | complex => rwa [complexLoads]
    refine ⟨loads, ?_⟩
    rcases size with four | eight
    · rwa [wholeStores (.inr (by omega))]
    · obtain ⟨real, half, complex⟩ := groupedSame ok member (.inr eight) 4 [0, 4] index
      obtain ⟨realStores, halfStores, complexStores⟩ := @halfStores node (by simp [radix, eight])
      rw [eight] at real half complex ⊢
      cases side with
      | real =>
          rw [realStores]
          exact real
      | half =>
          rw [halfStores]
          exact half
      | complex =>
          rw [complexStores]
          exact complex

theorem Fft64Node.regularChunks (ok : node.Accepts batch) (regular : node.Regular) :
    node.kernel.chunked (batch / node.groupSize) = node.kernel.single (batch / node.groupSize) := by
  rw [chunkedSame (node.kernelBlocks ok)]
  intro piece member index _
  have same (side : Side) := regularSame ok regular member side index
  cases mode : node.mode with
  | complex =>
      simp only [kernel, mode]
      exact same .complex
  | realForward =>
      simp only [kernel, mode]
      exact ⟨(same .real).1, (same .half).2⟩
  | realInverse =>
      simp only [kernel, mode]
      exact ⟨(same .half).1, (same .real).2⟩

/- Columns of other strides: the host still moves by whole transforms. -/
theorem Fft64Node.strayedSame {stride start index : ℕ} (columns : stride ≠ 1) :
    SameRegions (fun index => [complexRegion 64 stride 1 (index * 1)]) (start * 64 * 8) start index ↔
      elementBase 64 stride (start + index) = start * 64 + elementBase 64 stride index := by
  simp only [complexRegion, columns, if_false, SameRegions, List.flatMap_singleton, Nat.mul_one]
  rw [regionSame (by decide) (by decide)]
  omega

theorem Fft64Node.startsMatrix {stride start : ℕ} (columns : stride ≠ 1) :
    elementBase 64 stride start = start * 64 ↔ start % stride = 0 := by
  rw [elementBase, if_neg columns]
  have parts := Nat.div_add_mod' start stride
  have spread : start / stride * 64 * stride = start / stride * stride * 64 := by ring
  omega

theorem Fft64Node.irregularChunks (ok : node.Accepts batch) (irregular : ¬node.Regular) :
    node.kernel.chunked (batch / node.groupSize) = node.kernel.single (batch / node.groupSize) ↔
      batch ≤ 65535 ∨ 65535 % node.stride = 0 := by
  simp only [Regular, not_or, Bool.not_eq_true] at irregular
  obtain ⟨radix, rows, columns⟩ := irregular
  have one : node.groupSize = 1 := by
    rcases ok.groupCases with (pair | one) | ⟨_, _, stride⟩
    · simp [radix] at pair
    · exact one
    · omega
  have mode : node.mode = .complex := by
    by_contra real
    exact rows (ok.real real)
  have loads : node.loads .complex = fun index => [complexRegion 64 node.stride 1 (index * 1)] := by
    rw [(plainLoads (.inr one)).2.2]
    simp only [radix, Bool.false_eq_true, if_false, one]
  have blocks : node.kernel.maxBlocks = 65535 := by simp [kernel, blocksPerMatrixGroup, one, columns]
  have moves (start : ℕ) : node.complexOffset (start * 1) = start * 64 * 8 := by
    rw [complexOffset, if_neg columns, Nat.mul_one]
  have same : (∀ piece ∈ batchChunks (batch / node.groupSize) node.kernel.maxBlocks, ∀ index < piece.2,
      SameRegions node.kernel.source (node.kernel.inputOffset (piece.1 * node.kernel.groupSize)) piece.1 index ∧
        SameRegions node.kernel.target (node.kernel.outputOffset (piece.1 * node.kernel.groupSize)) piece.1 index) ↔
      ∀ piece ∈ batchChunks batch 65535, piece.1 % node.stride = 0 := by
    rw [blocks, one, Nat.div_one]
    refine forall_congr' fun piece => forall_congr' fun member => ?_
    simp only [kernel, mode, @wholeStores node (.inr (by omega)) .complex, loads, one, moves, and_self]
    constructor
    · intro inside
      have first := (strayedSame rows).mp (inside 0 (chunkBounds (Nat.succ_pos 65534) member).1)
      have origin : elementBase 64 node.stride 0 = 0 := by simp [elementBase]
      rw [Nat.add_zero, origin, Nat.add_zero] at first
      exact (startsMatrix rows).mp first
    · intro aligned index _
      rw [strayedSame rows, (baseRestart (by decide) ok.stride piece.1 index).mpr, (startsMatrix rows).mpr aligned]
      right
      rw [aligned, Nat.zero_add]
      exact Nat.mod_lt _ ok.stride
  rw [chunkedSame (by rw [blocks]; decide), same]
  constructor
  · intro aligned
    refine or_iff_not_imp_left.mpr fun more => ?_
    have second : (1 * 65535, min 65535 (batch - 1 * 65535)) ∈ batchChunks batch 65535 :=
      memChunks.mpr ⟨1, (ltCeilDiv (Nat.succ_pos 65534)).mpr (by omega), rfl⟩
    exact aligned _ second
  · rintro small piece member
    obtain ⟨i, here, rfl⟩ := memChunks.mp member
    rcases small with few | divides
    · have start := (ltCeilDiv (Nat.succ_pos 65534)).mp here
      have first : i = 0 := by omega
      simp [first]
    · exact Nat.mod_eq_zero_of_dvd ((Nat.dvd_of_mod_eq_zero divides).mul_left i)

end Fft64

theorem chunkedLaunchesExact (node : AivNode) (batch : ℕ) (accepted : node.Accepts batch) :
    node.kernel.Exact batch ↔ node.Aligned batch := by
  have same : node.kernel.chunked (batch / node.kernel.groupSize) = node.kernel.single (batch / node.kernel.groupSize) ↔
      node.Aligned batch := by
    cases node with
    | small node => exact smallChunks accepted
    | fft64 node =>
        by_cases regular : node.Regular
        · refine iff_of_true (Fft64Node.regularChunks accepted regular) ?_
          rcases regular with pair | rows | columns
          · exact .inl pair
          · exact .inr (.inr (.inr (by rw [rows])))
          · exact .inr (.inl columns)
        · refine (Fft64Node.irregularChunks accepted regular).trans ?_
          simp only [Fft64Node.Regular, not_or] at regular
          simp [AivNode.Aligned, regular]
  have positive : 0 < node.kernel.maxBlocks := by
    cases node with
    | small node => exact Nat.succ_pos 65534
    | fft64 node => exact node.kernelBlocks accepted
  have whole : batch % node.kernel.groupSize = 0 := by
    cases node with
    | small node => exact accepted.whole
    | fft64 node => exact accepted.whole
  exact ⟨fun exact_ => same.mp exact_.same, fun aligned => ⟨ChunkedKernel.transformsOnce positive whole, same.mpr aligned⟩⟩

theorem eightColumnsAccepted {batch : ℕ} (some_ : 0 < batch) (range : batch ≤ 2147483647) (whole : batch % 8 = 0) :
    SmallNode.Accepts ⟨16, 16, 16, 8, .complex⟩ batch where
  some_ := some_
  range := range
  length := .inl rfl
  group := .inr rfl
  stride := Nat.succ_pos 15
  outputStride := Nat.succ_pos 15
  real := absurd rfl
  columns _ := ⟨by decide, rfl⟩
  outputColumns _ := ⟨by decide, rfl⟩
  whole := whole

theorem eightColumnsAligned : (AivNode.small ⟨16, 16, 16, 8, .complex⟩).kernel.Exact 4096 ↔
    (AivNode.small ⟨16, 16, 16, 8, .complex⟩).Aligned 4096 :=
  chunkedLaunchesExact (.small ⟨16, 16, 16, 8, .complex⟩) 4096 (eightColumnsAccepted (by decide) (by decide) (by decide))

/- 32769 matrices of 16 columns in groups of 8: the second launch starts with the second half of a matrix, whose last
group is followed by the first of the next. -/
theorem sixteenPointChunksStray : ¬∀ (node : AivNode) (batch : ℕ), node.Accepts batch → node.kernel.Exact batch := by
  intro holds
  let node : SmallNode := ⟨16, 16, 16, 8, .complex⟩
  have accepted : node.Accepts 524304 := eightColumnsAccepted (by decide) (by decide) (by decide)
  have aligned := (smallChunks accepted).mp (holds (.small node) 524304 accepted).same
  have second : (65535, 3) ∈ batchChunks (524304 / node.groupSize) 65535 :=
    memChunks.mpr ⟨1, (ltCeilDiv (Nat.succ_pos 65534)).mpr (by decide), by decide⟩
  rcases (aligned _ second).1 with rows | starts | ends
  · exact absurd rows (by decide)
  · exact absurd starts (by decide)
  · exact absurd ends (by decide)

end FlagFft.Npu
