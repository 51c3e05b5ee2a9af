import FlagFft.Batch
import FlagFft.Codegen.KernelCache
import Mathlib.Data.PNat.Basic

/-! The compiled nodes of every rank, each with the kernels it launches and the buffers the compiler gave it. A buffer
is known by its size in entries: two for a complex element, one for a real number or an index. -/
namespace FlagFft.Exec
open Codegen (Backend)

/- adaptor::max_launch_blocks() -/
def maxLaunchBlocks : Backend → ℕ
  | .npu => 65535
  | _ => 2147483647

def kMaxGridY : ℕ := 65535

def blockLimitPerLaunch (backend : Backend) : ℕ := max 1 (maxLaunchBlocks backend)

abbrev Allocation := ℕ

/- One row or column a block. -/
def single : ℕ+ := ⟨1, Nat.one_pos⟩

@[simp] theorem singleVal : (single : ℕ) = 1 := rfl

/- What a launch reads of the metadata of a kernel. An override of zero is none. -/
structure JitKernel where
  batchPerBlock : ℕ+ := single
  innerPack : ℕ+ := single
  rowsPerBlock : ℕ+ := single
  gridXOverride : ℕ := 0
  gridYOverride : ℕ := 0

inductive RealKind where
  | r2c
  | c2r
  deriving DecidableEq, Repr

/- A stage runs a generated kernel or, on an NPU, a native one, known by the tiles a number of rows makes. -/
inductive StageKernel where
  | jit (butterfliesPerBlock : ℕ+)
  | aiv (totalTiles : ℕ → ℕ)

/- CompiledRawTranspose2D -/
inductive Transpose2D where
  | triton
  | native (tileSize : ℕ+)

/- A permutation of a cube: a generated kernel, or the native one of an NPU. -/
inductive Perm3d where
  | triton (kernel : JitKernel)
  | native

/- The native transforms of an NPU. -/
inductive AivKernel where
  | small (length : ℕ) (groupSize : ℕ+)
  | fft64 (stride : ℕ) (groupSize : ℕ+) (radix4Pair : Bool)
  | fft (length : ℕ) (groupSize : ℕ+)
  | fft256 (groupSize : ℕ+)
  | fft256Real (groupSize maxRealBlocks : ℕ+)

structure Leaf where
  length : ℕ
  kernel : JitKernel
  tables : List Allocation

structure FourStep where
  length : ℕ
  n1 : ℕ
  n2 : ℕ
  rowKernel : JitKernel
  rowTables : List Allocation
  colKernel : JitKernel
  colTables : List Allocation
  twiddle : Allocation
  stage1 : Allocation

structure Bluestein where
  length : ℕ
  convLength : ℕ
  chirp : Allocation
  bTime : Allocation
  aBuf : Allocation
  workBuf : Allocation
  bFftBuf : Allocation
  batchChunk : ℕ+

/- One kernel prepares, transforms and finishes a row. -/
structure BluesteinFullLeaf where
  length : ℕ
  convLength : ℕ
  kernel : JitKernel
  tables : List Allocation
  chirp : Allocation
  bTime : Allocation
  bFftBuf : Allocation

/- A four-step transform of `convLength` with the chirp folded into its ends. -/
structure BluesteinFourStep where
  length : ℕ
  convLength : ℕ
  n1 : ℕ
  n2 : ℕ
  prepareRowKernel : JitKernel
  firstColKernel : JitKernel
  pointwiseRowKernel : JitKernel
  finishColKernel : JitKernel
  rowTables : List Allocation
  colTables : List Allocation
  twiddle : Allocation
  chirp : Allocation
  bTime : Allocation
  stage1 : Allocation
  workBuf : Allocation
  bFftBuf : Allocation

inductive RaderRoute where
  | fusedLeaf (kernel : JitKernel)
  | boundary (prepare finish : JitKernel)
  | generic

structure Rader where
  length : ℕ
  convLength : ℕ
  route : RaderRoute
  tables : List Allocation
  idx : Allocation
  bTime : Allocation
  aBuf : Allocation
  workBuf : Allocation
  bFftBuf : Allocation
  inputCopy : Allocation

structure FourStepGeneric where
  n1 : ℕ
  n2 : ℕ
  twiddle : Allocation
  stage1 : Allocation
  stage2 : Allocation

/- A real transform around a complex one of the same length. -/
structure RealEnds where
  length : ℕ
  expandKernel : JitKernel
  packKernel : JitKernel
  full1 : Allocation
  full2 : Allocation

/- A real transform around a complex one of half the length; without a kernel the end is native. -/
structure PackedEnds where
  length : ℕ
  kernel : Option JitKernel
  twiddle : Allocation
  packedBuf : Allocation

structure Plane where
  n0 : ℕ
  n1 : ℕ
  transposeFwd : Transpose2D
  transposeInv : Transpose2D
  temp1 : Allocation
  temp2 : Allocation

structure RealPlane extends Plane where
  expandKernel : JitKernel
  packKernel : JitKernel
  full : Allocation

/- Without transposes; without the two kernels the row transform is a real one. -/
structure RealRc where
  n0 : ℕ
  n1 : ℕ
  ends : Option (JitKernel × JitKernel)
  full : Allocation
  half : Allocation

/- The work buffers hold `width` elements along the last axis: all of them, or half of a real row. -/
structure Cube where
  n0 : ℕ
  n1 : ℕ
  n2 : ℕ
  width : ℕ
  temp1 : Allocation
  temp2 : Allocation

inductive RealLayout where
  | legacy (fusedStore n2Permuted n1StridedInput : Bool) (perm021 : JitKernel) (perm210 : Option JitKernel)
  | strided
  | fusedStore (permFirst : JitKernel)
  | transposed (permFirst permSecond permThird : JitKernel)
  | r2cFirstStore (permSecond permThird : JitKernel)

/- The three-dimensional nodes with one transform per axis. -/
inductive CubeSchedule where
  | forward (perm021 perm210 perm201 : Perm3d)
  | inverse (perm120 perm210 perm021 : Perm3d)
  | finalPermutedStore (perm021 perm210 : JitKernel)
  | npuPairFusedStore
  | strided
  | hybrid (perm021 perm210 perm201 : Option JitKernel)
  | realLeaf (kind : RealKind) (layout : RealLayout)
  | realRtrtForward (perm021 perm210 perm201 : Option Perm3d)
  | realRtrtInverse (perm021 : Perm3d) (perm210 perm201 : Option Perm3d)

structure RealCube extends Cube where
  expandKernel : JitKernel
  packKernel : JitKernel
  perm021 : Perm3d
  perm210 : Perm3d
  perm201 : Perm3d
  full : Allocation

inductive Node where
  | graph (node : Node)
  | leaf (node : Leaf)
  | fourStepFused (node : FourStep)
  | fourStepStrided (node : FourStep) (outerStride : ℕ)
  | stridedLeaf (node : Leaf) (outerStride : ℕ)
  | stridedDirectDft (node : Leaf) (outerStride : ℕ)
  | npuAiv (kernel : AivKernel)
  | stockham (length : ℕ) (stages : List (ℕ × StageKernel)) (twiddle first second : Allocation)
  | directDft (node : Leaf) (ends : Option RealKind) (inputCopy : Allocation)
  | bluestein (node : Bluestein) (fft : Node)
  | bluesteinLeaf (node : Bluestein) (fft : Node) (prepare finish : JitKernel) (tables : List Allocation)
  | bluesteinFullLeaf (node : BluesteinFullLeaf) (fft : Node)
  | bluesteinFullLeafReal (node : BluesteinFullLeaf) (kind : RealKind) (fft layoutFallback : Node)
  | bluesteinFourStep (node : BluesteinFourStep) (fft : Node)
  | bluesteinFourStepReal (node : BluesteinFourStep) (kind : RealKind) (fft layoutFallback : Node)
  | rader (node : Rader) (fft : Node)
  | fourStepGeneric (node : FourStepGeneric) (rowChild colChild : Node)
  | r2c (node : RealEnds) (fft : Node)
  | packedR2c (node : PackedEnds) (fft layoutFallback : Node)
  | r2cLeaf (node : Leaf)
  | r2cFourStepHalfOut (node : FourStep) (expandKernel : JitKernel) (complexInput : Allocation)
  | r2cFourStepRealInHalfOut (node : FourStep)
  | c2r (node : RealEnds) (fft : Node)
  | packedC2r (node : PackedEnds) (fft layoutFallback : Node)
  | packedC2rFusedLeaf (node : Leaf) (twiddle : Allocation) (layoutFallback : Node)
  | c2rLeaf (node : Leaf)
  | c2rFourStepRealOut (node : FourStep) (expandKernel : JitKernel) (fullInput : Allocation)
  | c2rFourStepCompactInRealOut (node : FourStep)
  | plane (node : Plane) (rowFft colFft : Node)
  | planeFused (n0 n1 : ℕ) (temp : Allocation)
  | planeRc (n0 n1 : ℕ) (rowFft colFft : Node) (temp1 : Allocation)
  | oneDimAs2d (fft : Node) (batch : ℕ)
  | planeR2cRow (node : Plane) (rowR2c colFft : Node)
  | planeC2rRow (node : Plane) (colFft rowC2r : Node)
  | planeR2c (node : RealPlane) (rowFft colFft : Node)
  | planeC2r (node : RealPlane) (colFft rowFft : Node)
  | planeR2cRc (node : RealRc) (rowFft colFft : Node)
  | planeC2rRc (node : RealRc) (colFft rowFft : Node)
  | cube (node : Cube) (schedule : CubeSchedule) (n2Fft n1Fft n0Fft : Node)
  | cubeRtrtFusedOuter (node : Cube) (kind : RealKind) (n2RealFft n1Fft n0Fft : Node)
  | cubeFusedPlane (planeSize : ℕ) (outerFft : Node) (temp : Allocation)
  | cubeRealFusedPlane (n0 n1 n2 : ℕ) (kind : RealKind) (outerFft : Node) (temp : Allocation)
  | cubePrimePlane (node : Cube) (middleFft : Node) (outputTranspose : JitKernel)
  | cubeFused
  | cubeColumn (outerStride : ℕ) (columns : ℕ+)
  | cubeR2c (node : RealCube) (n2Fft n1Fft n0Fft : Node)
  | cubeC2r (node : RealCube) (n0Fft n1Fft n2Fft : Node)

/- What a node reads of the request. -/
structure Request where
  backend : Backend
  rank3 : Bool
  complex64 : Bool
  realTransform : Bool

def Request.complex (request : Request) : Request := { request with realTransform := false }

/- RawExecutionContext, whether input and output are one pointer, and how many entries lie behind the two pointers.
A distance of zero is the default one. -/
structure Context where
  request : Request
  batch : ℕ
  inputDistance : ℕ := 0
  outputDistance : ℕ := 0
  inPlace : Bool := false
  input : Allocation
  output : Allocation

/- The context a node hands to a child. -/
def Context.child (context : Context) (batch : ℕ) (input output : Allocation) : Context :=
  { request := context.request, batch := batch, input := input, output := output }

end FlagFft.Exec
