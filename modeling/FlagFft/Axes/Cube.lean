import FlagFft.Axes.Plane

/-! The compiled complex cubes, in the order in which their routes are tried. -/
namespace FlagFft.Axes
open Plan (FftRequest PlanNode)
open Exec

/- The plans of the three axes. -/
structure CubePlans where
  n2Plan : PlanNode
  n1Plan : PlanNode
  n0Plan : PlanNode

def CubePlans.leaves (plans : CubePlans) : Bool := isLeaf plans.n0Plan && isLeaf plans.n1Plan && isLeaf plans.n2Plan

/- is_npu_aiv256_axis -/
def isNpuAiv256Axis : PlanNode → Bool
  | .leaf length .. => length = 256
  | .stockham length _ => length = 256
  | _ => false

def isBluestein : PlanNode → Bool
  | .bluestein .. => true
  | _ => false

def kStridedMaxElements : ℕ := 64 * 64 * 64

section Gates
variable (getenv : String → Option String) (plans : CubePlans) (n0 n1 n2 : ℕ) (request : FftRequest) (batch : ℕ)

def sides (length : ℕ) : Bool := n0 = length ∧ n1 = length ∧ n2 = length

/- A switch that is on unless it is 0. -/
def unlessZero (name : String) : Bool := getenv name ≠ some "0"

def npuPairRadix4 : Bool := npu3dFlagOrDefault getenv request "FLAGFFT_NPU_3D_AIV256_PAIR_RADIX4" true

def npuPairFusedStore : Bool :=
  request.deviceType = "npu" ∧ request.originRank = 3 ∧ complexFloat request = true ∧ 0 < batch ∧
    (batch = 1 ∨ npuPairRadix4 getenv request = true) ∧ sides n0 n1 n2 256 = true ∧
    isNpuAiv256Axis plans.n0Plan = true ∧ isNpuAiv256Axis plans.n1Plan = true ∧ isNpuAiv256Axis plans.n2Plan = true ∧
    npu3dFlagOrDefault getenv request "FLAGFFT_NPU_3D_AIV256" true = true ∧
    (getenv "FLAGFFT_NPU_3D_AIV256_GROUP").getD "8" = "8" ∧
    npu3dFlagOrDefault getenv request "FLAGFFT_NPU_3D_AIV256_PAIR" true = true ∧
    npu3dFlagOrDefault getenv request "FLAGFFT_NPU_3D_AIV256_PAIR_STORE" true = true

def npuSmallStridedCube : Bool :=
  request.deviceType = "npu" ∧ request.originRank = 3 ∧ request.realTransformKind = "" ∧ complexFloat request = true ∧
    n0 = n1 ∧ n1 = n2 ∧ (n0 = 16 ∨ n0 = 32) ∧ batch * n0 * n1 * n2 ≤ 64 * 64 * 64 ∧
    npu3dFlagOrDefault getenv request "FLAGFFT_NPU_3D_AIV_SMALL" true = true ∧
    npu3dFlagOrDefault getenv request "FLAGFFT_NPU_3D_SMALL_STRIDED" true = true

def ix71 : Bool := request.deviceType = "ix" ∧ request.deviceArch = "71" ∧ complexFloat request = true

def ixFusedCube : Bool :=
  ix71 request = true ∧ batch = 1 ∧ sides n0 n1 n2 16 = true ∧ plans.leaves = true ∧
    flagOrDefault getenv "FLAGFFT_IX_3D_FUSED16_CUBE" true = true

def ixFusedSize : ℕ :=
  if ix71 request = true ∧ flagOrDefault getenv "FLAGFFT_IX_3D_FUSED16" true = true ∧ sides n0 n1 n2 16 = true then 16
  else if ix71 request = true ∧ flagOrDefault getenv "FLAGFFT_IX_3D_FUSED32" true = true ∧ sides n0 n1 n2 32 = true then 32
  else 0

def ixFusedPlane : Bool := ixFusedSize getenv n0 n1 n2 request ≠ 0 ∧ batch ≤ 4 ∧ plans.leaves = true

def ixColumn : Bool :=
  ixFusedSize getenv n0 n1 n2 request = 32 ∧ flagOrDefault getenv "FLAGFFT_IX_3D_32_COLUMN" true = true

def fused16Switch : String :=
  if request.deviceType = "hcu" then "FLAGFFT_HCU_3D_FUSED16"
  else if request.deviceType = "maca" then "FLAGFFT_MACA_3D_FUSED16" else "FLAGFFT_MUSA_3D_FUSED16"

def fused16 : Bool :=
  (request.deviceType = "musa" ∨ request.deviceType = "hcu" ∨ request.deviceType = "maca") ∧ sides n0 n1 n2 16 = true ∧
    unlessZero getenv (fused16Switch request) = true

def fused32 : Bool :=
  request.deviceType = "hcu" ∧ sides n0 n1 n2 32 = true ∧ unlessZero getenv "FLAGFFT_HCU_3D_FUSED32" = true

def fusedCube : Bool :=
  request.deviceType = "hcu" ∧ sides n0 n1 n2 16 = true ∧ batch ≤ 4 ∧ plans.leaves = true ∧
    unlessZero getenv "FLAGFFT_HCU_3D_FUSED16_CUBE" = true

def smallPlane : Bool :=
  (fused16 getenv n0 n1 n2 request = true ∨ fused32 getenv n0 n1 n2 request = true) ∧ batch ≤ 4 ∧ plans.leaves = true

def hcuPrimePlane : Bool :=
  request.deviceType = "hcu" ∧ batch = 1 ∧ n0 = 16 ∧ n1 = 997 ∧ n2 = 64 ∧ isBluestein plans.n1Plan = true ∧
    isOne getenv "FLAGFFT_HCU_3D_PRIME_PLANE" = true

def macaFusedC2c32 : Bool :=
  request.deviceType = "maca" ∧ sides n0 n1 n2 32 = true ∧ batch = 1 ∧ plans.leaves = true ∧
    flagOrDefault getenv "FLAGFFT_MACA_3D_C2C_FUSED32" true = true

def macaFirstStoreEnabled : Bool :=
  let macaFirstStoreDefault : Bool :=
    (request.inputDtype = "complex64" ∨ request.inputDtype = "complex128") ∧ n0 = 128 ∧ n1 = 2048 ∧ n2 = 64
  request.deviceType = "maca" ∧ flagOrDefault getenv "FLAGFFT_MACA_3D_FIRST_STORE" macaFirstStoreDefault = true

def longAxisHybrid : Bool :=
  ((request.deviceType = "musa" ∧ fused3dStoreEnabled getenv request = true) ∨
      macaFirstStoreEnabled getenv n0 n1 n2 request = true) ∧
    (request.inputDtype = "complex64" ∨
      (macaFirstStoreEnabled getenv n0 n1 n2 request = true ∧ request.inputDtype = "complex128")) ∧
    plans.leaves = true ∧ 1024 ≤ n1 ∧ 4 * max n0 n2 ≤ n1 ∧ kStridedMaxElements < batch * n0 * n1 * n2

/- The screens of the single cube of side 256. -/
def macaCubeScreen (name : String) : Bool :=
  request.deviceType = "maca" ∧ batch = 1 ∧ sides n0 n1 n2 256 = true ∧ plans.leaves = true ∧
    request.inputDtype = "complex64" ∧ flagOrDefault getenv name false = true

def ixHybrid : Bool :=
  ix71 request = true ∧ (n2 = 64 ∨ n2 = 256) ∧ flagOrDefault getenv "FLAGFFT_IX_3D_HYBRID" true = true ∧
    kStridedMaxElements < batch * n0 * n1 * n2

def portableHybrid : Bool :=
  let elongated3d := 4 * max n0 n2 ≤ n1 ∧ kStridedMaxElements < batch * n0 * n1 * n2
  let musaHybrid := request.deviceType = "musa" ∧ request.inputDtype = "complex64" ∧ isLeaf plans.n1Plan = true ∧ 1024 ≤ n1
  let hcuHybrid := request.deviceType = "hcu" ∧ unlessZero getenv "FLAGFFT_HCU_3D_HYBRID" = true
  fused3dStoreEnabled getenv request = true ∧ elongated3d ∧ (musaHybrid ∨ hcuHybrid)

def hybrid : Bool :=
  isLeaf plans.n2Plan = true ∧ isLeaf plans.n0Plan = true ∧
    (portableHybrid getenv plans n0 n1 n2 request batch = true ∨ ixHybrid getenv n0 n1 n2 request batch = true)

def firstTranspose : Bool := request.deviceType = "hcu" ∧ isOne getenv "FLAGFFT_HCU_3D_HYBRID_FIRST_TRANSPOSE" = true

def lastTranspose : Bool :=
  let lastTransposeDefault : Bool := request.inputDtype = "complex128" ∧ 64 ≤ n0
  let hcuLastTranspose : Bool :=
    request.deviceType = "hcu" ∧ 64 ≤ n0 ∧ flagOrDefault getenv "FLAGFFT_HCU_3D_HYBRID_LAST_TRANSPOSE" lastTransposeDefault = true
  let ixLastTranspose : Bool :=
    ixHybrid getenv n0 n1 n2 request batch = true ∧ isOne getenv "FLAGFFT_IX_3D_HYBRID_LAST_TRANSPOSE" = true
  hcuLastTranspose || ixLastTranspose

def fusedStore : Bool :=
  plans.leaves = true ∧ fused3dStoreEnabled getenv request = true ∧ kStridedMaxElements < batch * n0 * n1 * n2

def fusedStoreLastTranspose : Bool :=
  let lastTransposeDefault : Bool :=
    request.deviceType = "hcu" ∧ request.inputDtype = "complex128" ∧ sides n0 n1 n2 256 = true ∧ batch ≤ 4
  request.deviceType = "hcu" ∧ flagOrDefault getenv "FLAGFFT_HCU_3D_LAST_TRANSPOSE" lastTransposeDefault = true

def stridedCube : Bool :=
  isLeaf plans.n1Plan = true ∧ isLeaf plans.n0Plan = true ∧ batch * n0 * n1 * n2 ≤ kStridedMaxElements

end Gates

section Compiler
variable (getenv : String → Option String) (parts : Parts) (plans : CubePlans) (n0 n1 n2 : ℕ) (request : FftRequest)
  (batch : ℕ)

def cube (width : ℕ) : Cube := ⟨n0, n1, n2, width, parts.allocation, parts.allocation⟩

def cubeNode (width : ℕ) (schedule : CubeSchedule) : Node :=
  .cube (cube parts n0 n1 n2 width) schedule (parts.fft .n2) (parts.fft .n1) (parts.fft .n0)

/- The three requests made for the axes; `width` elements remain along the last one. -/
def ownCubeRequests (width : ℕ) : List (Axis × FftRequest) :=
  [(.n2, axisRequest request n2 (batch * n0 * n1)), (.n1, axisRequest request n1 (batch * n0 * width)),
    (.n0, axisRequest request n0 (batch * n1 * width))]

/- A kernel where a permutation is not fused. -/
def kernelWhere (unfused : Bool) : Option JitKernel := if unfused then some parts.kernel else none

def compileRaw3dNode : Compiled :=
  let own := ownCubeRequests n0 n1 n2 request batch n2
  let node := cubeNode parts n0 n1 n2 n2
  let outer (size : ℕ) : Node := .cubeFusedPlane size (parts.fft .n0) parts.allocation
  if npuPairFusedStore getenv plans n0 n1 n2 request batch = true then ⟨node .npuPairFusedStore, .n2, own⟩
  else if npuSmallStridedCube getenv n0 n1 n2 request batch = true then ⟨node .strided, .n2, own⟩
  else if ixFusedCube getenv plans n0 n1 n2 request batch = true then ⟨.cubeFused, .n2, []⟩
  else if ixFusedPlane getenv plans n0 n1 n2 request batch = true then
    -- the column kernel takes no request, the strided leaf that of the cube
    ⟨outer (ixFusedSize getenv n0 n1 n2 request), .n0, if ixColumn getenv n0 n1 n2 request = true then [] else [(.n0, request)]⟩
  else if fusedCube getenv plans n0 n1 n2 request batch = true then ⟨.cubeFused, .n2, []⟩
  else if smallPlane getenv plans n0 n1 n2 request batch = true then ⟨outer n0, .n0, [(.n0, request)]⟩
  else if hcuPrimePlane getenv plans n0 n1 n2 request batch = true then
    ⟨.cubePrimePlane (cube parts n0 n1 n2 n2) (parts.fft .n1) parts.kernel, .n1, [(.n1, axisRequest request n1 (batch * n0 * n2))]⟩
  else if macaFusedC2c32 getenv plans n0 n1 n2 request batch = true then
    ⟨outer 32, .n0, [(.n0, axisRequest request n0 (batch * n1 * n2))]⟩
  else if longAxisHybrid getenv plans n0 n1 n2 request batch = true then
    ⟨node (.hybrid none (some parts.kernel) (kernelWhere parts (request.deviceType = "maca"))), .n2, own⟩
  else if macaCubeScreen getenv plans n0 n1 n2 request batch "FLAGFFT_MACA_3D_CUBE_FIRST_STORE" = true then
    ⟨node (.hybrid none (some parts.kernel) (some parts.kernel)), .n2, own⟩
  else if macaCubeScreen getenv plans n0 n1 n2 request batch "FLAGFFT_MACA_3D_FINAL_STORE" = true then
    ⟨node (.finalPermutedStore parts.kernel parts.kernel), .n2, own⟩
  else if hybrid getenv plans n0 n1 n2 request batch = true then
    ⟨node (.hybrid (kernelWhere parts (firstTranspose getenv request)) (some parts.kernel)
      (kernelWhere parts (lastTranspose getenv n0 n1 n2 request batch))), .n2, own⟩
  else if fusedStore getenv plans n0 n1 n2 request batch = true then
    if fusedStoreLastTranspose getenv n0 n1 n2 request batch = true then ⟨node (.hybrid none none (some parts.kernel)), .n2, own⟩
    else ⟨node .strided, .n2, own⟩
  else if stridedCube plans n0 n1 n2 batch = true then
    -- the strided leaves are compiled with the request of the cube
    ⟨node .strided, .n2, [(.n2, axisRequest request n2 (batch * n0 * n1)), (.n1, request), (.n0, request)]⟩
  else if request.direction = "inverse" then ⟨node (.inverse parts.perm parts.perm parts.perm), .n2, own⟩
  else ⟨node (.forward parts.perm parts.perm parts.perm), .n2, own⟩

end Compiler

end FlagFft.Axes
