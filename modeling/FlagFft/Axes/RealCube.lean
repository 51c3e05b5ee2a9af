import FlagFft.Axes.Cube

/-! The compiled real cubes: leaves in a compact layout, then transforms between permutations, then real ends around complex
axes. -/
namespace FlagFft.Axes
open Api (TransformType)
open Plan (FftRequest PlanNode)
open Exec

section LeafGates
variable (getenv : String → Option String) (plans : CubePlans) (n0 n1 n2 : ℕ) (request : FftRequest) (batch : ℕ) (inverse : Bool)

def ixRealLeafScreen : Bool := ix71 request = true ∧ flagOrDefault getenv "FLAGFFT_IX_3D_REAL_LEAF" true = true

def ixRealFusedScreen : Bool := ix71 request = true ∧ isOne getenv "FLAGFFT_IX_3D_REAL_FUSED" = true

def npuRealKind : Bool :=
  request.deviceType = "npu" ∧ request.originRank = 3 ∧ (request.realTransformKind = "r2c" ∨ request.realTransformKind = "c2r")

def npuSmallRealRtrtCandidate : Bool :=
  npuRealKind request = true ∧ batch = 4 ∧ sides n0 n1 n2 32 = true ∧ complexFloat request = true ∧
    npu3dFlagOrDefault getenv request "FLAGFFT_NPU_3D_REAL_RTRT_SMALL" (batch = 4) = true ∧
    npu3dFlagOrDefault getenv request "FLAGFFT_NPU_3D_AIV_SMALL" true = true ∧
    npu3dFlagOrDefault getenv request "FLAGFFT_NPU_3D_REAL_SMALL_FUSED_FINAL_STORE" (batch = 4) = true

def npuRealLeafScreen : Bool :=
  npuRealKind request = true ∧
    flagOrDefault getenv "FLAGFFT_NPU_3D_LEAF" (!npuSmallRealRtrtCandidate getenv n0 n1 n2 request batch) = true

def macaRealCompact : Bool := request.deviceType = "maca" ∧ flagOrDefault getenv "FLAGFFT_MACA_3D_REAL_COMPACT" true = true

/- No screen is on for the device. -/
def noRealLeaf : Bool :=
  request.deviceType ≠ "musa" ∧ request.deviceType ≠ "hcu" ∧ ixRealLeafScreen getenv request = false ∧
    ixRealFusedScreen getenv request = false ∧ npuRealLeafScreen getenv n0 n1 n2 request batch = false ∧
    macaRealCompact getenv request = false

def cubeSides : Bool := n0 = n1 ∧ n1 = n2 ∧ (n0 = 16 ∨ n0 = 32)

def npuSmallRealCube : Bool :=
  npuRealLeafScreen getenv n0 n1 n2 request batch = true ∧ complexFloat request = true ∧ cubeSides n0 n1 n2 = true ∧
    batch * n0 * n1 * n2 ≤ 64 * 64 * 64 ∧ npu3dFlagOrDefault getenv request "FLAGFFT_NPU_3D_AIV_SMALL" true = true ∧
    npu3dFlagOrDefault getenv request "FLAGFFT_NPU_3D_REAL_RTRT_SMALL" (batch = 4) = false

def macaPrimeCompact : Bool :=
  macaRealCompact getenv request = true ∧ n0 = 16 ∧ n1 = 997 ∧ n2 = 64 ∧ batch ≤ 4 ∧
    flagOrDefault getenv "FLAGFFT_MACA_3D_REAL_PRIME_COMPACT" true = true

def missingLeaf : Bool :=
  isLeaf plans.n2Plan = false ∨ isLeaf plans.n0Plan = false ∨
    (isLeaf plans.n1Plan = false ∧ macaPrimeCompact getenv n0 n1 n2 request batch = false ∧ request.deviceType ≠ "hcu")

def smallReal : Bool := isLeaf plans.n1Plan = true ∧ batch * n0 * n1 * (n2 / 2 + 1) ≤ 64 * 64 * 64

def realFused32 : Bool :=
  let c2rTransform := request.realTransformKind = "c2r" ∨ request.realTransformKind = "z2d"
  let r2cTransform := request.realTransformKind = "r2c" ∨ request.realTransformKind = "d2z"
  let c2rFused32 := inverse = true ∧ c2rTransform ∧
    flagOrDefault getenv "FLAGFFT_HCU_3D_C2R_FUSED32" (request.inputDtype = "complex64") = true
  let r2cFused32 := inverse = false ∧ r2cTransform ∧ isOne getenv "FLAGFFT_HCU_3D_R2C_FUSED32" = true
  request.deviceType = "hcu" ∧ batch = 1 ∧ sides n0 n1 n2 32 = true ∧ plans.leaves = true ∧ (c2rFused32 ∨ r2cFused32)

def realHybrid : Bool :=
  isLeaf plans.n1Plan = false ∧ request.deviceType = "hcu" ∧ smallReal plans n0 n1 n2 batch = false ∧ 4 * max n0 n2 ≤ n1 ∧
    fused3dStoreEnabled getenv request = true ∧ unlessZero getenv "FLAGFFT_HCU_3D_REAL_HYBRID" = true

/- The four screens that return no node for what is too large. -/
def realLeafTooLarge : Bool :=
  let small := smallReal plans n0 n1 n2 batch
  let prime := macaPrimeCompact getenv n0 n1 n2 request batch
  (ixRealLeafScreen getenv request = true ∧ ixRealFusedScreen getenv request = false ∧ small = false) ∨
    (npuRealLeafScreen getenv n0 n1 n2 request batch = true ∧ small = false) ∨
    (isLeaf plans.n1Plan = false ∧ realHybrid getenv plans n0 n1 n2 request batch = false ∧ prime = false) ∨
    (small = false ∧ fused3dStoreEnabled getenv request = false ∧ ixRealFusedScreen getenv request = false ∧
      macaRealCompact getenv request = false)

/- maca_fused_real16 and maca_fused_real32 -/
def macaFusedReal (length : ℕ) (name : String) : Bool :=
  request.deviceType = "maca" ∧ sides n0 n1 n2 length = true ∧ batch = 1 ∧ plans.leaves = true ∧ flagOrDefault getenv name true = true

def fusedRealCube : Bool :=
  inverse = false ∧ ixRealLeafScreen getenv request = true ∧ batch = 1 ∧ sides n0 n1 n2 16 = true ∧
    flagOrDefault getenv "FLAGFFT_IX_3D_REAL_FUSED16_CUBE" true = true

def fusedRealPlane : Bool :=
  inverse = false ∧ ixRealLeafScreen getenv request = true ∧ smallReal plans n0 n1 n2 batch = true ∧ batch ≤ 4 ∧
    cubeSides n0 n1 n2 = true ∧ flagOrDefault getenv "FLAGFFT_IX_3D_REAL_FUSED_PLANE" true = true

def realColumn : Bool := n0 = 32 ∧ flagOrDefault getenv "FLAGFFT_IX_3D_32_COLUMN" true = true

end LeafGates

section RtrtGates
variable (getenv : String → Option String) (plans : CubePlans) (n0 n1 n2 : ℕ) (request : FftRequest) (batch : ℕ)

def npuRealRequest : Bool := npuRealKind request = true ∧ complexFloat request = true

def npuAiv64Real : Bool :=
  npuRealRequest request = true ∧ n2 = 64 ∧ npu3dFlagOrDefault getenv request "FLAGFFT_NPU_3D_REAL_NATIVE" true = true ∧
    npu3dFlagOrDefault getenv request "FLAGFFT_NPU_3D_AIV64" true = true

def npuAiv256Real : Bool :=
  npuRealRequest request = true ∧ n2 = 256 ∧ batch * n0 * n1 % 8 = 0 ∧
    npu3dFlagOrDefault getenv request "FLAGFFT_NPU_3D_AIV256_REAL" true = true

def npuAivSmallReal : Bool :=
  npuRealRequest request = true ∧ cubeSides n0 n1 n2 = true ∧ batch ≤ 4 ∧ batch * n0 * n1 * n2 ≤ 64 * 64 * 64 ∧
    npu3dFlagOrDefault getenv request "FLAGFFT_NPU_3D_REAL_RTRT_SMALL" (batch = 4) = true ∧
    npu3dFlagOrDefault getenv request "FLAGFFT_NPU_3D_AIV_SMALL" true = true

def npuRealNative : Bool :=
  npuAivSmallReal getenv n0 n1 n2 request batch || npuAiv64Real getenv n2 request || npuAiv256Real getenv n0 n1 n2 request batch

def ixRealRtrt : Bool :=
  let screenRtrt := isOne getenv "FLAGFFT_IX_3D_REAL_RTRT"
  let screenHybrid := (n2 = 64 ∨ n2 = 256) ∧ flagOrDefault getenv "FLAGFFT_IX_3D_REAL_HYBRID" (!screenRtrt) = true
  ix71 request = true ∧ (screenRtrt = true ∨ screenHybrid)

def npuFusedOuterStores : Bool :=
  npuAiv256Real getenv n0 n1 n2 request batch = true ∧ (batch = 1 ∨ batch = 4) ∧ sides n0 n1 n2 256 = true ∧
    isNpuAiv256Axis plans.n1Plan = true ∧ isNpuAiv256Axis plans.n0Plan = true ∧
    (getenv "FLAGFFT_NPU_3D_AIV256_GROUP").getD "8" = "8" ∧
    npu3dFlagOrDefault getenv request "FLAGFFT_NPU_3D_AIV256" true = true ∧
    npu3dFlagOrDefault getenv request "FLAGFFT_NPU_3D_AIV256_PAIR" true = true ∧
    npu3dFlagOrDefault getenv request "FLAGFFT_NPU_3D_AIV256_PAIR_STORE" true = true ∧
    npuPairRadix4 getenv request = true ∧
    npu3dFlagOrDefault getenv request "FLAGFFT_NPU_3D_REAL_FUSED_STORES" true = true

def npuFusedReal32Plane : Bool :=
  npuAivSmallReal getenv n0 n1 n2 request batch = true ∧ batch = 4 ∧ sides n0 n1 n2 32 = true ∧
    npu3dFlagOrDefault getenv request "FLAGFFT_NPU_3D_REAL_FUSED32_PLANE" false = true

end RtrtGates

section Compiler
variable (getenv : String → Option String) (parts : Parts) (plans : CubePlans) (n0 n1 n2 : ℕ) (request : FftRequest)
  (batch : ℕ) (kind : RealKind)

def outerRequest : List (Axis × FftRequest) := [(.n0, axisRequest request n0 (batch * n1 * (n2 / 2 + 1)))]

def realPlaneNode : Node := .cubeRealFusedPlane n0 n1 n2 kind (parts.fft .n0) parts.allocation

def compileRaw3dRealLeafNode : Option Compiled :=
  let half := n2 / 2 + 1
  let own := ownCubeRequests n0 n1 n2 request batch half
  let leaves : Compiled := ⟨cubeNode parts n0 n1 n2 half (.realLeaf kind parts.layout), .n2, own⟩
  let planes : Compiled := ⟨realPlaneNode parts n0 n1 n2 kind, .n0, outerRequest n0 n1 n2 request batch⟩
  let inverse : Bool := kind = .c2r
  if noRealLeaf getenv n0 n1 n2 request batch = true then none
  else if npuSmallRealCube getenv n0 n1 n2 request batch = true then
    some ⟨cubeNode parts n0 n1 n2 half (.realLeaf kind .strided), .n2, own⟩
  else if missingLeaf getenv plans n0 n1 n2 request batch = true then none
  else if realFused32 getenv plans n0 n1 n2 request batch inverse = true then some planes
  else if realLeafTooLarge getenv plans n0 n1 n2 request batch = true then none
  else if macaFusedReal getenv plans n0 n1 n2 request batch 16 "FLAGFFT_MACA_3D_REAL_FUSED16" = true then some planes
  else if macaFusedReal getenv plans n0 n1 n2 request batch 32 "FLAGFFT_MACA_3D_REAL_FUSED32" = true then some planes
  else if fusedRealCube getenv n0 n1 n2 request batch inverse = true then some ⟨.cubeFused, .n2, []⟩
  else if fusedRealPlane getenv plans n0 n1 n2 request batch inverse = true then
    some { planes with requests := if realColumn getenv n0 = true then [] else planes.requests }
  else some leaves

/- A permutation that is not fused into a store. -/
def unfusedPerm (axis : Axis) : Option Perm3d := if parts.fusedPerm axis = true then none else some parts.perm

def compileRaw3dRealRtrtNode : Option Compiled :=
  let half := n2 / 2 + 1
  let own := ownCubeRequests n0 n1 n2 request batch half
  if npuRealNative getenv n0 n1 n2 request batch = false ∧ ixRealRtrt getenv n2 request = false then none
  else if npuFusedReal32Plane getenv n0 n1 n2 request batch = true then
    some ⟨realPlaneNode parts n0 n1 n2 kind, .n0, outerRequest n0 n1 n2 request batch⟩
  else if npuFusedOuterStores getenv plans n0 n1 n2 request batch = true then
    some ⟨.cubeRtrtFusedOuter (cube parts n0 n1 n2 half) kind (parts.fft .n2) (parts.fft .n1) (parts.fft .n0), .n2, own⟩
  else
    match kind with
    | .r2c =>
      some ⟨cubeNode parts n0 n1 n2 half
        (.realRtrtForward (unfusedPerm parts .n2) (unfusedPerm parts .n1) (unfusedPerm parts .n0)), .n2, own⟩
    | .c2r =>
      some ⟨cubeNode parts n0 n1 n2 half (.realRtrtInverse parts.perm (unfusedPerm parts .n1) (unfusedPerm parts .n0)), .n2, own⟩

def realCubeEnds : RealCube :=
  ⟨cube parts n0 n1 n2 (n2 / 2 + 1), parts.kernel, parts.kernel, parts.perm, parts.perm, parts.perm, parts.allocation⟩

/- compile_raw_3d_r2c_node and compile_raw_3d_c2r_node -/
def compileRaw3dRealNode : Compiled :=
  let ends : Compiled :=
    ⟨match kind with
      | .r2c => .cubeR2c (realCubeEnds parts n0 n1 n2) (parts.fft .n2) (parts.fft .n1) (parts.fft .n0)
      | .c2r => .cubeC2r (realCubeEnds parts n0 n1 n2) (parts.fft .n0) (parts.fft .n1) (parts.fft .n2),
      .n2, ownCubeRequests n0 n1 n2 request batch (n2 / 2 + 1)⟩
  ((compileRaw3dRealLeafNode getenv parts plans n0 n1 n2 request batch kind).or
    (compileRaw3dRealRtrtNode getenv parts plans n0 n1 n2 request batch kind)).getD ends

end Compiler

/- What build_plan compiles for a cube. -/
def CubeDesc.compile (desc : CubeDesc) (device : Device) (getenv : String → Option String) (parts : Parts)
    (plans : CubePlans) : List Compiled :=
  let request := requestOf device desc.type 3 3 (desc.n0 * desc.n1 * desc.n2) desc.batch
  if desc.type = .r2c ∨ desc.type = .d2z then
    [compileRaw3dRealNode getenv parts plans desc.n0 desc.n1 desc.n2 (request "forward") desc.batch .r2c]
  else if desc.type = .c2r ∨ desc.type = .z2d then
    [compileRaw3dRealNode getenv parts plans desc.n0 desc.n1 desc.n2 (request "inverse") desc.batch .c2r]
  else
    [compileRaw3dNode getenv parts plans desc.n0 desc.n1 desc.n2 (request "forward") desc.batch,
      compileRaw3dNode getenv parts plans desc.n0 desc.n1 desc.n2 (request "inverse") desc.batch]

end FlagFft.Axes
