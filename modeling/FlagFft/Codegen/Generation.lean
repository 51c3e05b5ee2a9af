import FlagFft.Codegen.KernelCache

/-! What generation is given: the generator's command line and environment. The interpreter and the directories the
output goes to are left out: they say where, not what, to generate. -/
namespace FlagFft.Codegen
open Library.Text Library.Memo

section Command
variable (backend : Backend) (call : Call)

def formName (name form : String) : String := if form = "outer" then name else name ++ "_" ++ form

def Call.kernelName : String :=
  match call.key.kind with
  | .leafBluestein => formName "leaf_bluestein" call.key.permForm
  | .bluesteinFourStepPrepareRow => formName "bluestein_four_step_prepare_row" call.key.permForm
  | .bluesteinFourStepFinishCol => formName "bluestein_four_step_finish_col" call.key.permForm
  | kind => kernelKindName kind

def flag (present : Bool) (name : String) : List String := if present then [name] else []

def option (name value : String) : List String := [name, value]

def leafKinds : List KernelKind :=
  [.leaf, .leafStrided, .leafPermutedStore, .leafStridedPermutedStore, .leafR2C, .leafR2CPermutedStore, .leafPackedR2C,
    .leafC2R, .leafPackedC2R, .leafBluestein, .leafRaderFull, .leafRaderPrepare, .leafRaderFinish,
    .leafBluesteinPrepare, .leafBluesteinFinish, .bluesteinFourStepPrepareRow, .bluesteinFourStepPointwiseRow,
    .bluesteinFourStepFinishCol, .fourStepRow, .fourStepRowStrided, .fourStepRealRow, .fourStepHermitianRow,
    .fourStepCol, .fourStepColStrided, .fourStepR2CCol, .fourStepC2RCol]

def permutedKinds : List KernelKind := [.leafPermutedStore, .leafStridedPermutedStore, .leafR2CPermutedStore]

def directKinds : List KernelKind :=
  [.directDft, .directDftStrided, .directDftCube, .directDftCubeTransposed, .directDftCubeStrided, .directDftCube2DRow,
    .directDftCube2DCol, .directDftR2C, .directDftC2R]

def fourStepKinds : List KernelKind :=
  [.fourStepRow, .fourStepRowStrided, .fourStepRealRow, .fourStepHermitianRow, .fourStepCol, .fourStepColStrided,
    .fourStepR2CCol, .fourStepC2RCol, .bluesteinFourStepPrepareRow, .bluesteinFourStepPointwiseRow,
    .bluesteinFourStepFinishCol]

def bluesteinKinds : List KernelKind :=
  [.leafBluestein, .leafBluesteinPrepare, .leafBluesteinFinish, .bluesteinFourStepPrepareRow,
    .bluesteinFourStepPointwiseRow, .bluesteinFourStepFinishCol, .bluesteinPrepare, .bluesteinPointwise,
    .bluesteinFinalize]

def raderKinds : List KernelKind :=
  [.leafRaderFull, .leafRaderPrepare, .leafRaderFinish, .raderPrepare, .raderPointwise, .raderFinalize]

def reshapeKinds : List KernelKind := [.reshapePack, .twiddleReshapePack, .tiledTranspose]

def fusedKinds : List KernelKind :=
  [.fused16Plane, .fused32Plane, .fused16RealPlane, .fused32RealPlane, .fusedRectPlane, .fused16Cube, .fused16RealCube,
    .fused32Column, .fused2D]

def fusedLengthKinds : List KernelKind := [.fused16Plane, .fused32RealPlane, .fused16Cube]

def realKinds : List KernelKind :=
  [.realToComplex, .r2CHalfPack, .r2CPackedPostprocess, .c2RPackedPreprocess, .compactToHermitianFull, .complexToReal]

def policyOptions (policies : Policies) : List String :=
  flag policies.ixCtSingle "--ix-ct-single" ++ flag policies.ixCtBatch "--ix-ct-batch" ++
  flag policies.ixRealSinglePack "--ix-real-single-pack" ++
  (if policies.ixCtSingleTle ≠ 0 then option "--ix-ct-single-tle" (toString policies.ixCtSingleTle) else [])

/- Only in the build for that backend. -/
def macaOptions (policies : Policies) (tailMode : String) : List String :=
  flag policies.maca1dSingle "--maca-1d-single" ++ flag policies.maca1dBatch "--maca-1d-batch" ++
  option "--maca-tail-mode" tailMode ++ flag policies.maca2dSingle "--maca-2d-single" ++
  flag policies.maca3d "--maca-3d" ++ flag policies.maca3dC2c32SingleCube "--maca-3d-c2c32-single-cube"

def lengthOption (key : KernelKey) : List String := option "--length" (toString key.length)

def keyOptions (key : KernelKey) : List String :=
  (if key.kind ∈ leafKinds then
    lengthOption key ++ option "--factors" (joinInts key.factors) ++ option "--lanes" (toString key.lanes) ++
    option "--num-warps" (toString key.numWarps) ++ option "--generic-radices" (joinInts key.genericRadices) ++
    option "--smem-size" (toString key.smemSize) ++ option "--direction" key.direction ++
    flag key.npuPortableLeaf "--npu-portable-leaf"
  else []) ++
  (if key.kind ∈ permutedKinds then option "--perm-form" key.permForm else []) ++
  flag key.hcuFullSmem "--hcu-3d-full-smem" ++
  (if key.kind ∈ directKinds then lengthOption key ++ option "--direction" key.direction else []) ++
  (if key.kind = .stockhamStage then
    lengthOption key ++ option "--factors" (joinInts key.factors) ++ option "--direction" key.direction
  else []) ++
  (if key.kind ∈ fourStepKinds then
    option "--four-step-n1" (toString key.fourStepN1) ++ option "--four-step-n2" (toString key.fourStepN2)
  else []) ++
  (if key.kind ∈ bluesteinKinds then
    option "--bluestein-n" (toString key.bluesteinN) ++ option "--bluestein-m" (toString key.bluesteinM)
  else []) ++
  (if key.kind ∈ raderKinds then
    option "--rader-n" (toString key.raderN) ++ option "--rader-m" (toString key.raderM)
  else []) ++
  (if key.kind ∈ reshapeKinds then
    option "--reshape-n1" (toString key.reshapeN1) ++ option "--reshape-n2" (toString key.reshapeN2)
  else []) ++
  (if key.kind = .transpose3D then
    option "--transpose3d-n0" (toString key.transpose3dN0) ++ option "--transpose3d-n1" (toString key.transpose3dN1) ++
    option "--transpose3d-n2" (toString key.transpose3dN2) ++ option "--transpose3d-order" key.transpose3dOrder
  else []) ++
  (if key.kind ∈ fusedKinds then option "--direction" key.direction else []) ++
  (if key.kind ∈ fusedLengthKinds then lengthOption key else []) ++
  (if key.kind = .fusedRectPlane then
    option "--fused-plane-n0" (toString key.fusedPlaneN0) ++ option "--fused-plane-n1" (toString key.fusedPlaneN1) ++
    option "--fused-plane-middle" (toString key.fusedPlaneMiddle)
  else []) ++
  (if key.kind = .fused32Column then lengthOption key else []) ++
  (if key.kind = .fused2D then lengthOption key ++ flag (key.permForm == "transpose") "--fused-2d-transpose" else []) ++
  (if key.kind ∈ realKinds then lengthOption key else [])

/- The words of the generator's command line. -/
def Call.command : List String :=
  option "--kernel" call.kernelName ++ option "--dtype" call.key.dtype ++ option "--target" call.key.target ++
  option "--device-profile" call.deviceProfile ++ option "--execution-policy" (call.policy backend) ++
  policyOptions call.policies ++
  (if backend = .maca then macaOptions call.policies call.tailMode else []) ++
  keyOptions call.key

/- One variable is set for the generator, on the targets it is meant for. -/
def Call.generatorEnvironment : Environment := fun name =>
  if "hcu:".toList.isPrefixOf call.key.target.toList ∧ name = "FLAGFFT_HCU_3D_MIDDLE_BATCH_PACK" then
    some (if 0 < call.key.hcu3dMiddleBatchPack then toString call.key.hcu3dMiddleBatchPack else "auto")
  else call.environment name

end Command

/- The variables the generator's entry point itself reads, whatever the kernel, before it emits one. -/
def mainReads (backend : Backend) (name : String) : Bool :=
  match backend with
  | .ix => "FLAGFFT_IX_".toList.isPrefixOf name.toList
  | .maca => "FLAGFFT_MACA_".toList.isPrefixOf name.toList
  | .musa => ["FLAGFFT_MUSA_3D_PAIR_STORE", "FLAGFFT_MUSA_3D_PACK"].contains name
  | .hcu =>
    ["FLAGFFT_HCU_3D_PAIR_STORE", "FLAGFFT_HCU_3D_PACK", "FLAGFFT_HCU_3D_FP64_TILE", "FLAGFFT_HCU_3D_FUSED_WARPS",
      "FLAGFFT_HCU_3D_TRANSPOSE_PAIR", "FLAGFFT_HCU_3D_TRANSPOSE_TILE", "FLAGFFT_HCU_3D_TRANSPOSE_SLICE_GROUP",
      "FLAGFFT_HCU_3D_FULL_SMEM", "FLAGFFT_HCU_3D_U64_LOAD", "FLAGFFT_HCU_3D_FIRST_PACK", "FLAGFFT_HCU_3D_MIDDLE_PACK",
      "FLAGFFT_HCU_3D_MIDDLE_BATCH_PACK", "FLAGFFT_HCU_3D_FINAL_WARPS", "FLAGFFT_HCU_3D_FINAL_PACK",
      "FLAGFFT_HCU_3D_SMEM_SWIZZLE", "FLAGFFT_HCU_3D_SMEM_SWIZZLE_SHIFT", "FLAGFFT_HCU_3D_R2C_LEAF_SWIZZLE",
      "FLAGFFT_HCU_3D_256_FACTORS", "FLAGFFT_HCU_3D_2048_FACTORS", "FLAGFFT_HCU_3D_R2C_FP64_2048_FACTORS"].contains name
  | _ => false

/- The generator: the variables it reads for a command line, and the kernel it makes of them. -/
structure Generator (backend : Backend) (K : Type) where
  reads : List String → String → Prop
  generate : List String → Environment → Except String K
  entry : ∀ command name, mainReads backend name = true → reads command name
  onlyReads : ∀ command environment environment', (∀ name, reads command name → environment name = environment' name) →
    generate command environment = generate command environment'

/- What the entry point makes of its variables on one backend: a part of the name of the module's directory. -/
def musaProfileDir (environment : Environment) : Except String String :=
  let pairStore := (environment "FLAGFFT_MUSA_3D_PAIR_STORE").getD "1"
  let permutedPack := (environment "FLAGFFT_MUSA_3D_PACK").getD "auto"
  if pairStore ∉ ["0", "1"] then .error "FLAGFFT_MUSA_3D_PAIR_STORE must be 0 or 1"
  else if permutedPack ∉ ["auto", "1", "2", "4", "8"] then .error "FLAGFFT_MUSA_3D_PACK must be auto, 1, 2, 4 or 8"
  else .ok ("-musa-3d-pair-store-" ++ pairStore ++ "-pack-" ++ permutedPack)

section Compile
variable {backend : Backend} {K : Type} (generator : Generator backend K)

def rejectLegacyBackendEnv (environment : Environment) : Except String Unit :=
  let rejected := ["FLAGFFT_KERNEL_BACKEND", "FFT_BACKEND"].find? fun name =>
    match environment name with
    | none => false
    | some value => value ≠ "" ∧ value ≠ "JIT"
  match rejected with
  | none => .ok ()
  | some name => .error (name ++ "=" ++ (environment name).getD "" ++ " is unsupported; FlagFFT is JIT-only")

def generateFor (call : Call) : Except String K := generator.generate (call.command backend) call.generatorEnvironment

/- The kernels the calls of a run return. -/
def compileKernels (table : List (String × K)) (events : List (Event Call)) : List (Except String K) :=
  recallAll (cacheKey backend) (fun call => rejectLegacyBackendEnv call.environment) (generateFor generator) table events

end Compile

end FlagFft.Codegen
