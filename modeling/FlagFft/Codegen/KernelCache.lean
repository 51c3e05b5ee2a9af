import FlagFft.Codegen.KernelKey
import FlagFft.Library.Memo

/-! The in-process kernel cache: the text a compilation is cached under, and the command line and environment its
generation gets. Both are built from the same call, by separate lists. -/
namespace FlagFft.Codegen
open Library.Memo

inductive Backend where
  | cuda
  | musa
  | ix
  | maca
  | hcu
  | npu
  | ppu
  deriving DecidableEq, Repr

/- The process environment. -/
abbrev Environment := String → Option String

/- The flags of the compiler, as its plan set them. -/
structure Policies where
  maca1dSingle : Bool := false
  maca1dBatch : Bool := false
  maca2dSingle : Bool := false
  maca3d : Bool := false
  maca3dC2c32SingleCube : Bool := false
  ixCtSingle : Bool := false
  ixCtSingleTle : ℤ := 0
  ixCtBatch : Bool := false
  ixRealSinglePack : Bool := false
  macaTail : String := "off"
  deriving DecidableEq, Repr

/- One call of compile_kernel, with the capabilities of the current device. -/
structure Call where
  key : KernelKey
  policies : Policies
  environment : Environment
  deviceProfile : String

section Tail

def singleOrDouble (dtype : String) : Bool := dtype == "complex64" || dtype == "complex128"

def macaTailKernelMode (root : String) (kind : KernelKind) (dtype : String) (length n1 n2 : ℤ) : String :=
  let fourStepPass := kind == .fourStepRow || kind == .fourStepCol
  if root == "p4w4" && dtype == "complex128" && length == 1024 && n1 == 1024 && n2 == 1024 && fourStepPass then "p4w4"
  else if root == "real-direct" && 2 ≤ length && length ≤ 37 && (kind == .directDftR2C || kind == .directDftC2R) then
    "real-direct"
  else if root == "batch-c2c-tree" && kind == .directDft && dtype == "complex128" && length == 23 then "batch-c2c-tree"
  else if root == "batch-prime-vecio" && (kind == .raderPrepare || kind == .raderFinalize) && singleOrDouble dtype then
    "batch-prime-rader-vecio"
  else if fourStepPass && (length == n1 || length == n2) then
    if root == "batch-vecio" && singleOrDouble dtype && [(256, 64), (128, 128), (64, 128), (390, 476), (512, 1024),
        (512, 512)].contains (n1, n2) then "batch-vecio"
    else if root == "batch-real-pack2" && dtype == "complex128" && n1 * n2 == 92820 then "batch-real-pack2"
    else if root == "batch-c2c-pack2" && dtype == "complex128" && n1 == 390 && n2 == 476 then "batch-c2c-pack2"
    else if root == "batch-prime-vecio" && singleOrDouble dtype && [(90, 91), (91, 180)].contains (n1, n2) then
      "batch-prime-vecio"
    else "off"
  else "off"

/- The overrides that are recorded whole, unset or with their length. -/
def macaRecorded : List String :=
  ["FLAGFFT_MACA_REAL_DFT_REDUCTION", "FLAGFFT_MACA_EXCHANGE", "FLAGFFT_MACA_BATCH_PACK", "FLAGFFT_MACA_3D_N64_PACK",
    "FLAGFFT_MACA_3D_N32_FP64_PACK", "FLAGFFT_MACA_3D_PERMSTORE_PACK", "FLAGFFT_MACA_FP64_REGISTER_PACK",
    "FLAGFFT_MACA_INNER_PACK", "FLAGFFT_MACA_MAX_WARPS", "FLAGFFT_MACA_SPLIT_ORDER", "FLAGFFT_MACA_VEC_IO",
    "FLAGFFT_MACA_LANE_MIN", "FLAGFFT_MACA_MIXED_EXCHANGE", "FLAGFFT_MACA_RADER_FULL_LEAF",
    "FLAGFFT_MACA_RADER_BOUNDARY_LEAF", "FLAGFFT_MACA_RADER_VEC_IO", "FLAGFFT_MACA_TRANSPOSE3D",
    "FLAGFFT_MACA_TRANSPOSE3D_WARPS", "FLAGFFT_MACA_TRANSPOSE3D_FP64", "FLAGFFT_MACA_TRANSPOSE3D_TRAVERSAL",
    "FLAGFFT_MACA_TRANSPOSE3D_SLICE_GROUP", "FLAGFFT_MACA_3D_FIRST_STORE", "FLAGFFT_MACA_3D_FINAL_STORE",
    "FLAGFFT_MACA_3D_R2C_FIRST_STORE", "FLAGFFT_MACA_3D_REAL_FUSED16", "FLAGFFT_MACA_3D_C2C_FUSED32",
    "FLAGFFT_MACA_3D_C2C32_MORE_LANES"]

def recordedValue : Option String → String
  | some value => toString value.toList.length ++ ":" ++ value
  | none => "unset"

def recordedText (environment : Environment) : List String → String
  | [] => ""
  | name :: rest => ";" ++ name ++ "=" ++ recordedValue (environment name) ++ recordedText environment rest

def macaTailCodegenIdentity (environment : Environment) (mode : String) : String :=
  ";maca-tail-v1=" ++ mode ++ recordedText environment macaRecorded

end Tail

section Key
variable (backend : Backend) (call : Call)

def defaultPolicy : String :=
  match backend with
  | .ix => "balanced"
  | .hcu => "native"
  | _ => "legacy"

def Call.policy : String := (call.environment "FLAGFFT_EXECUTION_POLICY").getD (defaultPolicy backend)

def Call.tailMode : String :=
  macaTailKernelMode call.policies.macaTail call.key.kind call.key.dtype call.key.length call.key.fourStepN1
    call.key.fourStepN2

def Policies.fields (policies : Policies) : List (String × String) :=
  [(";profile-v1;maca-1d-single=", bit policies.maca1dSingle), (";maca-1d-batch=", bit policies.maca1dBatch),
    (";maca-2d-single=", bit policies.maca2dSingle), (";maca-3d=", bit policies.maca3d),
    (";maca-3d-c2c32-single-cube=", bit policies.maca3dC2c32SingleCube), (";ix-ct-single=", bit policies.ixCtSingle),
    (";ix-ct-single-tle=", toString policies.ixCtSingleTle), (";ix-ct-batch=", bit policies.ixCtBatch),
    (";ix-real-single-pack=", bit policies.ixRealSinglePack)]

def isOne (value : Option String) : Bool := value == some "1"

/- The overrides some kinds add on some backends, mostly as switches. -/
def ixStoreFields (environment : Environment) : List (String × String) :=
  [(";ix-3d-direct-store=", bit (isOne (environment "FLAGFFT_IX_3D_DIRECT_STORE"))),
    (";ix-3d-pair-store=", bit (isOne (environment "FLAGFFT_IX_3D_PAIR_STORE"))),
    (";ix-3d-pack=", (environment "FLAGFFT_IX_3D_PACK").getD "auto")]

def npuStoreFields (environment : Environment) : List (String × String) :=
  [(";npu-2d-transpose-store=", bit (isOne (environment "FLAGFFT_NPU_2D_TRANSPOSE_STORE"))),
    (";npu-portable-leaf=", bit (isOne (environment "FLAGFFT_NPU_FOURSTEP_LEAF"))),
    (";npu-2d-transpose-pack=", (environment "FLAGFFT_NPU_2D_TRANSPOSE_PACK").getD "auto")]

def npuLeafFields (portable : Bool) (environment : Environment) : List (String × String) :=
  (";npu-portable-leaf=", bit (portable || isOne (environment "FLAGFFT_NPU_FOURSTEP_LEAF"))) ::
  if portable then
    [(";npu-2d-exchange=", ((environment "FLAGFFT_NPU_2D_EXCHANGE").or (environment "FLAGFFT_MACA_EXCHANGE")).getD "auto"),
      (";npu-2d-lane-min=", ((environment "FLAGFFT_NPU_2D_LANE_MIN").or (environment "FLAGFFT_MACA_LANE_MIN")).getD "auto"),
      (";npu-2d-batch-pack=",
        ((environment "FLAGFFT_NPU_2D_BATCH_PACK").or (environment "FLAGFFT_MACA_BATCH_PACK")).getD "auto"),
      (";npu-2d-split-order=",
        ((environment "FLAGFFT_NPU_2D_SPLIT_ORDER").or (environment "FLAGFFT_MACA_SPLIT_ORDER")).getD "auto")]
  else []

def ixPackedFields (environment : Environment) : List (String × String) :=
  [(";ix-3d-packed-r2c=", bit (isOne (environment "FLAGFFT_IX_3D_PACKED_R2C")))]

def ixTransposeFields (environment : Environment) : List (String × String) :=
  [(";ix-3d-transpose-tile=", (environment "FLAGFFT_IX_3D_TRANSPOSE_TILE").getD "16"),
    (";ix-3d-packed-transpose=", bit (isOne (environment "FLAGFFT_IX_3D_PACKED_TRANSPOSE")))]

def npuLeafKinds : List KernelKind := [.leaf, .leafStrided, .leafPermutedStore, .leafR2C, .leafC2R]

def Call.overrideFields : List (String × String) :=
  let kind := call.key.kind
  (if kind = .leafPermutedStore ∧ backend = .ix then ixStoreFields call.environment else []) ++
  (if kind = .leafPermutedStore ∧ backend = .npu then npuStoreFields call.environment else []) ++
  (if backend = .npu ∧ kind ∈ npuLeafKinds then npuLeafFields call.key.npuPortableLeaf call.environment else []) ++
  (if kind = .leafPackedR2C ∧ backend = .ix then ixPackedFields call.environment else []) ++
  (if kind = .transpose3D ∧ backend = .ix then ixTransposeFields call.environment else [])

def cacheKey : String :=
  call.key.repr ++ call.deviceProfile ++ call.policy backend ++ renderFields call.policies.fields ++
    (if backend = .maca then macaTailCodegenIdentity call.environment call.tailMode else "") ++
    renderFields (call.overrideFields backend)

end Key

end FlagFft.Codegen
