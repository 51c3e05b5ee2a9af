import FlagFft.Axes.Requests

/-! The compiled planes. A definition returns the node that compilation ends with where no exception ends it first. -/
namespace FlagFft.Axes
open Api (TransformType)
open Plan (FftRequest PlanNode)
open Exec

section Compiler
variable (getenv : String → Option String) (parts : Parts) (rowPlan colPlan : PlanNode) (n0 n1 : ℕ) (request : FftRequest)
  (batch : ℕ)

def isOne (name : String) : Bool := getenv name = some "1"

def rcEligible : Bool := n0 ≤ 256

def plane (width : ℕ) : Plane := ⟨n0, width, parts.transpose, parts.transpose, parts.allocation, parts.allocation⟩

def planeNode : Node := .plane (plane parts n0 n1) (parts.fft .row) (parts.fft .col)

def planeRcNode : Node := .planeRc n0 n1 (parts.fft .row) (parts.fft .col) parts.allocation

/- Rows and columns with the requests made for them. -/
def ownRequests (rowBatch colBatch : ℕ) : List (Axis × FftRequest) :=
  [(.row, axisRequest request n1 rowBatch), (.col, axisRequest request n0 colBatch)]

/- The columns with the request of the whole plane. -/
def sharedColumn (rowBatch : ℕ) : List (Axis × FftRequest) :=
  [(.row, axisRequest request n1 rowBatch), (.col, request)]

def npuFused2d : Bool :=
  request.deviceType = "npu" ∧ complexFloat request = true ∧ n0 = 64 ∧ n1 = 64 ∧ isOne getenv "FLAGFFT_NPU_2D_FUSED_RADIX" = true

def useNpuAivFft64 : Bool :=
  request.deviceType = "npu" ∧ request.originRank = 2 ∧ complexFloat request = true ∧ n0 = 64 ∧ n1 = 64 ∧
    flagOrDefault getenv "FLAGFFT_NPU_2D_ASCENDC_AIV" true = true ∧ isLeaf rowPlan = true ∧ isLeaf colPlan = true

def useNpu2dCubeDft (n : ℕ) : Bool :=
  isOne getenv "FLAGFFT_NPU_2D_CUBE_DFT" = true ∧ request.deviceType = "npu" ∧ request.originRank = 2 ∧
    complexFloat request = true ∧ 32 ≤ n ∧ n ≤ 64

def cubeDft : Bool :=
  n0 = 64 ∧ n1 = 64 ∧ useNpu2dCubeDft getenv request n0 = true ∧ isDirect rowPlan = true ∧ isDirect colPlan = true

def npuTransposeStore : Bool :=
  request.deviceType = "npu" ∧ request.originRank = 2 ∧ complexFloat request = true ∧ n0 ≤ 128 ∧ n1 ≤ 128 ∧
    isOne getenv "FLAGFFT_NPU_2D_TRANSPOSE_STORE" = true ∧ isLeaf rowPlan = true ∧ isLeaf colPlan = true

def npuLeaf64Transpose : Bool :=
  request.deviceType = "npu" ∧ complexFloat request = true ∧ n0 = 64 ∧ n1 = 64 ∧
    isOne getenv "FLAGFFT_NPU_2D_LEAF64_TRANSPOSE" = true

def compileRaw2dNode : Compiled :=
  let own := ownRequests n0 n1 request (batch * n0) (batch * n1)
  let shared := sharedColumn n1 request (batch * n0)
  if n0 = 1 then ⟨.oneDimAs2d (parts.fft .row) batch, .row, [(.row, axisRequest request n1 batch)]⟩
  else if npuFused2d getenv n0 n1 request = true then ⟨.planeFused n0 n1 parts.allocation, .row, []⟩
  else if n1 = 1 then ⟨.oneDimAs2d (parts.fft .col) batch, .col, [(.col, axisRequest request n0 batch)]⟩
  -- native transforms, made without a request
  else if useNpuAivFft64 getenv rowPlan colPlan n0 n1 request = true then ⟨planeRcNode parts n0 n1, .row, []⟩
  else if cubeDft getenv rowPlan colPlan n0 n1 request = true then
    if isOne getenv "FLAGFFT_NPU_2D_CUBE_MATMUL" = true then ⟨planeRcNode parts n0 n1, .row, own⟩
    else if isOne getenv "FLAGFFT_NPU_2D_CUBE_TRANSPOSE_KERNELS" = true then ⟨planeNode parts n0 n1, .row, own⟩
    else ⟨planeRcNode parts n0 n1, .row, own⟩
  else if npuTransposeStore getenv rowPlan colPlan n0 n1 request = true then ⟨planeRcNode parts n0 n1, .row, own⟩
  -- a strided column is compiled with the request of the plane
  else if rcEligible n0 = true ∧ isLeaf colPlan = true ∧ npuLeaf64Transpose getenv n0 n1 request = false then
    ⟨planeRcNode parts n0 n1, .row, shared⟩
  else if rcEligible n0 = true ∧ isDirect colPlan = true ∧ request.deviceType ≠ "npu" then
    ⟨planeRcNode parts n0 n1, .row, shared⟩
  else if rcEligible n0 = true ∧ isLeafPair colPlan = true then ⟨planeRcNode parts n0 n1, .row, shared⟩
  else ⟨planeNode parts n0 n1, .row, own⟩

section Real

def realPlane : RealPlane := ⟨plane parts n0 n1, parts.kernel, parts.kernel, parts.allocation⟩

def realRc (ends : Bool) : RealRc :=
  ⟨n0, n1, if ends then some (parts.kernel, parts.kernel) else none, parts.allocation, parts.allocation⟩

/- use_npu_aiv_fft64_real -/
def useNpuAivFft64Real (kind : String) : Bool :=
  request.realTransformKind = kind ∧ useNpuAivFft64 getenv rowPlan colPlan n0 n1 request = true

/- maca_2d_single_policy_ and maca_2d_real_rows_enabled -/
def maca2dSinglePolicy : Bool :=
  request.deviceType = "maca" ∧ request.rawDim = 2 ∧ request.batch = 1 ∧ complexFloat request = true ∧ batch = 1 ∧
    request.inputLayout = "contiguous" ∧ 1 < n0 ∧ 1 < n1 ∧ flagOrDefault getenv "FLAGFFT_MACA_2D_SINGLE" true = true

def maca2dRealRowsEnabled : Bool :=
  flagOrDefault getenv "FLAGFFT_MACA_2D_REAL_ROWS" (maca2dSinglePolicy getenv n0 n1 request batch) = true ∧
    request.deviceType = "maca" ∧ request.rawDim = 2 ∧ request.batch = 1 ∧ batch = 1 ∧ complexFloat request = true ∧
    request.inputLayout = "contiguous" ∧ 256 < n0 ∧ 1 < n1 ∧ n1 % 2 = 0

/- Where rc_col_fft is not null. -/
def rcColumn : Bool :=
  rcEligible n0 = true ∧ (isLeaf colPlan = true ∨ (isDirect colPlan = true ∧ request.deviceType ≠ "npu") ∨ isLeafPair colPlan = true)

def useNpuRealRow : Bool :=
  request.deviceType = "npu" ∧ hasRealBoundaryRowPlan rowPlan = true ∧ flagOrDefault getenv "FLAGFFT_NPU_2D_REAL_ROW" true = true

def npuCompactRows : Bool :=
  request.deviceType = "npu" ∧ request.originRank = 2 ∧ complexFloat request = true ∧
    flagOrDefault getenv "FLAGFFT_NPU_2D_REAL_ROW" true = true

/- The two real compilers, which differ in the nodes they make. -/
def compileRaw2dReal (kind : String) (rowNode : Node) (rc : Bool → Node) (full : Node) : Compiled :=
  let halfN1 := n1 / 2 + 1
  let own := ownRequests n0 n1 request (batch * n0) (batch * halfN1)
  let shared := sharedColumn n1 request (batch * n0)
  if n0 = 1 then ⟨.oneDimAs2d (parts.fft .row) batch, .row, [(.row, axisRequest request n1 batch)]⟩
  else if useNpuAivFft64Real getenv rowPlan colPlan n0 n1 request kind = true then
    ⟨rc false, .row, [(.row, request), (.col, request)]⟩
  else if maca2dRealRowsEnabled getenv n0 n1 request batch = true ∧ hasRealBoundaryRowPlan rowPlan = true then
    ⟨rowNode, .row, own⟩
  else if rcColumn colPlan n0 request = true then ⟨rc (!useNpuRealRow getenv rowPlan request), .row, shared⟩
  else if npuCompactRows getenv request = true then ⟨rowNode, .row, own⟩
  else ⟨full, .row, own⟩

def compileRaw2dR2cNode : Compiled :=
  compileRaw2dReal getenv parts rowPlan colPlan n0 n1 request batch "r2c"
    (.planeR2cRow (plane parts n0 n1) (parts.fft .row) (parts.fft .col))
    (fun ends => .planeR2cRc (realRc parts n0 n1 ends) (parts.fft .row) (parts.fft .col))
    (.planeR2c (realPlane parts n0 n1) (parts.fft .row) (parts.fft .col))

def compileRaw2dC2rNode : Compiled :=
  compileRaw2dReal getenv parts rowPlan colPlan n0 n1 request batch "c2r"
    (.planeC2rRow (plane parts n0 n1) (parts.fft .col) (parts.fft .row))
    (fun ends => .planeC2rRc (realRc parts n0 n1 ends) (parts.fft .col) (parts.fft .row))
    (.planeC2r (realPlane parts n0 n1) (parts.fft .col) (parts.fft .row))

end Real

end Compiler

/- What build_plan compiles for a plane. -/
def PlaneDesc.compile (desc : PlaneDesc) (device : Device) (getenv : String → Option String) (parts : Parts)
    (rowPlan colPlan : PlanNode) : List Compiled :=
  let request := requestOf device desc.type 2 2 (desc.n0 * desc.n1) desc.batch
  if desc.type = .r2c ∨ desc.type = .d2z then
    [compileRaw2dR2cNode getenv parts rowPlan colPlan desc.n0 desc.n1 (request "forward") desc.batch]
  else if desc.type = .c2r ∨ desc.type = .z2d then
    [compileRaw2dC2rNode getenv parts rowPlan colPlan desc.n0 desc.n1 (request "inverse") desc.batch]
  else
    [compileRaw2dNode getenv parts rowPlan colPlan desc.n0 desc.n1 (request "forward") desc.batch,
      compileRaw2dNode getenv parts rowPlan colPlan desc.n0 desc.n1 (request "inverse") desc.batch]

end FlagFft.Axes
