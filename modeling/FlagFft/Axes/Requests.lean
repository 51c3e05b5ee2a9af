import FlagFft.Api.Descriptor
import FlagFft.Exec.Steps
import FlagFft.Plan.Nodes
import FlagFft.Plan.Tuned

/-! The axes of a plan of rank two or three: the requests with which build_plan asks for the plan of each, and the calls
in which a compiled node executes them. -/
namespace FlagFft.Axes
open Api (TransformType)
open Plan (FftRequest)
open Exec

/- Rows and columns of a plane, or the three axes of a cube. -/
inductive Axis where
  | row
  | col
  | n2
  | n1
  | n0
  deriving DecidableEq

/- adaptor::backend_name() and the architecture of the descriptor. -/
structure Device where
  type : String
  arch : String

/- Accepted descriptors have positive lengths and a positive batch. -/
structure PlaneDesc where
  type : TransformType
  n0 : ℕ
  n1 : ℕ
  batch : ℕ
  positive : 0 < n0 ∧ 0 < n1 ∧ 0 < batch

structure CubeDesc where
  type : TransformType
  n0 : ℕ
  n1 : ℕ
  n2 : ℕ
  batch : ℕ
  positive : 0 < n0 ∧ 0 < n1 ∧ 0 < n2 ∧ 0 < batch

section Planner
variable (device : Device)

/- request_from_desc -/
def requestOf (type : TransformType) (rank originRank : ℕ) (length batch : ℕ) (direction : String) : FftRequest :=
  let isDouble : Bool := type = .z2z ∨ type = .d2z ∨ type = .z2d
  let dtype := if isDouble then "complex128" else "complex64"
  { requestedN := length, batch := batch, rawDim := rank, originRank := originRank
    realTransform := type.realForward || type.realInverse, realTransformKind := Api.realTransformKind type
    norm := "backward", inputDtype := dtype, outputDtype := dtype, deviceType := device.type, deviceArch := device.arch
    inputLayout := "contiguous", direction := direction }

def c2cType (type : TransformType) : TransformType := if type = .z2d ∨ type = .d2z ∨ type = .z2z then .z2z else .c2c

/- A lookup in one direction and, where its plan cannot be compiled, one in the other. -/
def bothDirections (axis : Axis) (direction : String) (request : String → FftRequest) : List (Axis × FftRequest) :=
  [(axis, request direction), (axis, request (if direction = "forward" then "inverse" else "forward"))]

/- build_plan, rank two. -/
def PlaneDesc.axisRequests (desc : PlaneDesc) : List (Axis × FftRequest) :=
  let halfN1 := desc.n1 / 2 + 1
  let realForward := desc.type.realForward
  let realInverse := desc.type.realInverse
  let marked (request : FftRequest) : FftRequest :=
    if realInverse then { request with realTransformKind := "c2r" }
    else if realForward then { request with realTransformKind := "r2c" } else request
  let rowType := if realForward then desc.type else c2cType desc.type
  bothDirections .row "forward" (fun direction => marked (requestOf device rowType 1 2 desc.n1 (desc.batch * desc.n0) direction)) ++
    bothDirections .col (if realInverse then "inverse" else "forward") fun direction =>
      marked (requestOf device (c2cType desc.type) 1 2 desc.n0 (desc.batch * halfN1) direction)

/- build_plan, rank three. -/
def CubeDesc.axisRequests (desc : CubeDesc) : List (Axis × FftRequest) :=
  let halfN2 := desc.n2 / 2 + 1
  let real := desc.type.realForward || desc.type.realInverse
  let width := if real then halfN2 else desc.n2
  let direction := if desc.type.realInverse then "inverse" else "forward"
  let axis (axis : Axis) (length batch : ℕ) :=
    bothDirections axis direction fun direction => requestOf device (c2cType desc.type) 1 3 length batch direction
  axis .n2 desc.n2 (desc.batch * desc.n0 * desc.n1) ++ axis .n1 desc.n1 (desc.batch * desc.n0 * width) ++
    axis .n0 desc.n0 (desc.batch * desc.n1 * width)

end Planner

/- Kernels, buffers and children of a compiled node, the layouts its real leaves store and which permutations of a real
cube are fused, and the context of its execution up to the batch. -/
structure Parts where
  kernel : JitKernel
  transpose : Transpose2D
  perm : Perm3d
  layout : RealLayout
  fusedPerm : Axis → Bool
  allocation : Allocation
  fft : Axis → Node
  context : Context

/- A compiled node, the axis of its child where it has one, and the request with which the child of each axis is
compiled. -/
structure Compiled where
  node : Node
  only : Axis
  requests : List (Axis × FftRequest)

section Execution

def CubeStep.axis : CubeStep → Option Axis
  | .n2 _ _ => some .n2
  | .n1 _ _ => some .n1
  | .n0 _ _ => some .n0
  | .perm _ => none

/- The axes of the children a node executes, in the order of its execution. -/
def callAxes (only : Axis) (batch : ℕ) : Node → List Axis
  | .plane .. | .planeRc .. | .planeR2cRow .. | .planeR2c .. | .planeR2cRc .. => [.row, .col]
  | .planeC2rRow .. | .planeC2r .. | .planeC2rRc .. => [.col, .row]
  | .cube _ schedule .. => schedule.steps.filterMap CubeStep.axis
  | .cubeRtrtFusedOuter _ .r2c .. => .n2 :: (List.range batch).flatMap fun _ => [.n1, .n0]
  | .cubeRtrtFusedOuter _ .c2r .. => ((List.range batch).flatMap fun _ => [.n1, .n0]) ++ [.n2]
  | .cubeR2c .. => [.n2, .n1, .n0]
  | .cubeC2r .. => [.n0, .n1, .n2]
  | _ => [only]

def calledBatch : Step → Option ℕ
  | .launch _ => none
  | .call _ inner => some inner.batch

/- The batch of each execution of an axis, when the node is executed with the batch of the descriptor. -/
def Compiled.calls (compiled : Compiled) (parts : Parts) (batch : ℕ) : List (Axis × ℕ) :=
  (callAxes compiled.only batch compiled.node).zip
    ((compiled.node.steps { parts.context with batch := batch }).filterMap calledBatch)

/- Planned, compiled and executed for one number of transforms. -/
def SameWorkload (planned : List (Axis × FftRequest)) (compiled : Compiled) (calls : List (Axis × ℕ)) : Prop :=
  ∀ axis request, (axis, request) ∈ planned →
    (∀ other, (axis, other) ∈ compiled.requests → other.batch = request.batch) ∧
      ∀ batch, (axis, batch) ∈ calls → (batch : ℤ) = request.batch

end Execution

section Flags
variable (getenv : String → Option String)

/- flag_or_default and maca_flag_or_default -/
def flagOrDefault (name : String) (defaultValue : Bool) : Bool :=
  match getenv name with
  | none => defaultValue
  | some value => value = "1"

def npu3dFlagOrDefault (request : FftRequest) (name : String) (defaultValue : Bool) : Bool :=
  if request.deviceType = "npu" ∧ request.originRank = 3 then flagOrDefault getenv name defaultValue else false

def fused3dStoreEnabled (request : FftRequest) : Bool :=
  match getenv "FLAGFFT_3D_FUSED_STORE" with
  | some value =>
    if value = "" then !(["cuda", "ix", "maca"].contains request.deviceType) else value ≠ "0"
  | none => !(["cuda", "ix", "maca"].contains request.deviceType)

def complexFloat (request : FftRequest) : Bool := request.inputDtype = "complex64" ∧ request.outputDtype = "complex64"

/- The request of an axis: that of the whole transform with the length and the number of rows of the axis. -/
def axisRequest (request : FftRequest) (length rows : ℕ) : FftRequest :=
  { request with requestedN := length, batch := rows }

end Flags

section Plans
open Plan (PlanNode)

def isLeaf : PlanNode → Bool
  | .leaf .. => true
  | _ => false

def isDirect : PlanNode → Bool
  | .directDft _ => true
  | _ => false

/- A four-step plan of two leaves. -/
def isLeafPair : PlanNode → Bool
  | .fourStep _ _ _ row col => isLeaf row && isLeaf col
  | _ => false

/- has_real_boundary_row_plan -/
def hasRealBoundaryRowPlan (plan : PlanNode) : Bool := isLeaf plan || isLeafPair plan

end Plans

end FlagFft.Axes
