import FlagFft.Plan.SearchSound
import FlagFft.Plan.Tuned

/-! A plan builder as its callers see it: a request sets the context and empties the caches when it is not the last one,
the root of a plan may be split by a setting or a measurement, and everything below it is searched. -/
namespace FlagFft.Plan
open Library.Fuel

structure BuilderHost extends Host where
  backendName : String
  maxDynamicSmemBytes : (deviceIndex : ℤ) → ℤ

/- The fields of an FFTRequest a builder reads. -/
structure BuildRequest extends FftRequest where
  originRealTransformKind : String
  deviceIndex : ℤ
  maca3dC2c32SingleCube : Bool
  fftLength : ℤ
  inputStrides : List ℤ
  packedRealChild : Bool
  deriving DecidableEq

def kDynamicSmemFallbackBytes : ℤ := 48 * 1024

structure BuilderState where
  requestContext : Option (RequestContext × ℤ)
  caches : Caches

def freshBuilder : BuilderState where
  requestContext := none
  caches := ⟨fun _ => none, fun _ => none, fun _ => none, false⟩

abbrev Session (α : Type) : Type := Program String BuilderState α

def onCaches {α : Type} (search : Build α) : Session α :=
  Program.within BuilderState.caches (fun s caches => { s with caches := caches }) search

section Context
variable (host : BuilderHost) (request : BuildRequest)

def BuildRequest.policyRequest : Codegen.FftRequest :=
  ⟨request.deviceType, request.deviceArch, request.rawDim, request.originRank, request.batch, request.fftLength, request.requestedN,
    request.inputDtype, request.outputDtype, request.inputStrides, request.packedRealChild⟩

def makeRequestContext : Except String RequestContext := do
  let ixShortSingle ← if request.requestedN = 1024 then Codegen.ixCtSinglePolicyEnabled host.getenv request.policyRequest else pure false
  let ixCtBatch ← Codegen.ixCtBatchPolicyEnabled host.getenv request.policyRequest
  return {
    inputDtype := request.inputDtype
    outputDtype := request.outputDtype
    realTransformKind := request.realTransformKind
    originRealTransformKind := request.originRealTransformKind
    deviceType := request.deviceType
    deviceArch := request.deviceArch
    originRank := request.originRank
    requestedN := request.requestedN
    batch := request.batch
    maca3dC2c32SingleCube := request.maca3dC2c32SingleCube
    ixShortSingle := ixShortSingle
    ixCtBatch := ixCtBatch
    maxDynamicSmemBytes :=
      if request.deviceType = host.backendName then host.maxDynamicSmemBytes request.deviceIndex else kDynamicSmemFallbackBytes }

/- The best factors of a leaf stay where they are. -/
def setRequestContext : Session RequestContext := do
  let next ← Program.ofExcept (makeRequestContext host request)
  let current ← Program.get
  if current.requestContext = some (next, request.deviceIndex) then pure next
  else
    Program.modify fun s =>
      { requestContext := some (next, request.deviceIndex)
        caches := { s.caches with node := fun _ => none, cost := fun _ => none } }
    pure next

end Context

section Splits
variable (host : BuilderHost)

/- Both numbers of a text such as 4096:64. -/
def splitSetting (name spec : String) : Except String (ℤ × ℤ) :=
  let shape := name ++ " must be <length>:<n1>"
  if ':' ∉ spec.toList then .error shape
  else
    let length := String.ofList (spec.toList.takeWhile (· ≠ ':'))
    let n1 := String.ofList ((spec.toList.dropWhile (· ≠ ':')).drop 1)
    match host.stoll length with
    | none => .error "stoll"
    | some (targetLength, parsed) =>
      if parsed ≠ length.utf8ByteSize then .error shape
      else match host.stoll n1 with
        | none => .error "stoll"
        | some (value, parsed) => if parsed ≠ n1.utf8ByteSize then .error shape else .ok (targetLength, value)

/- A root the setting asks for; the children are up to the caller. -/
def forcedSplit (name complaint : String) (n : ℕ) (children : ℕ → ℕ → Build (PlanNode × PlanNode)) : Build (Option PlanNode) :=
  match host.getenv name with
  | none | some "" => pure none
  | some spec => do
    let (targetLength, n1) ← Program.ofExcept (splitSetting host name spec)
    if targetLength = n then
      if n1 ≤ 1 ∨ (n : ℤ) ≤ n1 ∨ (n : ℤ) % n1 ≠ 0 then Program.throw (name ++ complaint)
      else
        let (row, col) ← children n1.toNat (n / n1.toNat)
        pure (some (.fourStep n n1 (n / n1.toNat : ℕ) row col))
    else pure none

variable (context : RequestContext) (callees : Callees)

def searchedChildren (n1 n2 : ℕ) : Build (PlanNode × PlanNode) := do
  let row ← callees.node n1 false
  let col ← callees.node n2 false
  pure (row, col)

/- FLAGFFT_NPU_FOURSTEP_LEAF -/
def leafMode : Bool := host.getenv "FLAGFFT_NPU_FOURSTEP_LEAF" = some "1"

def leafChildren (n1 n2 : ℕ) : Build (PlanNode × PlanNode) := do
  let rowFactors ← selectLeafFactors host.toHost context n1
  let colFactors ← selectLeafFactors host.toHost context n2
  if shouldUseLeaf context n1 rowFactors = false ∨ shouldUseLeaf context n2 colFactors = false then
    Program.throw "FLAGFFT_NPU_FOURSTEP_LEAF requires two supported leaf lengths"
  else
    let row ← Program.ofExcept (makeLeafPlan context n1 rowFactors)
    let col ← Program.ofExcept (makeLeafPlan context n2 colFactors)
    pure (row, col)

def npuChildren (n1 n2 : ℕ) : Build (PlanNode × PlanNode) :=
  if leafMode host = true then leafChildren host context n1 n2 else searchedChildren callees n1 n2

/- A leaf of 64 points has a kernel of its own. -/
def aiv64Factors (useAiv64 : Bool) (length : ℕ) : Build (Option (List ℕ)) :=
  if useAiv64 = true ∧ length = 64 then do
    let factors ← selectLeafFactors host.toHost context length
    pure (if shouldUseLeaf context length factors = true then some factors else none)
  else pure none

/- One axis of a three-dimensional request. -/
def npu3dChild (useAiv64 : Bool) (length : ℕ) : Build PlanNode := do
  match ← aiv64Factors host context useAiv64 length with
  | some factors => Program.ofExcept (makeLeafPlan context length factors)
  | none =>
    if leafMode host = true then do
      let factors ← selectLeafFactors host.toHost context length
      if shouldUseLeaf context length factors = false then
        Program.throw "FLAGFFT_NPU_FOURSTEP_LEAF requires supported leaf children"
      else Program.ofExcept (makeLeafPlan context length factors)
    else callees.node length false

def npu3dChildren (useAiv64 : Bool) (n1 n2 : ℕ) : Build (PlanNode × PlanNode) := do
  let row ← npu3dChild host context callees useAiv64 n1
  let col ← npu3dChild host context callees useAiv64 n2
  pure (row, col)

end Splits

section MacaTail
variable (host : BuilderHost) (request : BuildRequest) (n : ℕ)

structure MacaTailPlan where
  name : String
  first : ℕ := 0
  second : ℕ := 0
  deriving DecidableEq

def BuilderHost.environment : Environment where
  backendName := host.backendName
  macaTailPolicy := host.getenv "FLAGFFT_MACA_TAIL_POLICY"
  macaTailPlan := host.getenv "FLAGFFT_MACA_TAIL_PLAN"

def automaticTail : Except String String :=
  (macaTailAutomaticPlan host.environment request.toFftRequest).mapError fun
    | .thrown what => what
    | .missing key => key
    | .wrongType => ""

def BuildRequest.fp32 : Prop :=
  (request.inputDtype = "complex64" ∧ request.outputDtype = "complex64") ∨
    (request.inputDtype = "float32" ∧ request.outputDtype = "complex64") ∨
    (request.inputDtype = "complex64" ∧ request.outputDtype = "float32")

def BuildRequest.fp64 : Prop :=
  (request.inputDtype = "complex128" ∧ request.outputDtype = "complex128") ∨
    (request.inputDtype = "float64" ∧ request.outputDtype = "complex128") ∨
    (request.inputDtype = "complex128" ∧ request.outputDtype = "float64")

instance : Decidable request.fp32 := inferInstanceAs (Decidable (_ ∨ _ ∨ _))
instance : Decidable request.fp64 := inferInstanceAs (Decidable (_ ∨ _ ∨ _))

/- The lengths and types there are experiments for. -/
def tailExperiments : List MacaTailPlan :=
  if n = 997 ∧ request.fp64 then [⟨"bs2000", 2000, 0⟩, ⟨"bs2048", 2048, 0⟩]
  else if n = 1009 ∧ request.fp32 then [⟨"rader1008", 1008, 0⟩, ⟨"bs2048", 2048, 0⟩]
  else if n = 1048576 ∧ request.fp64 then [⟨"ct512x2048", 512, 2048⟩, ⟨"ct1024x1024", 1024, 1024⟩]
  else if n = 663000 ∧ (request.fp32 ∨ request.fp64) then
    [⟨"ct375x1768", 375, 1768⟩, ⟨"ct650x1020", 650, 1020⟩, ⟨"ct780x850", 780, 850⟩]
  else if n = 328050 ∧ (request.fp32 ∨ request.fp64) then
    [⟨"ct450x729", 450, 729⟩, ⟨"ct486x675", 486, 675⟩, ⟨"ct405x810", 405, 810⟩]
  else []

def chooseExperiment (tuning : Bool) (setting : String) (plans : List MacaTailPlan) : Except String (List MacaTailPlan) :=
  if plans = [] then .error "FLAGFFT_MACA_TAIL_PLAN: unsupported experiment length/dtype"
  else if setting = "compare" then
    if tuning = false then .error "FLAGFFT_MACA_TAIL_PLAN=compare is only valid for tune" else .ok plans
  else if setting = "default" then .ok [⟨"default", 0, 0⟩]
  else match plans.find? (·.name == setting) with
    | some plan => .ok [plan]
    | none => .error ("FLAGFFT_MACA_TAIL_PLAN: invalid plan for this experiment: " ++ setting)

def settingExperiments (tuning : Bool) : Except String (List MacaTailPlan) :=
  match host.getenv "FLAGFFT_MACA_TAIL_PLAN" with
  | none | some "" => .ok []
  | some setting =>
    if request.deviceType ≠ "maca" ∨ request.rawDim ≠ 1 ∨ request.batch ≠ 1 ∨ (n : ℤ) ≠ request.requestedN then .ok []
    else if host.getenv "FLAGFFT_TUNE_DISABLE" ≠ some "1" ∨ host.getenv "FLAGFFT_PACKED_REAL" ≠ some "0" then
      .error "FLAGFFT_MACA_TAIL_PLAN requires FLAGFFT_TUNE_DISABLE=1 and FLAGFFT_PACKED_REAL=0"
    else chooseExperiment tuning setting (tailExperiments request n)

def macaTailPlans (tuning : Bool) : Except String (List MacaTailPlan) := do
  let automatic ← automaticTail host request
  if (n : ℤ) = request.requestedN ∧ automatic = "bs2048" then return [⟨automatic, 2048, 0⟩]
  else if (n : ℤ) = request.requestedN ∧ automatic = "ct1024x1024" then return [⟨automatic, 1024, 1024⟩]
  else if (n : ℤ) = request.requestedN ∧ automatic = "ct405x810" then return [⟨automatic, 405, 810⟩]
  else settingExperiments host request n tuning

def buildMacaTailPlan (callees : Callees) (plan : MacaTailPlan) : Build PlanNode :=
  if plan.name = "default" then callees.node n true
  else if plan.second ≠ 0 then fourStepNode callees n plan.first plan.second
  else if plan.name = "rader1008" then do
    let root ← Program.ofExcept (findPrimitiveRoot n)
    let idx ← Program.ofExcept (buildRaderIndexTable n root)
    let conv ← callees.node (n - 1) false
    pure (.rader n root (idx.map fun i : ℕ => (i : ℤ)) conv)
  else do
    let fft ← callees.node plan.first false
    pure (.bluestein n plan.first fft)

end MacaTail

section Roots
variable (host : BuilderHost) (context : RequestContext) (request : BuildRequest) (callees : Callees) (n : ℕ)

/- A measured root. -/
def measuredRoot (applies : Prop) [Decidable applies] (n1 : ℕ) : Build (Option PlanNode) :=
  if applies then do
    let node ← fourStepNode callees n n1 (n / n1)
    pure (some node)
  else pure none

def BuildRequest.hcuSingleC2r : Prop :=
  request.deviceType = "hcu" ∧ request.rawDim = 1 ∧ request.originRank = 1 ∧ request.requestedN = n ∧ request.realTransform = true ∧
    (request.realTransformKind = "c2r" ∨ request.realTransformKind = "z2d" ∨ request.originRealTransformKind = "c2r" ∨
      request.originRealTransformKind = "z2d")

def BuildRequest.complexFloat : Prop := request.inputDtype = "complex64" ∧ request.outputDtype = "complex64"

/- One axis of a two- or three-dimensional transform on the NPU. -/
def BuildRequest.npuAxis (rank : ℤ) : Prop :=
  request.deviceType = "npu" ∧ request.originRank = rank ∧ request.rawDim = 1 ∧ request.complexFloat

def BuildRequest.macaBatchC2c : Prop :=
  request.deviceType = "maca" ∧ request.deviceArch = "102" ∧ request.rawDim = 1 ∧ request.originRank ≤ 1 ∧ request.batch = 64 ∧
    (n : ℤ) = request.requestedN ∧ request.realTransform = false ∧ request.complexFloat ∧
    host.getenv "FLAGFFT_MACA_1D_BATCH" ≠ some "0"

instance : Decidable (request.hcuSingleC2r n) := inferInstanceAs (Decidable (_ ∧ _ ∧ _ ∧ _ ∧ _ ∧ _))
instance : Decidable request.complexFloat := inferInstanceAs (Decidable (_ ∧ _))
instance (rank : ℤ) : Decidable (request.npuAxis rank) := inferInstanceAs (Decidable (_ ∧ _ ∧ _ ∧ _))
instance : Decidable (request.macaBatchC2c host n) := inferInstanceAs (Decidable (_ ∧ _ ∧ _ ∧ _ ∧ _ ∧ _ ∧ _ ∧ _ ∧ _))

def only {α : Type} (applies : Prop) [Decidable applies] (route : Build (Option α)) : Build (Option α) :=
  if applies then route else pure none

/- The splits of the one-dimensional operator on the NPU. -/
def npuOperatorN1 : ℕ :=
  if n = 16384 then 128
  else if n = 46189 then 209
  else if n = 185640 then 420
  else if n = 340200 then 567
  else if n = 524288 then 512
  else if n = 663000 then 663
  else 0

def BuildRequest.npuOperator : Prop :=
  request.deviceType = "npu" ∧ request.rawDim = 1 ∧ request.originRank = 1 ∧ request.requestedN = n ∧
    (request.inputDtype = "complex64" ∨ request.outputDtype = "complex64") ∧ npuOperatorN1 n ≠ 0

instance : Decidable (request.npuOperator n) := inferInstanceAs (Decidable (_ ∧ _ ∧ _ ∧ _ ∧ _ ∧ _))

def aiv64Enabled : Bool := host.getenv "FLAGFFT_NPU_3D_AIV64" = some "1"

def aiv64Root (useAiv64 : Bool) : Build (Option PlanNode) := do
  match ← aiv64Factors host context useAiv64 n with
  | some factors => do
    let node ← Program.ofExcept (makeLeafPlan context n factors)
    pure (some node)
  | none => pure none

def macaTailRoot : Build (Option PlanNode) := do
  let experiments ← Program.ofExcept (macaTailPlans host request n false)
  match experiments with
  | [] => pure none
  | plan :: _ => do
    let node ← buildMacaTailPlan n callees plan
    pure (some node)

/- The routes of a root in their order; what none of them takes is searched. -/
def rootRoutes : List (Build (Option PlanNode)) :=
  [only (request.hcuSingleC2r n) (forcedSplit host "FLAGFFT_HCU_C2R_FOURSTEP_SPLIT" " n1 must divide the requested length" n
      (searchedChildren callees)),
    measuredRoot callees n (request.hcuSingleC2r n ∧ n = 340200) 567,
    only (request.deviceType = "npu" ∧ request.originRank = 1) (forcedSplit host "FLAGFFT_NPU_FOURSTEP_SPLIT"
      " must divide the requested length" n (npuChildren host context callees)),
    only (request.npuAxis 2 ∧ request.requestedN = n) (forcedSplit host "FLAGFFT_NPU_2D_FOURSTEP_SPLIT"
      " must divide the requested length" n (npuChildren host context callees)),
    only (request.npuAxis 3) (aiv64Root host context n (aiv64Enabled host)),
    only (request.npuAxis 3 ∧ request.requestedN = n) (forcedSplit host "FLAGFFT_NPU_3D_FOURSTEP_SPLIT"
      " must divide the requested length" n (npu3dChildren host context callees (aiv64Enabled host))),
    measuredRoot callees n (request.npuOperator n) (npuOperatorN1 n),
    macaTailRoot host request callees n,
    measuredRoot callees n (request.macaBatchC2c host n ∧ (n = 16384 ∨ n = 663000)) (if n = 16384 then 256 else 884)]

def buildRoot : Build PlanNode := do
  match ← tryEach (rootRoutes host context request callees n) with
  | some node => pure node
  | none => callees.node n true

end Roots

section Calls
variable (host : BuilderHost) (fuel : ℕ)

def Session.build (n : ℤ) (request : BuildRequest) : Session PlanNode := do
  let context ← setRequestContext host request
  if n ≤ 0 then Program.throw "FFT length must be positive"
  else onCaches (buildRoot host context request (level host.toHost context fuel) n.toNat)

def Session.costFor (n : ℕ) (request : BuildRequest) : Session ℚ := do
  let context ← setRequestContext host request
  onCaches ((level host.toHost context fuel).cost n)

end Calls

end FlagFft.Plan
