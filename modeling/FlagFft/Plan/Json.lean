import FlagFft.Library.Json
import FlagFft.Plan.Nodes
import FlagFft.Device

/-! Plan trees as JSON and back. The reader falls back on the builder where a leaf misses a field, and reads the
remainder of a leaf as an int. -/
namespace FlagFft.Plan
open Library.Json

def twoDimStrategyName : TwoDimStrategy → String
  | .rtrt => "RTRT"

def threeDimStrategyName : ThreeDimStrategy → String
  | .rtrt => "RTRT"

def planNodeToJson (node : PlanNode) : Value :=
  match node with
  | .leaf length factors remainder lanes numWarps genericRadices smemSize =>
    .object [("kind", .text (planNodeKindName node.kind)), ("length", .number length), ("factors", ints factors),
      ("remainder", .number remainder), ("lanes", .number lanes), ("num_warps", .number numWarps),
      ("generic_radices", ints genericRadices), ("smem_size", .number smemSize)]
  | .directDft length =>
    .object [("kind", .text (planNodeKindName node.kind)), ("length", .number length), ("impl", .text "torch_matmul")]
  | .stockham length factors =>
    .object [("kind", .text (planNodeKindName node.kind)), ("length", .number length), ("factors", ints factors),
      ("stages", .array [])]
  | .fourStep length n1 n2 rowPlan colPlan =>
    .object [("kind", .text (planNodeKindName node.kind)), ("length", .number length), ("n1", .number n1),
      ("n2", .number n2), ("row", planNodeToJson rowPlan), ("col", planNodeToJson colPlan)]
  | .bluestein length convLength fftPlan =>
    .object [("kind", .text (planNodeKindName node.kind)), ("length", .number length),
      ("conv_length", .number convLength), ("fft_plan", planNodeToJson fftPlan)]
  | .rader prime root idx convPlan =>
    .object [("kind", .text (planNodeKindName node.kind)), ("length", .number prime), ("prime", .number prime),
      ("root", .number root), ("idx", ints idx), ("conv_length", .number (prime - 1)),
      ("conv_plan", planNodeToJson convPlan)]
  | .twoDim n0 n1 strategy rowPlan colPlan =>
    .object [("kind", .text (planNodeKindName node.kind)), ("length", .number (n0 * n1)), ("n0", .number n0),
      ("n1", .number n1), ("strategy", .text (twoDimStrategyName strategy)), ("row", planNodeToJson rowPlan),
      ("col", planNodeToJson colPlan)]
  | .threeDim n0 n1 n2 strategy n2Plan n1Plan n0Plan =>
    .object [("kind", .text (planNodeKindName node.kind)), ("length", .number (n0 * n1 * n2)), ("n0", .number n0),
      ("n1", .number n1), ("n2", .number n2), ("strategy", .text (threeDimStrategyName strategy)),
      ("n2_plan", planNodeToJson n2Plan), ("n1_plan", planNodeToJson n1Plan), ("n0_plan", planNodeToJson n0Plan)]

/- What the reader asks of the builder for a field that is missing. -/
structure Builder where
  chooseLanes : ℤ → List ℤ → ℤ
  chooseNumWarps : ℤ → ℤ

def kSpecializedButterflyRadices : List ℤ := [2, 4, 8, 16]

def kSpecializedDirectCodeletRadices : List ℤ := [3, 5, 6, 7, 9, 10, 11, 12, 13, 15, 17, 18, 19, 20, 24, 25, 27, 28, 30, 32]

def defaultGenericRadices (factors : List ℤ) : List ℤ :=
  let generic := factors.foldl (fun found radix =>
    if radix ∉ kSpecializedButterflyRadices ∧ radix ∉ kSpecializedDirectCodeletRadices ∧ radix ∉ found then found ++ [radix]
    else found) []
  generic.mergeSort (· ≤ ·)

def defaultSmemSize (length : ℤ) (factors : List ℤ) : ℤ :=
  if factors.length ≤ 1 then 0 else ceilPowerOfTwo length.toNat

/- node.value("remainder", 1) converts to the type of its default, an int. -/
def remainderField (node : Value) : Except Error ℤ :=
  match node.field? "remainder" with
  | some value => return (← value.asInt).bmod (2 ^ 32)
  | none => return 1

/- node.contains(key) ? node[key].get<T>() : fallback -/
def orElse {α : Type} (node : Value) (key : String) (read : Value → Except Error α) (fallback : α) : Except Error α :=
  match node.field? key with
  | some value => read value
  | none => .ok fallback

def leafFromJson (builder : Builder) (node : Value) (length : ℤ) : Except Error PlanNode := do
  let factors ← node.intsAt "factors"
  let remainder ← remainderField node
  let lanes ← orElse node "lanes" Value.asInt (builder.chooseLanes length factors)
  let numWarps ← orElse node "num_warps" Value.asInt (builder.chooseNumWarps lanes)
  let genericRadices ← orElse node "generic_radices" Value.asInts (defaultGenericRadices factors)
  let smemSize ← orElse node "smem_size" Value.asInt (defaultSmemSize length factors)
  return .leaf length factors remainder lanes numWarps genericRadices smemSize

def planNodeFromJson (builder : Builder) (node : Value) : Except Error PlanNode := do
  let kind ← node.textAt "kind"
  let length ← node.intAt "length"
  if kind = "ct_leaf" then leafFromJson builder node length
  else if kind = "four_step" then do
    let n1 ← node.intAt "n1"
    let n2 ← node.intAt "n2"
    let ⟨row, _⟩ ← node.child "row"
    let ⟨col, _⟩ ← node.child "col"
    return .fourStep length n1 n2 (← planNodeFromJson builder row) (← planNodeFromJson builder col)
  else if kind = "bluestein" then do
    let convLength ← node.intAt "conv_length"
    let ⟨fft, _⟩ ← node.child "fft_plan"
    return .bluestein length convLength (← planNodeFromJson builder fft)
  else if kind = "rader" then do
    let root ← node.intAt "root"
    let idx ← node.intsAt "idx"
    let ⟨conv, _⟩ ← node.child "conv_plan"
    return .rader length root idx (← planNodeFromJson builder conv)
  else if kind = "direct_dft" then return .directDft length
  else if kind = "stockham_autosort" then return .stockham length (← node.intsAt "factors")
  else if kind = "two_dim" then do
    let n0 ← node.intAt "n0"
    let n1 ← node.intAt "n1"
    let ⟨row, _⟩ ← node.child "row"
    let ⟨col, _⟩ ← node.child "col"
    return .twoDim n0 n1 .rtrt (← planNodeFromJson builder row) (← planNodeFromJson builder col)
  else if kind = "three_dim" then do
    let n0 ← node.intAt "n0"
    let n1 ← node.intAt "n1"
    let n2 ← node.intAt "n2"
    let ⟨n2Json, _⟩ ← node.child "n2_plan"
    let ⟨n1Json, _⟩ ← node.child "n1_plan"
    let ⟨n0Json, _⟩ ← node.child "n0_plan"
    return .threeDim n0 n1 n2 .rtrt (← planNodeFromJson builder n2Json) (← planNodeFromJson builder n1Json)
      (← planNodeFromJson builder n0Json)
  else .error (.thrown ("unsupported plan node kind in forced plan: " ++ kind))
termination_by sizeOf node

/- What is left of a tree when the remainders of its leaves are read as ints. -/
def PlanNode.narrowed : PlanNode → PlanNode
  | .leaf length factors remainder lanes numWarps genericRadices smemSize =>
    .leaf length factors (remainder.bmod (2 ^ 32)) lanes numWarps genericRadices smemSize
  | .directDft length => .directDft length
  | .stockham length factors => .stockham length factors
  | .fourStep length n1 n2 rowPlan colPlan => .fourStep length n1 n2 rowPlan.narrowed colPlan.narrowed
  | .bluestein length convLength fftPlan => .bluestein length convLength fftPlan.narrowed
  | .rader prime root idx convPlan => .rader prime root idx convPlan.narrowed
  | .twoDim n0 n1 strategy rowPlan colPlan => .twoDim n0 n1 strategy rowPlan.narrowed colPlan.narrowed
  | .threeDim n0 n1 n2 strategy n2Plan n1Plan n0Plan =>
    .threeDim n0 n1 n2 strategy n2Plan.narrowed n1Plan.narrowed n0Plan.narrowed

section RoundTrip
variable {builder : Builder}

theorem kindField {node : PlanNode} : (planNodeToJson node).textAt "kind" = .ok (planNodeKindName node.kind) := by
  refine textFound ?_
  cases node <;> rfl

theorem lengthField {node : PlanNode} : (planNodeToJson node).intAt "length" = .ok node.length := by
  refine intFound ?_
  cases node <;> rfl

/- Induction on the tree; a leaf finds every field, so the builder is never asked. -/
theorem jsonNarrows {node : PlanNode} : planNodeFromJson builder (planNodeToJson node) = .ok node.narrowed := by
  induction node with
  | leaf length factors remainder lanes numWarps genericRadices smemSize =>
    rw [planNodeFromJson, kindField, lengthField]
    have factorsField : (planNodeToJson (.leaf length factors remainder lanes numWarps genericRadices smemSize)).intsAt
      "factors" = .ok factors := intsFound rfl
    change leafFromJson _ _ length = _
    rw [leafFromJson, factorsField]
    change (do
      let radices ← (ints genericRadices).asInts
      return PlanNode.leaf length factors (remainder.bmod (2 ^ 32)) lanes numWarps radices smemSize) = _
    rw [intsRead]
    rfl
  | directDft length =>
    rw [planNodeFromJson, kindField, lengthField]
    rfl
  | stockham length factors =>
    have factorsField : (planNodeToJson (.stockham length factors)).intsAt "factors" = .ok factors := intsFound rfl
    rw [planNodeFromJson, kindField, lengthField]
    change (do return PlanNode.stockham length (← (planNodeToJson (.stockham length factors)).intsAt "factors")) = _
    rw [factorsField]
    rfl
  | fourStep length n1 n2 rowPlan colPlan row col =>
    rw [planNodeFromJson, kindField, lengthField]
    change (do
      let rowPlan ← planNodeFromJson builder (planNodeToJson rowPlan)
      let colPlan ← planNodeFromJson builder (planNodeToJson colPlan)
      return PlanNode.fourStep length n1 n2 rowPlan colPlan) = _
    rw [row, col]
    rfl
  | bluestein length convLength fftPlan fft =>
    rw [planNodeFromJson, kindField, lengthField]
    change (do return PlanNode.bluestein length convLength (← planNodeFromJson builder (planNodeToJson fftPlan))) = _
    rw [fft]
    rfl
  | rader prime root idx convPlan conv =>
    rw [planNodeFromJson, kindField, lengthField]
    change (do
      let idx ← (ints idx).asInts
      return PlanNode.rader prime root idx (← planNodeFromJson builder (planNodeToJson convPlan))) = _
    rw [intsRead, conv]
    rfl
  | twoDim n0 n1 strategy rowPlan colPlan row col =>
    rw [planNodeFromJson, kindField, lengthField]
    change (do
      let rowPlan ← planNodeFromJson builder (planNodeToJson rowPlan)
      let colPlan ← planNodeFromJson builder (planNodeToJson colPlan)
      return PlanNode.twoDim n0 n1 .rtrt rowPlan colPlan) = _
    rw [row, col]
    rfl
  | threeDim n0 n1 n2 strategy n2Plan n1Plan n0Plan n2Tree n1Tree n0Tree =>
    rw [planNodeFromJson, kindField, lengthField]
    change (do
      let n2Plan ← planNodeFromJson builder (planNodeToJson n2Plan)
      let n1Plan ← planNodeFromJson builder (planNodeToJson n1Plan)
      let n0Plan ← planNodeFromJson builder (planNodeToJson n0Plan)
      return PlanNode.threeDim n0 n1 n2 .rtrt n2Plan n1Plan n0Plan) = _
    rw [n2Tree, n1Tree, n0Tree]
    rfl

/- The trees that are built: every leaf is made with a remainder of one. -/
inductive Built : PlanNode → Prop where
  | leaf (length : ℤ) (factors : List ℤ) (lanes numWarps : ℤ) (genericRadices : List ℤ) (smemSize : ℤ) :
      Built (.leaf length factors 1 lanes numWarps genericRadices smemSize)
  | directDft (length : ℤ) : Built (.directDft length)
  | stockham (length : ℤ) (factors : List ℤ) : Built (.stockham length factors)
  | fourStep {rowPlan colPlan : PlanNode} (length n1 n2 : ℤ) :
      Built rowPlan → Built colPlan → Built (.fourStep length n1 n2 rowPlan colPlan)
  | bluestein {fftPlan : PlanNode} (length convLength : ℤ) : Built fftPlan → Built (.bluestein length convLength fftPlan)
  | rader {convPlan : PlanNode} (prime root : ℤ) (idx : List ℤ) : Built convPlan → Built (.rader prime root idx convPlan)
  | twoDim {rowPlan colPlan : PlanNode} (n0 n1 : ℤ) (strategy : TwoDimStrategy) :
      Built rowPlan → Built colPlan → Built (.twoDim n0 n1 strategy rowPlan colPlan)
  | threeDim {n2Plan n1Plan n0Plan : PlanNode} (n0 n1 n2 : ℤ) (strategy : ThreeDimStrategy) :
      Built n2Plan → Built n1Plan → Built n0Plan → Built (.threeDim n0 n1 n2 strategy n2Plan n1Plan n0Plan)

theorem builtNarrow {node : PlanNode} (built : Built node) : node.narrowed = node := by
  induction built with
  | leaf | directDft | stockham => rfl
  | fourStep length n1 n2 _ _ row col => rw [PlanNode.narrowed, row, col]
  | bluestein length convLength _ fft => rw [PlanNode.narrowed, fft]
  | rader prime root idx _ conv => rw [PlanNode.narrowed, conv]
  | twoDim n0 n1 strategy _ _ row col => rw [PlanNode.narrowed, row, col]
  | threeDim n0 n1 n2 strategy _ _ _ n2Tree n1Tree n0Tree => rw [PlanNode.narrowed, n2Tree, n1Tree, n0Tree]

theorem builtReadBack {node : PlanNode} (built : Built node) : planNodeFromJson builder (planNodeToJson node) = .ok node := by
  rw [jsonNarrows, builtNarrow built]

theorem planJsonRoundTrip (builder : Builder) {node : PlanNode} (built : Built node) :
    ∃ decoded, planNodeFromJson builder (planNodeToJson node) = .ok decoded ∧ decoded = node ∧
      PlanKey.fromNode decoded = PlanKey.fromNode node :=
  ⟨node, builtReadBack built, rfl, rfl⟩

theorem planJsonRoundTripPlane : ∃ decoded, planNodeFromJson ⟨fun _ _ => 1, fun _ => 1⟩
      (planNodeToJson (.twoDim 97 4 .rtrt (.leaf 4 [4] 1 1 1 [] 0) (.bluestein 97 256 (.stockham 256 [16, 16])))) =
        .ok decoded ∧ decoded = .twoDim 97 4 .rtrt (.leaf 4 [4] 1 1 1 [] 0) (.bluestein 97 256 (.stockham 256 [16, 16])) ∧
      PlanKey.fromNode decoded =
        PlanKey.fromNode (.twoDim 97 4 .rtrt (.leaf 4 [4] 1 1 1 [] 0) (.bluestein 97 256 (.stockham 256 [16, 16]))) :=
  planJsonRoundTrip _ (.twoDim 97 4 .rtrt (.leaf 4 [4] 1 1 [] 0) (.bluestein 97 256 (.stockham 256 [16, 16])))

end RoundTrip

end FlagFft.Plan
