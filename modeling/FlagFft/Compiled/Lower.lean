import FlagFft.Codegen.SingleSmem
import FlagFft.Compiled.Tree
import FlagFft.Plan.Tuned
import FlagFft.Plan.WellPlanned

/-! What compile_raw_node makes of a plan node: leaves with the lanes of their kernels, nodes of arbitrary length in one
of their forms. Every plan the planner answers with is lowered to a sound tree of its own length. -/
namespace FlagFft.Compiled
open Codegen (LeafPlanNode LeafIoMode PlannerLeaf leafStages emittedLeafFactors fixedStageLanes leafSingleSmemBufferEligible)
open Library.MixedRadix Library.Generators Plan

/- The policy flag the compiler has set for the request, and what the generator picks for its kernels. -/
structure Choices where
  getenv : String → Option String
  maca1dSinglePolicy : Bool
  profile : Codegen.BackendProfile
  batchPack : LeafIoMode → LeafPlanNode → ℕ
  laneFloor : LeafIoMode → LeafPlanNode → ℕ
  fourStepPack : LeafIoMode → LeafPlanNode → ℕ
  butterflyBlock : (length radix : ℕ) → ℕ
  reduction : ℕ → Direct.Reduction
  batchPackPositive : ∀ mode leaf, 0 < batchPack mode leaf
  fourStepPackPositive : ∀ mode leaf, 0 < fourStepPack mode leaf
  butterflyBlockPositive : ∀ length radix, 0 < butterflyBlock length radix

section Leaves

def readLeaf : PlanNode → Option LeafPlanNode
  | .leaf length factors _ lanes _ genericRadices _ =>
    if ok : (factors.map Int.toNat).prod = length.toNat ∧ 0 < length.toNat ∧ 0 < lanes.toNat then
      some ⟨length.toNat, factors.map Int.toNat, lanes.toNat, genericRadices.map Int.toNat, ok.1, ok.2.1, ok.2.2⟩
    else none
  | _ => none

/- What the program of a leaf relies on. -/
structure Staged (factors stageLanes : List ℕ) (batchPack : ℕ) (singleSmemBuffer : Bool) : Prop where
  nonempty : 0 < factors.length
  positive : 0 < factors.prod
  lanesLength : stageLanes.length = factors.length
  lanesFit : ∀ stage < factors.length, Leaf.LanesFit factors stage (stageLanes.getD stage 1)
  packPositive : 0 < batchPack
  singleSafe : ∀ stage < factors.length - 1, singleSmemBuffer = true →
    Leaf.groupCount factors stage (stageLanes.getD stage 1) = 1

instance (factors stageLanes : List ℕ) (batchPack : ℕ) (singleSmemBuffer : Bool) :
    Decidable (Staged factors stageLanes batchPack singleSmemBuffer) :=
  decidable_of_iff (0 < factors.length ∧ 0 < factors.prod ∧ stageLanes.length = factors.length ∧
      (∀ stage < factors.length, Leaf.LanesFit factors stage (stageLanes.getD stage 1)) ∧ 0 < batchPack ∧
      ∀ stage < factors.length - 1, singleSmemBuffer = true → Leaf.groupCount factors stage (stageLanes.getD stage 1) = 1)
    ⟨fun ok => ⟨ok.1, ok.2.1, ok.2.2.1, ok.2.2.2.1, ok.2.2.2.2.1, ok.2.2.2.2.2⟩,
      fun ok => ⟨ok.nonempty, ok.positive, ok.lanesLength, ok.lanesFit, ok.packPositive, ok.singleSafe⟩⟩

def stagedLeaf (factors stageLanes : List ℕ) (batchPack laneFloor : ℕ) (singleSmemBuffer : Bool) : Option Leaf.LeafPlan :=
  if ok : Staged factors stageLanes batchPack singleSmemBuffer then
    some ⟨factors, stageLanes, batchPack, laneFloor, singleSmemBuffer, ok.nonempty, ok.positive, ok.lanesLength, ok.lanesFit,
      ok.packPositive, fun single stage inside => ok.singleSafe stage (Nat.lt_sub_of_add_lt inside) single⟩
  else none

def stageLanes (leaf : LeafPlanNode) (portable : Bool) (dtype : String) (mode : LeafIoMode) : List ℕ :=
  (emittedLeafFactors portable leaf dtype mode).map fun radix =>
    if portable then leaf.length / radix else fixedStageLanes leaf dtype radix

/- Elsewhere the generator decides it by its environment. -/
def portableLeaf (request : FftRequest) : Option Bool :=
  if request.deviceType = "maca" then some true
  else if request.deviceType ∈ ["cuda", "musa", "hcu", "ppu"] then some false
  else none

def lowerLeaf (choices : Choices) (request : FftRequest) (mode : LeafIoMode) (leaf : LeafPlanNode) : Option Leaf.LeafPlan := do
  let portable ← portableLeaf request
  let dtype := request.inputDtype
  let single ← (leafSingleSmemBufferEligible choices.profile leaf dtype mode portable (choices.batchPack mode leaf)).toOption
  stagedLeaf (emittedLeafFactors portable leaf dtype mode) (stageLanes leaf portable dtype mode) (choices.batchPack mode leaf)
    (choices.laneFloor mode leaf) single

end Leaves

section Bluestein

inductive BluesteinKernels where
  | boundaryLeaf
  | fullLeaf
  | fourStep
  | generic
  deriving DecidableEq, Repr

def macaFlagOrDefault (getenv : String → Option String) (name : String) (default : Bool) : Bool :=
  match getenv name with
  | none => default
  | some value => value == "1"

/- The two leaves of a split. -/
def splitLeaves : PlanNode → Option (LeafPlanNode × LeafPlanNode)
  | .fourStep _ _ _ rowPlan colPlan => do
    let row ← readLeaf rowPlan
    let col ← readLeaf colPlan
    some (row, col)
  | _ => none

section Uses
variable (choices : Choices) (request : FftRequest) (length : ℕ) (batch chunk : ℕ)

def cube997 : Bool := request.originRank == 3 && length == 997 && decide (batch ≤ 4096)

def useMacaBoundaryLeaf : Bool :=
  request.deviceType == "maca" &&
    ((batch == 1 && macaFlagOrDefault choices.getenv "FLAGFFT_MACA_BLUESTEIN_LEAF_FUSION" choices.maca1dSinglePolicy) ||
      (cube997 request length batch && macaFlagOrDefault choices.getenv "FLAGFFT_MACA_3D_PRIME_BOUNDARY" true))

def useIx3dBoundaryLeaf : Bool :=
  request.deviceType == "ix" && request.deviceArch == "71" && request.originRank == 3 && request.inputDtype == "complex64" &&
    length == 997 && choices.getenv "FLAGFFT_IX_3D_BLUESTEIN_BOUNDARY" == some "1"

def useFullLeaf : Bool :=
  let double := request.inputDtype == "complex128"
  let musa := request.deviceType == "musa" && request.deviceArch == "31" && double
  request.deviceType != "maca" &&
    (request.inputDtype == "complex64" ||
      (request.deviceType == "cuda" && request.deviceArch == "sm_80" && double && batch == 1) || (musa && batch == 1) ||
      (musa && cube997 request length batch) ||
      (request.deviceType == "hcu" && double && cube997 request length batch &&
        choices.getenv "FLAGFFT_HCU_3D_BLUESTEIN_FULL_LEAF" != some "0"))

def useMacaFourStep (row col : LeafPlanNode) : Bool :=
  request.deviceType == "maca" && batch == 1 && decide (row.length ≤ 1024) && decide (col.length ≤ 1024) &&
    macaFlagOrDefault choices.getenv "FLAGFFT_MACA_BLUESTEIN_FOUR_STEP_FUSION" choices.maca1dSinglePolicy

def useDefaultFourStep (row col : LeafPlanNode) : Bool :=
  request.deviceType != "maca" &&
    (request.inputDtype == "complex64" || (request.deviceType == "musa" && request.deviceArch == "31" &&
      request.inputDtype == "complex128" && decide (16 ≤ batch) && batch == chunk)) &&
    decide (row.length < 512) && decide (col.length < 512)

def bluesteinKernels (fftPlan : PlanNode) : BluesteinKernels :=
  if (readLeaf fftPlan).isSome &&
      (useMacaBoundaryLeaf choices request length batch || useIx3dBoundaryLeaf choices request length) then .boundaryLeaf
  else if (readLeaf fftPlan).isSome && useFullLeaf choices request length batch then .fullLeaf
  else match splitLeaves fftPlan with
    | some (row, col) =>
      if useDefaultFourStep request batch chunk row col || useMacaFourStep choices request batch row col then .fourStep
      else .generic
    | none => .generic

end Uses

/- make_boundary_leaf -/
def boundaryFactors (useMacaFourStep : Bool) (factors : List ℕ) : List ℕ :=
  match factors with
  | [front, back] => if !useMacaFourStep && decide (front > back) then [back, front] else factors
  | _ => factors

theorem boundaryFactorsPerm (useMacaFourStep : Bool) (factors : List ℕ) :
    (boundaryFactors useMacaFourStep factors).Perm factors := by
  unfold boundaryFactors
  split
  · split_ifs
    · exact List.Perm.swap _ _ _
    · exact List.Perm.refl _
  · exact List.Perm.refl _

def boundaryLeaf (useMacaFourStep : Bool) (source : LeafPlanNode) : LeafPlanNode :=
  { source with
    factors := boundaryFactors useMacaFourStep source.factors
    product := (boundaryFactorsPerm useMacaFourStep source.factors).prod_eq.trans source.product }

def lowerBluestein (choices : Choices) (request : FftRequest) (length batch chunk : ℕ) (fftPlan : PlanNode) :
    Option BluesteinForm :=
  match bluesteinKernels choices request length batch chunk fftPlan with
  | .generic => some .generic
  | .boundaryLeaf => do
    let leaf ← readLeaf fftPlan
    let plan ← lowerLeaf choices request .bluesteinPrepareLeaf leaf
    some (.leaf plan (choices.batchPack .bluesteinPrepareLeaf leaf) (choices.batchPack .bluesteinFinishLeaf leaf))
  | .fourStep => do
    let (row, col) ← splitLeaves fftPlan
    let boundary := boundaryLeaf (useMacaFourStep choices request batch row col)
    let rowLeaf ← lowerLeaf choices request .bluesteinFourStepPrepareRow (boundary row)
    let colLeaf ← lowerLeaf choices request .bluesteinFourStepFinishCol (boundary col)
    some (.fourStep rowLeaf colLeaf (choices.fourStepPack .bluesteinFourStepPrepareRow (boundary row))
      (choices.fourStepPack .bluesteinFourStepFinishCol (boundary col)))
  | .fullLeaf => none

end Bluestein

section Nodes
variable (choices : Choices) (request : FftRequest) (chunkBatch : (convLength batch : ℕ) → ℕ)

/- Leaves of a split are compiled for its kernels, all others for contiguous rows. -/
def childModes (rowPlan colPlan : PlanNode) : LeafIoMode × LeafIoMode :=
  if (readLeaf rowPlan).isSome && (readLeaf colPlan).isSome then (.fourStepRow, .fourStepCol) else (.contiguous, .contiguous)

/- The packs of the two kernels; the children's own kernels have none. -/
def childPacks (rowPlan colPlan : PlanNode) : ℕ × ℕ :=
  match readLeaf rowPlan, readLeaf colPlan with
  | some row, some col => (choices.fourStepPack .fourStepRow row, choices.fourStepPack .fourStepCol col)
  | _, _ => (1, 1)

def lower : PlanNode → LeafIoMode → ℕ → Option RawPlan
  | .leaf length factors remainder lanes numWarps genericRadices smemSize, mode, _ => do
    let leaf ← readLeaf (.leaf length factors remainder lanes numWarps genericRadices smemSize)
    let plan ← lowerLeaf choices request mode leaf
    some (.leaf plan)
  | .directDft length, _, _ => some (.directDft length.toNat (.directDft (choices.reduction length.toNat)))
  | .stockham length factors, _, _ =>
    some (.stockham (factors.map Int.toNat) (factors.map fun radix => choices.butterflyBlock length.toNat radix.toNat))
  | .fourStep _ n1 n2 rowPlan colPlan, _, batch => do
    let row ← lower rowPlan (childModes rowPlan colPlan).1 (batch * n2.toNat)
    let col ← lower colPlan (childModes rowPlan colPlan).2 (batch * n1.toNat)
    some (.fourStep row col (childPacks choices rowPlan colPlan).1 (childPacks choices rowPlan colPlan).2)
  | .bluestein length convLength fftPlan, _, batch => do
    let chunk := chunkBatch convLength.toNat batch
    let fft ← lower fftPlan .contiguous chunk
    let form ← lowerBluestein choices request length.toNat batch chunk fftPlan
    some (.bluestein length.toNat form fft)
  | .rader prime root idx convPlan, _, batch => do
    let conv ← lower convPlan .contiguous batch
    some (.rader prime.toNat root.toNat (idx.map Int.toNat) conv)
  | .twoDim .., _, _ => none
  | .threeDim .., _, _ => none

/- Short enough for the phases of the chirp to be those of the squares, and without the kernel that holds both
transforms of a convolution. -/
def Admitted : PlanNode → ℕ → Prop
  | .fourStep _ n1 n2 rowPlan colPlan, batch => Admitted rowPlan (batch * n2.toNat) ∧ Admitted colPlan (batch * n1.toNat)
  | .bluestein length convLength fftPlan, batch =>
    length ≤ 94906267 ∧ bluesteinKernels choices request length.toNat batch (chunkBatch convLength.toNat batch) fftPlan ≠ .fullLeaf ∧
      Admitted fftPlan (chunkBatch convLength.toNat batch)
  | .rader _ _ _ convPlan, batch => Admitted convPlan batch
  | _, _ => True

end Nodes

section Lowered
variable {choices : Choices} {request : FftRequest} {chunkBatch : (convLength batch : ℕ) → ℕ} {leaf : LeafPlanNode} {n : ℕ}
  {node : PlanNode}

theorem readLeafNode (leaf : LeafPlanNode) (numWarps : ℕ) : readLeaf (leafNode leaf numWarps) = some leaf := by
  have same : ∀ naturals : List ℕ, (naturals.map fun radix : ℕ => (radix : ℤ)).map Int.toNat = naturals := by
    intro naturals
    rw [List.map_map]
    exact List.map_id naturals
  unfold readLeaf leafNode
  simp only [same, Int.toNat_natCast]
  rw [dif_pos ⟨leaf.product, leaf.positive, leaf.lanesPositive⟩]

/- Only a leaf is read as one. -/
theorem plannedLeaf (planned : WellPlanned n node) (found : readLeaf node = some leaf) :
    PlannerLeaf leaf ∧ leaf.length = n ∧ ∃ numWarps : ℕ, node = leafNode leaf numWarps := by
  cases planned with
  | leaf own maker _ numWarps _ =>
    rw [readLeafNode] at found
    cases found
    exact ⟨maker, rfl, numWarps, rfl⟩
  | directDft | stockham | fourStep | bluestein | rader => cases found

section Leaf
variable {portable : Bool} {dtype : String} {mode : LeafIoMode}

theorem stageLanesEach (planned : PlannerLeaf leaf) {stage : ℕ} (inside : stage < (emittedLeafFactors portable leaf dtype mode).length) :
    (stageLanes leaf portable dtype mode).getD stage 1 = (leafStages planned portable dtype mode).lanes stage := by
  have here : stage < (stageLanes leaf portable dtype mode).length := by rwa [stageLanes, List.length_map]
  rw [List.getD_eq_getElem _ _ here]
  simp only [stageLanes, List.getElem_map, leafStages, radixAtEq inside]

theorem eligibleDecides (profile : Codegen.BackendProfile) (batchPack : ℕ) :
    ∃ single, leafSingleSmemBufferEligible profile leaf dtype mode portable batchPack = .ok single := by
  have lanes : ∃ stageLanes, Codegen.cooperativeStageLanesFor portable leaf dtype = .ok stageLanes := by
    cases portable with
    | true => exact ⟨_, rfl⟩
    | false => exact ⟨_, Codegen.laneRulesAgree leaf dtype⟩
  obtain ⟨stageLanes, same⟩ := lanes
  unfold leafSingleSmemBufferEligible
  rw [same]
  cases profile.maxDynamicSharedMemory with
  | none => exact ⟨_, rfl⟩
  | some shared =>
    dsimp only [bind, Except.bind]
    split_ifs <;> exact ⟨_, rfl⟩

/- One group at every stage before the last, where one buffer is used. -/
theorem singleGroups (planned : PlannerLeaf leaf) {profile : Codegen.BackendProfile} {batchPack : ℕ}
    (eligible : leafSingleSmemBufferEligible profile leaf dtype mode portable batchPack = .ok true) {stage : ℕ}
    (inside : stage + 1 < (leafStages planned portable dtype mode).stages) :
    (leafStages planned portable dtype mode).groups stage = 1 := by
  let asked : Codegen.FftRequest := ⟨"", "", 0, 0, 0, 0, 0, dtype, dtype, [], false⟩
  let compile : Codegen.LeafCompile := ⟨.cuda, fun _ => none, asked, asked, mode, 0, 0⟩
  exact @Codegen.eligibleGroups profile compile leaf portable batchPack planned eligible stage inside

theorem leafStaged (planned : PlannerLeaf leaf) {profile : Codegen.BackendProfile} {batchPack : ℕ} {single : Bool}
    (positive : 0 < batchPack)
    (eligible : leafSingleSmemBufferEligible profile leaf dtype mode portable batchPack = .ok single) :
    Staged (emittedLeafFactors portable leaf dtype mode) (stageLanes leaf portable dtype mode) batchPack single where
  nonempty := (leafStages planned portable dtype mode).nonempty
  positive := (leafStages planned portable dtype mode).positive
  lanesLength := List.length_map _
  lanesFit stage inside := by
    rw [stageLanesEach planned inside]
    exact (leafStages planned portable dtype mode).lanesFit stage inside
  packPositive := positive
  singleSafe stage inside used := by
    subst used
    rw [stageLanesEach planned (inside.trans_le (Nat.sub_le _ _))]
    exact singleGroups planned eligible (Nat.add_lt_of_lt_sub inside)

theorem lowerLeafPlanned (planned : PlannerLeaf leaf) (device : (portableLeaf request).isSome) (mode : LeafIoMode) :
    ∃ plan, lowerLeaf choices request mode leaf = some plan ∧ plan.length = leaf.length := by
  obtain ⟨portable, decided⟩ := Option.isSome_iff_exists.mp device
  obtain ⟨single, eligible⟩ := @eligibleDecides leaf portable request.inputDtype mode choices.profile (choices.batchPack mode leaf)
  have staged := leafStaged planned (choices.batchPackPositive mode leaf) eligible
  unfold lowerLeaf
  simp only [decided, Option.bind_eq_bind, Option.bind_some, eligible, Except.toOption, stagedLeaf, dif_pos staged]
  exact ⟨_, rfl, Codegen.emittedProduct portable leaf request.inputDtype mode⟩

end Leaf

theorem boundaryFactorsThreadLocal {radix : ℕ} (useMacaFourStep : Bool) (member : radix ∈ Codegen.threadLocalMixedRadices) :
    boundaryFactors useMacaFourStep [radix, 32] = [radix, 32] := by
  have small : ∀ r ∈ Codegen.threadLocalMixedRadices, r ≤ 32 := by decide
  have ordered := small radix member
  rw [boundaryFactors, if_neg]
  simp [ordered]

theorem chooseLanesBoundary (wide useMacaFourStep : Bool) (n : ℕ) (factors : List ℕ) :
    Codegen.chooseLanes wide n (boundaryFactors useMacaFourStep factors) = Codegen.chooseLanes wide n factors := by
  unfold boundaryFactors
  split
  next front back =>
    split_ifs
    · simp only [Codegen.chooseLanes, List.tail_cons, List.foldl_cons, List.foldl_nil, List.headD_cons,
        Nat.gcd_comm (n / back)]
    · rfl
  next => rfl

/- Its lanes divide the codelets of its stages still. -/
theorem boundaryPlanned (planned : PlannerLeaf leaf) (useMacaFourStep : Bool) :
    PlannerLeaf (boundaryLeaf useMacaFourStep leaf) := by
  have perm := boundaryFactorsPerm useMacaFourStep leaf.factors
  cases planned with
  | made nonempty wide ixWide4096 lanes =>
    refine .made (fun empty => nonempty ?_) (fun radix member => wide radix (perm.mem_iff.mp member)) ixWide4096 ?_
    · have none_ : boundaryFactors useMacaFourStep leaf.factors = [] := empty
      exact List.perm_nil.mp (none_ ▸ perm.symm)
    · exact lanes.trans (chooseLanesBoundary ixWide4096 useMacaFourStep leaf.length leaf.factors).symm
  | threadLocal radix member factors lanes =>
    refine .threadLocal radix member ?_ lanes
    change boundaryFactors useMacaFourStep leaf.factors = _
    rw [factors]
    exact boundaryFactorsThreadLocal useMacaFourStep member

theorem lowerPlannedLeaf (device : (portableLeaf request).isSome) (planned : WellPlanned n node) (found : readLeaf node = some leaf)
    (mode : LeafIoMode) (batch : ℕ) : ∃ plan, lower choices request chunkBatch node mode batch = some (.leaf plan) ∧ plan.length = n := by
  obtain ⟨maker, rfl, numWarps, rfl⟩ := plannedLeaf planned found
  obtain ⟨plan, made, length⟩ := @lowerLeafPlanned choices request leaf maker device mode
  refine ⟨plan, ?_, length⟩
  have read := readLeafNode leaf numWarps
  unfold leafNode at read ⊢
  rw [lower, read, Option.bind_eq_bind, Option.bind_some, made]
  rfl

/- A split is lowered to two leaves. -/
theorem lowerPlannedSplit (device : (portableLeaf request).isSome) (planned : WellPlanned n node) {row col : LeafPlanNode}
    (found : splitLeaves node = some (row, col)) (mode : LeafIoMode) (batch : ℕ) :
    PlannerLeaf row ∧ PlannerLeaf col ∧ ∃ rowPlan colPlan rowPack colPack,
      lower choices request chunkBatch node mode batch = some (.fourStep (.leaf rowPlan) (.leaf colPlan) rowPack colPack) ∧
        rowPlan.length = row.length ∧ colPlan.length = col.length := by
  cases planned with
  | @fourStep _ n1 n2 rowNode colNode product several several' rows cols =>
    simp only [splitLeaves, Option.bind_eq_bind, Option.bind_eq_some_iff, Option.some.injEq, Prod.mk.injEq] at found
    obtain ⟨row', rowFound, col', colFound, rfl, rfl⟩ := found
    obtain ⟨rowMaker, rowLength, _⟩ := plannedLeaf rows rowFound
    obtain ⟨colMaker, colLength, _⟩ := plannedLeaf cols colFound
    obtain ⟨rowPlan, rowLowered, rowSame⟩ := @lowerPlannedLeaf choices request chunkBatch _ _ _ device rows rowFound
      (childModes rowNode colNode).1 (batch * (n2 : ℤ).toNat)
    obtain ⟨colPlan, colLowered, colSame⟩ := @lowerPlannedLeaf choices request chunkBatch _ _ _ device cols colFound
      (childModes rowNode colNode).2 (batch * (n1 : ℤ).toNat)
    refine ⟨rowMaker, colMaker, rowPlan, colPlan, (childPacks choices rowNode colNode).1, (childPacks choices rowNode colNode).2,
      ?_, rowSame.trans rowLength.symm, colSame.trans colLength.symm⟩
    simp only [lower, rowLowered, colLowered, Option.bind_eq_bind, Option.bind_some]
  | leaf | directDft | stockham | bluestein | rader => cases found

theorem childPacksPositive (rowPlan colPlan : PlanNode) :
    0 < (childPacks choices rowPlan colPlan).1 ∧ 0 < (childPacks choices rowPlan colPlan).2 := by
  unfold childPacks
  split
  · exact ⟨choices.fourStepPackPositive _ _, choices.fourStepPackPositive _ _⟩
  · exact ⟨one_pos, one_pos⟩

/- The form that is chosen fits what the convolution is lowered to. -/
theorem lowerBluesteinPlanned (device : (portableLeaf request).isSome) (planned : WellPlanned n node) (length batch chunk : ℕ)
    (admitted : bluesteinKernels choices request length batch chunk node ≠ .fullLeaf) {fft : RawPlan}
    (lowered : lower choices request chunkBatch node .contiguous chunk = some fft) :
    ∃ form, lowerBluestein choices request length batch chunk node = some form ∧ form.Fits fft := by
  unfold lowerBluestein
  split
  next => exact ⟨.generic, rfl, trivial⟩
  next chosen =>
    have isLeaf : (readLeaf node).isSome := by
      unfold bluesteinKernels at chosen
      split_ifs at chosen with here
      · exact (Bool.and_eq_true_iff.mp here).1
      · split at chosen
        · split_ifs at chosen
        · cases chosen
    obtain ⟨leaf, found⟩ := Option.isSome_iff_exists.mp isLeaf
    obtain ⟨maker, same, _⟩ := plannedLeaf planned found
    obtain ⟨below, run, belowLength⟩ := @lowerPlannedLeaf choices request chunkBatch _ _ _ device planned found .contiguous chunk
    obtain ⟨plan, made, planLength⟩ := @lowerLeafPlanned choices request leaf maker device .bluesteinPrepareLeaf
    obtain rfl : fft = .leaf below := Option.some.inj (lowered.symm.trans run)
    refine ⟨.leaf plan (choices.batchPack .bluesteinPrepareLeaf leaf) (choices.batchPack .bluesteinFinishLeaf leaf), ?_,
      (planLength.trans same).trans belowLength.symm, choices.batchPackPositive _ _, choices.batchPackPositive _ _⟩
    rw [found, Option.bind_eq_bind, Option.bind_some, made]
    rfl
  next chosen =>
    have isSplit : ∃ row col, splitLeaves node = some (row, col) := by
      unfold bluesteinKernels at chosen
      split_ifs at chosen
      split at chosen
      next row col found => exact ⟨row, col, found⟩
      next => cases chosen
    obtain ⟨row, col, found⟩ := isSplit
    obtain ⟨rowMaker, colMaker, rowBelow, colBelow, rowPack, colPack, run, rowLength, colLength⟩ :=
      @lowerPlannedSplit choices request chunkBatch _ _ device planned _ _ found .contiguous chunk
    obtain rfl := Option.some.inj (lowered.symm.trans run)
    let four := useMacaFourStep choices request batch row col
    obtain ⟨rowPlan, rowMade, rowSame⟩ :=
      @lowerLeafPlanned choices request _ (boundaryPlanned rowMaker four) device .bluesteinFourStepPrepareRow
    obtain ⟨colPlan, colMade, colSame⟩ :=
      @lowerLeafPlanned choices request _ (boundaryPlanned colMaker four) device .bluesteinFourStepFinishCol
    refine ⟨.fourStep rowPlan colPlan (choices.fourStepPack .bluesteinFourStepPrepareRow (boundaryLeaf four row))
      (choices.fourStepPack .bluesteinFourStepFinishCol (boundaryLeaf four col)), ?_, rowSame.trans rowLength.symm,
      colSame.trans colLength.symm, choices.fourStepPackPositive _ _, choices.fourStepPackPositive _ _⟩
    simp only [found, Option.bind_eq_bind, Option.bind_some, four, rowMade, colMade]
  next chosen => exact absurd chosen admitted

theorem castNaturals (naturals : List ℕ) : (naturals.map fun i : ℕ => (i : ℤ)).map Int.toNat = naturals := by
  rw [List.map_map]
  exact List.map_id naturals

/- Every plan of the planner. -/
theorem lowerPlanned (device : (portableLeaf request).isSome) (planned : WellPlanned n node) (mode : LeafIoMode) (batch : ℕ)
    (admitted : Admitted choices request chunkBatch node batch) :
    ∃ raw, lower choices request chunkBatch node mode batch = some raw ∧ raw.Sound ∧ raw.length = n := by
  induction planned generalizing mode batch with
  | leaf leaf maker matrices numWarps warps =>
    obtain ⟨plan, run, length⟩ := @lowerPlannedLeaf choices request chunkBatch _ _ _ device
      (.leaf leaf maker matrices numWarps warps) (readLeafNode leaf numWarps) mode batch
    exact ⟨.leaf plan, run, trivial, length⟩
  | directDft positive short =>
    exact ⟨_, rfl, ⟨by rwa [Int.toNat_natCast], trivial⟩, Int.toNat_natCast _⟩
  | @stockham n factors radices =>
    have product : ((factors.map fun radix : ℕ => (radix : ℤ)).map Int.toNat).prod = n := by
      rw [castNaturals, radices.product]
    refine ⟨_, rfl, ⟨product.symm ▸ Nat.zero_lt_of_lt radices.several, fun block member => ?_⟩, product⟩
    obtain ⟨radix, _, rfl⟩ := List.mem_map.mp member
    exact choices.butterflyBlockPositive _ _
  | @fourStep n n1 n2 row col product several several' rows cols rowIh colIh =>
    obtain ⟨rowRaw, rowRun, rowSound, rowLength⟩ := rowIh (childModes row col).1 _ admitted.1
    obtain ⟨colRaw, colRun, colSound, colLength⟩ := colIh (childModes row col).2 _ admitted.2
    have packs := @childPacksPositive choices row col
    refine ⟨.fourStep rowRaw colRaw _ _, by rw [lower, rowRun, Option.bind_eq_bind, Option.bind_some, colRun]; rfl,
      ⟨packs.1, packs.2, rowSound, colSound⟩, ?_⟩
    rw [RawPlan.length, rowLength, colLength, product]
  | @bluestein n convLength fft positive long most convolution ih =>
    obtain ⟨short, kernels, below⟩ := admitted
    obtain ⟨raw, run, sound, length⟩ := ih .contiguous _ below
    obtain ⟨form, formRun, fits⟩ := lowerBluesteinPlanned device convolution _ batch _ kernels run
    refine ⟨.bluestein n form raw, by rw [lower, run, Option.bind_eq_bind, Option.bind_some, formRun]; rfl, ?_, rfl⟩
    exact ⟨positive, by omega, length ▸ long, fits, sound⟩
  | @rader p root conv prime positive less order convolution ih =>
    obtain ⟨raw, run, sound, length⟩ := ih .contiguous batch admitted
    refine ⟨.rader p root (powerTable p root) raw, ?_, ⟨prime, positive, less, order, rfl, length, sound⟩, rfl⟩
    rw [lower, run, castNaturals]
    rfl

end Lowered

end FlagFft.Compiled
