import FlagFft.Codegen.SingleSmem
import FlagFft.Library.Fuel
import FlagFft.Plan.Candidates
import FlagFft.Plan.Convolution
import FlagFft.Plan.Json
import Mathlib.Data.List.Lex

/-! The factors of a leaf: measured choices of single backends first, then what a builder remembers, then the best score.
Floating-point costs are exact numbers. -/
namespace FlagFft.Plan
open Library.Fuel
open Codegen (chooseLanes cooperativeStageLanes)

/- PlanBuilder::RequestContext, without the device index. -/
structure RequestContext where
  inputDtype : String
  outputDtype : String
  realTransformKind : String
  originRealTransformKind : String
  deviceType : String
  deviceArch : String
  originRank : ℤ
  requestedN : ℤ
  batch : ℤ
  maca3dC2c32SingleCube : Bool
  ixShortSingle : Bool
  ixCtBatch : Bool
  maxDynamicSmemBytes : ℤ
  deriving DecidableEq

/- std::getenv, std::stoll with the number of characters it reads, and std::log. -/
structure Host where
  getenv : String → Option String
  stoll : String → Option (ℤ × ℕ)
  log : ℕ → ℚ

/- What a builder remembers, and the switch it sets around a search. -/
structure Caches where
  node : ℕ → Option PlanNode
  cost : ℕ → Option ℚ
  bestLeafFactors : ℕ → Option (List ℕ)
  parallelLeafHeuristic : Bool

abbrev Build (α : Type) : Type := Program String Caches α

def kLeafMaxN : ℕ := 4096

def kDirectDftMaxN : ℕ := 128

section Overrides
variable (host : Host) (context : RequestContext) (n : ℕ)

/- The factors one rule of select_leaf_factors asks for, or the exception it throws. -/
abbrev LeafRule := Option (Except String (List ℕ))

def RequestContext.complexFloat : Prop := context.inputDtype = "complex64" ∧ context.outputDtype = "complex64"

def RequestContext.isDouble : Prop := context.inputDtype = "complex128" ∨ context.inputDtype = "float64"

def RequestContext.ix71 : Prop := context.deviceType = "ix" ∧ context.deviceArch = "71"

def RequestContext.realKind : Prop := context.realTransformKind = "r2c" ∨ context.realTransformKind = "c2r"

instance : Decidable context.complexFloat := inferInstanceAs (Decidable (_ ∧ _))
instance : Decidable context.isDouble := inferInstanceAs (Decidable (_ ∨ _))
instance : Decidable context.ix71 := inferInstanceAs (Decidable (_ ∧ _))
instance : Decidable context.realKind := inferInstanceAs (Decidable (_ ∨ _))

def hcu256 : LeafRule :=
  if context.deviceType = "hcu" ∧ context.originRank = 3 ∧ n = 256 then
    match host.getenv "FLAGFFT_HCU_3D_256_FACTORS" with
    | none => none
    | some choice =>
      if choice = "auto" ∨ choice = "16,16" then some (.ok [16, 16])
      else if choice = "8,8,4" then some (.ok [8, 8, 4])
      else if choice = "4,8,8" then some (.ok [4, 8, 8])
      else if choice = "8,4,8" then some (.ok [8, 4, 8])
      else if choice = "4,16,4" then some (.ok [4, 16, 4])
      else if choice = "4,4,4,4" then some (.ok [4, 4, 4, 4])
      else some (.error
        "FLAGFFT_HCU_3D_256_FACTORS must be auto, 16,16, 8,8,4, 4,8,8, 8,4,8, 4,16,4 or 4,4,4,4")
  else none

def hcu128 : LeafRule :=
  if context.deviceType = "hcu" ∧ context.originRank = 3 ∧ n = 128 then
    match host.getenv "FLAGFFT_HCU_3D_128_FACTORS" with
    | none => none
    | some choice =>
      if choice = "4,4,8" then some (.ok [4, 4, 8])
      else if choice = "4,8,4" then some (.ok [4, 8, 4])
      else if choice = "8,8,2" then some (.ok [8, 8, 2])
      else if choice = "16,8" then some (.ok [16, 8])
      else if choice = "8,16" then some (.ok [8, 16])
      else if choice ≠ "auto" then
        some (.error "FLAGFFT_HCU_3D_128_FACTORS must be auto, 4,4,8, 4,8,4, 8,8,2, 16,8 or 8,16")
      else none
  else none

/- Neither auto nor one of the three orders. -/
def unknown2048 (override : Option String) : Prop :=
  override ≠ none ∧ override ≠ some "auto" ∧ override ≠ some "16,16,8" ∧ override ≠ some "8,16,16" ∧ override ≠ some "16,8,16"

instance (override : Option String) : Decidable (unknown2048 override) := inferInstanceAs (Decidable (_ ∧ _ ∧ _ ∧ _ ∧ _))

def hcu2048 : LeafRule :=
  if context.deviceType = "hcu" ∧ context.originRank = 3 ∧ n = 2048 then
    let direct := context.inputDtype = "complex128" ∧ context.requestedN = n
    let c2rFp64 := (context.originRealTransformKind = "c2r" ∨ context.originRealTransformKind = "z2d") ∧ direct
    let r2cFp64 := (context.originRealTransformKind = "r2c" ∨ context.originRealTransformKind = "d2z") ∧ direct
    let c2rOverride := if c2rFp64 then host.getenv "FLAGFFT_HCU_3D_C2R_FP64_2048_FACTORS" else none
    let r2cOverride := if r2cFp64 then host.getenv "FLAGFFT_HCU_3D_R2C_FP64_2048_FACTORS" else none
    let override := (r2cOverride.or c2rOverride).or (host.getenv "FLAGFFT_HCU_3D_2048_FACTORS")
    if unknown2048 c2rOverride then
      some (.error "FLAGFFT_HCU_3D_C2R_FP64_2048_FACTORS must be auto, 16,16,8, 8,16,16 or 16,8,16")
    else if unknown2048 r2cOverride then
      some (.error "FLAGFFT_HCU_3D_R2C_FP64_2048_FACTORS must be auto, 16,16,8, 8,16,16 or 16,8,16")
    else
      let choice := override.getD (if c2rFp64 ∨ r2cFp64 then "8,16,16" else "auto")
      if choice = "8,16,16" then some (.ok [8, 16, 16])
      else if choice = "16,8,16" then some (.ok [16, 8, 16])
      else if choice = "auto" ∧ context.realKind then some (.ok [8, 16, 16])
      else if choice ≠ "auto" ∧ choice ≠ "16,16,8" then
        some (.error "FLAGFFT_HCU_3D_2048_FACTORS must be auto, 16,16,8, 8,16,16 or 16,8,16")
      else none
  else none

def macaCube32 : LeafRule :=
  if context.maca3dC2c32SingleCube = true ∧ n = 32 then
    let moreLanes := host.getenv "FLAGFFT_MACA_3D_C2C32_MORE_LANES"
    if moreLanes = some "0" then some (.ok [32])
    else if moreLanes ≠ none ∧ moreLanes ≠ some "1" then
      some (.error "FLAGFFT_MACA_3D_C2C32_MORE_LANES must be 0 or 1")
    else some (.ok [4, 4, 2])
  else none

/- A rule that never throws. -/
def chosen (applies : Prop) [Decidable applies] (factors : List ℕ) : LeafRule :=
  if applies then some (.ok factors) else none

/- The three-dimensional axes of IX with FP32. -/
def RequestContext.ixAxis : Prop := context.ix71 ∧ context.originRank = 3 ∧ context.inputDtype = "complex64"

instance : Decidable context.ixAxis := inferInstanceAs (Decidable (_ ∧ _ ∧ _))

def RequestContext.ixRealBatch : Prop :=
  context.ix71 ∧ context.originRank ≤ 1 ∧ context.requestedN = n ∧ context.batch = 64 ∧ context.complexFloat ∧ context.realKind

instance : Decidable (context.ixRealBatch n) := inferInstanceAs (Decidable (_ ∧ _ ∧ _ ∧ _ ∧ _ ∧ _))

def ixRules : List LeafRule :=
  let factors32 := host.getenv "FLAGFFT_IX_3D_32_FACTORS"
  let factors64 := host.getenv "FLAGFFT_IX_3D_64_FACTORS"
  let factors128 := host.getenv "FLAGFFT_IX_3D_128_FACTORS"
  let factors256 := host.getenv "FLAGFFT_IX_3D_256_FACTORS"
  let factors2048 := host.getenv "FLAGFFT_IX_3D_2048_FACTORS"
  [chosen (context.ixAxis ∧ n = 32 ∧ (factors32 = none ∨ factors32 = some "1")) [4, 8],
    chosen (context.ixAxis ∧ n = 64 ∧ factors64 = some "8x8") [8, 8],
    chosen (context.ixAxis ∧ n = 128 ∧ factors128 = some "8x16") [8, 16],
    chosen (context.ixAxis ∧ n = 128 ∧ (factors128 = none ∨ factors128 = some "16x8")) [16, 8],
    chosen (context.ixAxis ∧ n = 256 ∧ factors256 = some "8x8x4") [8, 8, 4],
    chosen (context.ixAxis ∧ n = 256 ∧ factors256 = some "4x4x4x4") [4, 4, 4, 4],
    chosen (context.ixAxis ∧ n = 2048 ∧ factors2048 = some "16x8x16") [16, 8, 16],
    chosen (context.ixRealBatch n ∧ n = 1024) [8, 4, 8, 4],
    chosen (context.ixRealBatch n ∧ n = 2048) [16, 8, 16],
    chosen (context.ixCtBatch = true ∧ context.requestedN = n ∧ n = 2048 ∧ context.realTransformKind = "") [16, 8, 16],
    chosen (context.ixShortSingle = true ∧ n = 1024) [16, 8, 8],
    chosen (context.ixCtBatch = true ∧ context.requestedN = n ∧ n = 1024) [8, 8, 4, 4]]

def hcu16 : LeafRule :=
  if context.deviceType = "hcu" ∧ (context.originRank ≤ 1 ∨ context.originRank = 3) ∧ context.requestedN = n ∧ n = 16 then
    if context.originRank = 3 then
      match host.getenv "FLAGFFT_HCU_3D_16_FACTORS" with
      | some choice =>
        if choice = "4,4" then some (.ok [4, 4])
        else if choice = "2,2,2,2" then some (.ok [2, 2, 2, 2])
        else if choice = "4,2,2" then some (.ok [4, 2, 2])
        else if choice = "2,2,4" then some (.ok [2, 2, 4])
        else if choice = "2,8" then some (.ok [2, 8])
        else if choice = "8,2" then some (.ok [8, 2])
        else if choice ≠ "16" then
          some (.error "FLAGFFT_HCU_3D_16_FACTORS must be 16, 4,4, 2,2,2,2, 4,2,2, 2,2,4, 2,8 or 8,2")
        else some (.ok [16])
      | none => if 10000 ≤ context.batch then some (.ok [4, 4]) else some (.ok [16])
    else some (.ok [16])
  else none

/- The rules in the order in which they are tried. -/
def leafRules : List LeafRule :=
  [hcu256 host context n, hcu128 host context n, hcu2048 host context n, macaCube32 host context n,
    chosen (context.deviceType = "maca" ∧ context.originRank = 3 ∧ context.deviceArch = "102" ∧ n = 2048 ∧
      context.requestedN = n) [16, 8, 16],
    chosen ((context.deviceType = "musa" ∨ context.deviceType = "hcu") ∧ context.originRank = 3 ∧ n = 32) [4, 8]] ++
    ixRules host context n ++
    [hcu16 host context n,
      chosen (context.deviceType = "hcu" ∧ context.originRank ≤ 1 ∧ context.requestedN = n ∧ n = 1024 ∧ context.batch = 64)
        [16, 8, 8]]

def leafOverride : LeafRule := (leafRules host context n).findSome? id

end Overrides

section Search
variable (context : RequestContext) (n : ℕ) (factors : List ℕ)

/- The products of radices that are n, in lexicographic order. -/
def enumerateFactorizations : (fuel : ℕ) → ℕ → List (List ℕ)
  | 0, _ => []
  | fuel + 1, n =>
    ((kSupportedRadices.flatMap fun radix =>
      if n % radix ≠ 0 then []
      else if n = radix then [[radix]]
      else (enumerateFactorizations fuel (n / radix)).map (radix :: ·)).dedup).mergeSort (· ≤ ·)

/- Every radix halves the length at least. -/
def enumerateSupportedFactorizations : List (List ℕ) := enumerateFactorizations n n

def factorizeOrRaise : Except String (List ℕ) :=
  let factorization := factorizeSupportedRadices n
  if factorization.remainder ≠ 1 then
    .error ("length " ++ toString n ++ " is not fully factorable by supported radices, remainder=" ++
      toString factorization.remainder)
  else if factorization.factors = [] then .error "at least one radix stage is required"
  else .ok factorization.factors

def ixWide4096 : Bool :=
  context.deviceType = "ix" ∧ context.batch = 1 ∧ context.complexFloat ∧ n = 4096

def lanesOf : ℕ := chooseLanes (ixWide4096 context n) n factors

def laneBlockFor (lanes : ℕ) : ℕ := if lanes ≤ 1 then 1 else ceilPowerOfTwo lanes

/- The power of two that covers the warps, two at least on MACA. -/
def chooseNumWarps (lanes : ℕ) : ℕ :=
  let isMaca := context.deviceType = "maca"
  let warps := max 1 (ceilDiv (laneBlockFor lanes) (if isMaca then 64 else 32))
  min (max (if isMaca then 2 else 1) (ceilPowerOfTwo warps)) 8

def specializedRadix (radix : ℕ) : Bool :=
  kSpecializedButterflyRadices.contains (radix : ℤ) || kSpecializedDirectCodeletRadices.contains (radix : ℤ)

/- estimated_stage_lanes -/
def estimatedStageLanes (baseLanes : ℕ) (isDouble : Bool) : List ℕ :=
  let compatible := factors.all fun radix => n / radix % baseLanes == 0
  let fixed := List.replicate factors.length baseLanes
  if n < 128 ∨ 4096 < n ∨ factors.length < 2 ∨ (32 < baseLanes ∧ compatible = true) then fixed
  else
    let result := factors.map (cooperativeStageLanes n)
    let least := result.foldl min (result.headD 0)
    let most := result.foldl max 0
    if isDouble = false ∧ compatible = true ∧ least * 4 < most then fixed else result

def stageLanesOf : List ℕ :=
  if context.deviceType = "maca" then factors.map (n / ·)
  else estimatedStageLanes n factors (lanesOf context n factors) (decide context.isDouble)

def estimateLeafWarmCost : ℚ :=
  let stageLanes := stageLanesOf context n factors
  let warps := chooseNumWarps context (stageLanes.foldl max 0)
  let base := (stageLanes.map fun lanes => ((n * warps : ℕ) : ℚ) / lanes).sum
  let genericStageCount := factors.countP (!specializedRadix ·)
  let sharedBytes := 4 * ceilPowerOfTwo n * (if context.isDouble then 8 else 4)
  (base + (genericStageCount * n : ℕ)) * max 1 ((sharedBytes : ℚ) / (64 * 1024 : ℕ))

/- score_leaf_factorization, compared from the left. -/
def scoreLeafFactorization : List ℤ :=
  let lanes := lanesOf context n factors
  [-round (estimateLeafWarmCost context n factors * (1024 : ℕ)), -(factors.length : ℤ), lanes, -(laneBlockFor lanes : ℤ),
    -(factors.countP (!specializedRadix ·) : ℤ)] ++ factors.map fun radix : ℕ => (radix : ℤ)

def bestFactors (first : List ℕ) (candidates : List (List ℕ)) : List ℕ :=
  candidates.foldl (fun best candidate =>
    if scoreLeafFactorization context n best < scoreLeafFactorization context n candidate then candidate else best) first

end Search

section Leaf
variable (host : Host) (context : RequestContext) (n : ℕ)

def rememberLeafFactors (factors : List ℕ) : Build (List ℕ) := do
  Program.modify fun caches => { caches with bestLeafFactors := Function.update caches.bestLeafFactors n (some factors) }
  return factors

def selectLeafFactors : Build (List ℕ) :=
  match leafOverride host context n with
  | some outcome => Program.ofExcept outcome
  | none => do
    let caches ← Program.get
    match caches.bestLeafFactors n with
    | some factors => return factors
    | none =>
      if context.deviceType = "maca" ∧ n ∈ kSupportedRadices then rememberLeafFactors n [n]
      else
        let parallel := context.deviceType ≠ "maca" ∧ context.batch = 1 ∧ caches.parallelLeafHeuristic = true
        if parallel ∧ n = 256 then rememberLeafFactors n [4, 4, 4, 4]
        else if parallel ∧ n = 1024 then rememberLeafFactors n [8, 8, 4, 4]
        else
          match enumerateSupportedFactorizations n with
          | [] => do
            let factors ← Program.ofExcept (factorizeOrRaise n)
            rememberLeafFactors n factors
          | first :: rest => rememberLeafFactors n (bestFactors context n first (first :: rest))

/- leaf_smem_elements -/
def leafSmemElements (factors : List ℕ) : Option ℕ :=
  if context.inputDtype ≠ "complex64" ∧ context.inputDtype ≠ "float32" ∧ context.inputDtype ≠ "complex128" ∧
      context.inputDtype ≠ "float64" then none
  else if factors.length ≤ 1 then some 0
  else some (ceilPowerOfTwo n)

def shouldUseLeaf (factors : List ℕ) : Bool :=
  match leafSmemElements context n factors with
  | none => false
  | some elements => n ≤ kLeafMaxN ∧ ((4 * elements * (if context.isDouble then 8 else 4) : ℕ) : ℤ) ≤ context.maxDynamicSmemBytes

def makeLeafPlan (factors : List ℕ) : Except String PlanNode :=
  match leafSmemElements context n factors with
  | none => .error ("ct_leaf shared-memory planner currently supports only float32/complex64 and float64/complex128 " ++
      "inputs")
  | some elements =>
    let lanes := lanesOf context n factors
    let executionLanes :=
      if context.deviceType = "maca" then factors.foldl (fun most radix => max most (n / radix)) lanes else lanes
    let factors := factors.map fun radix : ℕ => (radix : ℤ)
    .ok (.leaf n factors 1 lanes (chooseNumWarps context executionLanes) (defaultGenericRadices factors) elements)

end Leaf

section Throwing
variable {host : Host} {context : RequestContext} {n : ℕ}

/- The lengths at which a setting can make the choice of the factors fail. -/
def settingLengths : List ℕ := [16, 32, 128, 256, 2048]

/- A rule that throws is a rule for one of these lengths. -/
theorem ruleThrows {rule : LeafRule} {message : String} (member : rule ∈ leafRules host context n)
    (throws : rule = some (.error message)) : n ∈ settingLengths := by
  have never : ∀ (applies : Prop) [Decidable applies] (factors : List ℕ), chosen applies factors ≠ some (.error message) := by
    intro applies _ factors same
    unfold chosen at same
    split at same <;> simp at same
  subst throws
  by_contra outside
  simp only [settingLengths, List.mem_cons, List.not_mem_nil, or_false, not_or] at outside
  obtain ⟨n16, n32, n128, n256, n2048⟩ := outside
  simp only [leafRules, ixRules, List.mem_append, List.mem_cons, List.not_mem_nil, or_false, (never _ _).symm] at member
  simp [hcu256, hcu128, hcu2048, macaCube32, hcu16, n16, n32, n128, n256, n2048] at member

theorem overrideThrows {message : String} (throws : leafOverride host context n = some (.error message)) :
    n ∈ settingLengths := by
  obtain ⟨rule, member, same⟩ := List.exists_of_findSome?_eq_some throws
  exact ruleThrows member same

theorem rememberSucceeds (factors : List ℕ) : Succeeds (rememberLeafFactors n factors) fun _ => True :=
  succeedsBind succeedsModify fun _ _ => succeedsPure trivial

theorem factorizeReturns (supported : Supported n) : ∃ factors, factorizeOrRaise n = .ok factors :=
  ⟨(factorizeSupportedRadices n).factors, by simp only [factorizeOrRaise, supported.1, ne_eq, not_true_eq_false, if_false, supported.2]⟩

theorem selectLeafFactorsEnds : Ends (selectLeafFactors host context n) fun _ => True := by
  unfold selectLeafFactors
  split
  · exact endsOfExcept fun _ _ => trivial
  · refine endsBind succeedsGet.ends fun caches _ => ?_
    split
    · exact endsPure
    · split_ifs
      · exact (rememberSucceeds _).ends
      · dsimp only
        split_ifs
        · exact (rememberSucceeds _).ends
        · exact (rememberSucceeds _).ends
        · split
          · exact endsBind (endsOfExcept fun _ _ => trivial) fun factors _ => (rememberSucceeds factors).ends
          · exact (rememberSucceeds _).ends

theorem selectLeafFactorsSucceeds (supported : Supported n) (elsewhere : n ∉ settingLengths) :
    Succeeds (selectLeafFactors host context n) fun _ => True := by
  unfold selectLeafFactors
  split
  next outcome found =>
    cases outcome with
    | ok factors => exact succeedsPure trivial
    | error message => exact absurd (overrideThrows found) elsewhere
  next =>
    refine succeedsBind succeedsGet fun caches _ => ?_
    split
    · exact succeedsPure trivial
    · split_ifs
      · exact rememberSucceeds _
      · dsimp only
        split_ifs
        · exact rememberSucceeds _
        · exact rememberSucceeds _
        · split
          · obtain ⟨factors, returns⟩ := factorizeReturns supported
            rw [returns]
            exact succeedsBind (@succeedsPure _ _ _ (fun _ => True) _ trivial) fun factors _ => rememberSucceeds factors
          · exact rememberSucceeds _

/- Where any factors make a leaf, all do. -/
theorem makeLeafReturns {factors others : List ℕ} (use : shouldUseLeaf context n factors = true) :
    ∃ node, makeLeafPlan context n others = .ok node := by
  unfold shouldUseLeaf at use
  unfold makeLeafPlan
  cases elements : leafSmemElements context n others with
  | some elements => exact ⟨_, rfl⟩
  | none =>
      have missing : leafSmemElements context n factors = none := by
        unfold leafSmemElements at elements ⊢
        split_ifs at elements ⊢
        rfl
      simp [missing] at use

end Throwing

end FlagFft.Plan
