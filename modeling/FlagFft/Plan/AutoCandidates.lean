import FlagFft.Plan.LeafFactors

/-! The search for a plan of one length. A node or a cost asks for nodes and costs of other lengths: of divisors, of the
length of a convolution, of n - 1. One more level of that recursion takes one unit of fuel. -/
namespace FlagFft.Plan
open Library.Fuel

/- build_auto_node and cost_for, as the functions between them call them. -/
structure Callees where
  node : ℕ → (allowParallelLeafHeuristic : Bool) → Build PlanNode
  cost : ℕ → Build ℚ

def kThreadLocalColLength : ℕ := 1024

def kThreadLocalCrossRadix : ℕ := 32

def kThreadLocalRegisterRadices : List ℕ := [18, 20, 24, 25, 27, 28, 30, 32]

def kMaxRaderPrime : ℕ := 16384

section Numbers

/- In ascending order. -/
def enumerateDivisors (n : ℕ) : List ℕ := (List.range' 1 n).filter (n % · = 0)

def isPrimeLength (n : ℕ) : Bool := 2 ≤ n ∧ ∀ divisor < n, 2 ≤ divisor → n % divisor ≠ 0

def primeFactorsUnique (n : ℕ) : List ℕ := (List.range' 2 (n - 1)).filter fun factor => isPrimeLength factor && n % factor == 0

def findPrimitiveRoot (p : ℕ) : Except String ℕ :=
  if isPrimeLength p = false then .error "Rader primitive root requires a prime length"
  else if p = 2 then .ok 1
  else
    match (List.range' 2 (p - 2)).find? fun root =>
        (primeFactorsUnique (p - 1)).all fun factor => root ^ ((p - 1) / factor) % p ≠ 1 with
    | some root => .ok root
    | none => .error "failed to find primitive root for prime length"

def buildRaderIndexTable (p root : ℕ) : Except String (List ℕ) :=
  if p < 2 then .error "Rader index table requires length >= 2" else .ok ((List.range (p - 1)).map fun i => root ^ i % p)

end Numbers

section Candidates

def nodePriority (node : PlanNode) : ℤ :=
  match node.kind with
  | .ctLeaf => 0
  | .fourStep => 1
  | .stockhamAutosort => 2
  | .bluestein => 3
  | .rader => 3
  | .directDft => 4
  | .twoDim => 5
  | .threeDim => 99

def candidateOf (node : PlanNode) (cost : ℚ) : PlanCandidate ℚ := ⟨node, cost, nodePriority node⟩

/- The comparison of select_candidate. -/
def precedes (a b : PlanCandidate ℚ) : Bool := if a.cost ≠ b.cost then a.cost < b.cost else a.priority < b.priority

/- std::min_element -/
def selectCandidate : List (PlanCandidate ℚ) → Except String (PlanCandidate ℚ)
  | [] => .error "no FFT plan candidates were generated"
  | first :: rest => .ok (rest.foldl (fun best candidate => if precedes candidate best then candidate else best) first)

def estimateDirectDftCost (n : ℕ) : ℚ := (n * n : ℕ)

end Candidates

section Costs
variable (host : Host) (context : RequestContext) (callees : Callees)

def measuredSmallBatchFourStepN1 (n : ℕ) : ℕ :=
  if context.deviceArch ≠ "sm_80" then 0
  else if n = 8192 ∧ 1 < context.batch then 128
  else if n = 16384 then 256
  else if n = 1048576 then 1024
  else 0

def measuredLargeBatchFourStepN1 (n : ℕ) : ℕ :=
  if context.deviceArch ≠ "sm_80" then 0
  else if n = 8192 then (if context.isDouble then 256 else 128)
  else if n = 16384 then (if context.isDouble then 512 else 256)
  else if n = 1048576 then 1024
  else 0

def preferredN1 (n : ℕ) : ℕ :=
  if context.batch ≤ 8 then measuredSmallBatchFourStepN1 context n
  else if 65 ≤ context.batch then measuredLargeBatchFourStepN1 context n
  else 0

def isWarpAlignedGeneratedCompositeLeaf (factors : List ℕ) : Bool :=
  factors.contains 32 && factors.all kThreadLocalRegisterRadices.contains

/- What a row leaf of doubles costs where it does not pack fully. -/
def rowPackCost (n1 n : ℕ) (factors : List ℕ) : ℚ :=
  if isWarpAlignedGeneratedCompositeLeaf factors = true then 0
  else n * max 0 ((ceilPowerOfTwo n1 : ℚ) / (512 : ℕ) - 1) / (4 : ℕ)

def measuredCost (n1 n : ℕ) : ℚ :=
  if 0 < preferredN1 context n ∧ n1 ≠ preferredN1 context n then n * (100 : ℕ) else 0

def fourStepCost (n1 n2 : ℕ) : Build ℚ := do
  let n := n1 * n2
  let first ← callees.cost n1
  let second ← callees.cost n2
  let pack ← if context.isDouble then do
      let factors ← selectLeafFactors host context n1
      pure (rowPackCost n1 n factors)
    else pure 0
  pure (n2 * first + n1 * second + n + pack + measuredCost context n1 n)

def bluesteinCost (n convLength : ℕ) : Build ℚ := do
  let cost ← callees.cost convLength
  pure ((3 : ℕ) * cost + (n + convLength : ℕ))

def raderCost (n : ℕ) : Build ℚ := do
  let cost ← callees.cost (n - 1)
  pure ((3 : ℕ) * cost + (n + 3 * (n - 1) : ℕ))

/- 3.0 * cost_for(c) + c -/
def lengthCost (c : ℕ) : Build ℚ := do
  let cost ← callees.cost c
  pure ((3 : ℕ) * cost + c)

end Costs

section Convolution
variable (host : Host) (context : RequestContext) (callees : Callees)

def convolutionContext : ConvolutionContext :=
  ⟨context.deviceType, context.inputDtype, context.originRank, host.getenv "FLAGFFT_NPU_2D_BLUESTEIN_SMOOTH_CONV"⟩

/- The best length so far and its cost. -/
def compareLength (best : ℕ × ℚ) (candidate : ℕ) : Build (ℕ × ℚ) := do
  let cost ← lengthCost callees candidate
  pure (if cost < best.2 ∨ (cost = best.2 ∧ candidate < best.1) then (candidate, cost) else best)

def compareSmooth (minimum : ℕ) (best : ℕ × ℚ) (candidate : ℕ) : Build (ℕ × ℚ) :=
  if candidate < minimum ∨ best.1 ≤ candidate then pure best
  else if ¬ Supported candidate then pure best
  else compareLength callees best candidate

def PlanBuilder.nextSupportedConvolutionLength (minimum : ℕ) : Build ℕ :=
  if minimum ≤ 1 then pure 1
  else do
    let power := ceilPowerOfTwo minimum
    match ← Program.ofExcept (convolutionSearch (convolutionContext host context) power) with
    | .powerOnly => pure power
    | .smooth =>
      let cost ← lengthCost callees power
      let best ← (smoothCandidates power).foldlM (compareSmooth callees minimum) (power, cost)
      pure best.1
    | .window =>
      match windowCandidates minimum power with
      | [] => pure power
      | first :: rest =>
        let cost ← lengthCost callees first
        let best ← (first :: rest).foldlM (compareLength callees) (first, cost)
        pure best.1

/- FLAGFFT_MACA_1D_BATCH and a second switch, both on unless they are 0. -/
def notZero (name : String) : Prop := host.getenv name ≠ some "0"

instance (name : String) : Decidable (notZero host name) := inferInstanceAs (Decidable (_ ≠ _))

def macaBatch64 : Prop :=
  context.deviceType = "maca" ∧ context.deviceArch = "102" ∧ context.originRank ≤ 1 ∧ context.batch = 64 ∧
    notZero host "FLAGFFT_MACA_1D_BATCH"

instance : Decidable (macaBatch64 host context) := inferInstanceAs (Decidable (_ ∧ _ ∧ _ ∧ _ ∧ _))

def maca997Fp64 (n : ℕ) : Prop :=
  context.deviceType = "maca" ∧ context.deviceArch = "102" ∧ context.originRank = 3 ∧ n = 997 ∧ context.isDouble

instance (n : ℕ) : Decidable (maca997Fp64 context n) := inferInstanceAs (Decidable (_ ∧ _ ∧ _ ∧ _ ∧ _))

def balancedMacaBatch (n convLength : ℕ) : Prop :=
  macaBatch64 host context ∧ context.inputDtype = "complex128" ∧ n = 524287 ∧ convLength = 1048576 ∧
    notZero host "FLAGFFT_MACA_BATCH_PRIME_BALANCED"

instance (n convLength : ℕ) : Decidable (balancedMacaBatch host context n convLength) :=
  inferInstanceAs (Decidable (_ ∧ _ ∧ _ ∧ _ ∧ _))

/- A four-step node over two built children. -/
def fourStepNode (n n1 n2 : ℕ) : Build PlanNode := do
  let row ← callees.node n1 false
  let col ← callees.node n2 false
  pure (.fourStep n n1 n2 row col)

/- The convolution length as well, which the caller reads from the node. -/
def makeBluesteinPlan (n : ℕ) : Build (PlanNode × ℕ) := do
  let found ← PlanBuilder.nextSupportedConvolutionLength host context callees (2 * n - 1)
  let convLength := if maca997Fp64 context n then 2048 else found
  let fft ← if balancedMacaBatch host context n convLength then fourStepNode callees convLength 1024 1024
    else callees.node convLength false
  pure (.bluestein n convLength fft, convLength)

def tunedRaderSplit (n : ℕ) : Prop :=
  macaBatch64 host context ∧ context.requestedN = n ∧ (context.inputDtype = "complex64" ∨ context.inputDtype = "complex128") ∧
    (n = 8191 ∨ n = 16381) ∧ notZero host "FLAGFFT_MACA_BATCH_RADER_SPLIT"

instance (n : ℕ) : Decidable (tunedRaderSplit host context n) := inferInstanceAs (Decidable (_ ∧ _ ∧ _ ∧ _ ∧ _))

def makeRaderPlan (n : ℕ) : Build PlanNode := do
  let root ← Program.ofExcept (findPrimitiveRoot n)
  let idx ← Program.ofExcept (buildRaderIndexTable n root)
  let conv ← if tunedRaderSplit host context n then
      fourStepNode callees (n - 1) (if n = 8191 then 90 else 91) (if n = 8191 then 91 else 180)
    else callees.node (n - 1) false
  pure (.rader n root (idx.map fun i : ℕ => (i : ℤ)) conv)

end Convolution

section Npu
variable (host : Host) (context : RequestContext) (callees : Callees) (n : ℕ)

/- A variable that may only be 0 or 1, and whether it is 1. -/
def zeroOrOne (name : String) : Except String Bool :=
  let setting := host.getenv name
  if setting ≠ none ∧ setting ≠ some "0" ∧ setting ≠ some "1" then .error (name ++ " must be 0 or 1") else .ok (setting = some "1")

/- std::stoll over the whole text -/
def wholeNumber (text : String) : Option ℤ :=
  match host.stoll text with
  | some (value, parsed) => if parsed = text.utf8ByteSize then some value else none
  | none => none

def npuDirectDftMax : Except String ℤ :=
  match host.getenv "FLAGFFT_NPU_2D_DIRECT_DFT_MAX" with
  | none => .ok 128
  | some raw =>
    match wholeNumber host raw with
    | some value =>
      if value = 0 ∨ value = 64 ∨ value = 128 then .ok value
      else .error "FLAGFFT_NPU_2D_DIRECT_DFT_MAX must be 0, 64, or 128"
    | none => .error "FLAGFFT_NPU_2D_DIRECT_DFT_MAX must be 0, 64, or 128"

def npuLeafLength (measured : Bool) : Except String ℤ :=
  match host.getenv "FLAGFFT_NPU_2D_LEAF_LENGTH" with
  | none => .ok (if measured then n else 0)
  | some raw =>
    match host.stoll raw with
    | none => .error "FLAGFFT_NPU_2D_LEAF_LENGTH must be a positive integer"
    | some (value, parsed) =>
      if parsed ≠ raw.utf8ByteSize ∨ value ≤ 1 then
        .error "FLAGFFT_NPU_2D_LEAF_LENGTH must be a positive integer greater than one"
      else .ok value

/- The radices of a text such as 16x8, and their product. -/
def radixTokens : List String → List ℕ × ℕ → Except String (List ℕ × ℕ)
  | [], state => .ok state
  | token :: rest, (factors, product) =>
    match host.stoll token with
    | none => .error "FLAGFFT_NPU_2D_LEAF_FACTORS must be radices such as 16x8"
    | some (radix, parsed) =>
      if parsed ≠ token.utf8ByteSize ∨ radix ≤ 1 ∨ ((n / radix.toNat : ℕ) : ℤ) < product then
        .error "FLAGFFT_NPU_2D_LEAF_FACTORS must multiply to the selected leaf length"
      else radixTokens rest (factors ++ [radix.toNat], product * radix.toNat)

def npuLeafFactors (factors : List ℕ) : Except String (List ℕ) :=
  match host.getenv "FLAGFFT_NPU_2D_LEAF_FACTORS" with
  | none => .ok factors
  | some spec => do
    let (factors, product) ← radixTokens host n (spec.splitOn "x") ([], 1)
    if product ≠ n then throw "FLAGFFT_NPU_2D_LEAF_FACTORS must multiply to the selected leaf length"
    else pure factors

def leafCandidate (factors : List ℕ) : Build (List (PlanCandidate ℚ)) := do
  let node ← Program.ofExcept (makeLeafPlan context n factors)
  pure [candidateOf node (estimateLeafWarmCost context n factors)]

def directCandidate : PlanCandidate ℚ := candidateOf (.directDft n) (estimateDirectDftCost n)

/- FLAGFFT_NPU_2D_FACTOR_SPLIT: the most balanced pair of supported divisors. -/
def balancedSplit : Option (ℕ × ℕ) :=
  let pairs := (enumerateDivisors n).filter fun n1 => 1 < n1 ∧ n1 < n / n1 ∧ Supported n1 ∧ Supported (n / n1)
  let balance n1 := |host.log (n / n1) - host.log n1|
  match pairs with
  | [] => none
  | first :: rest =>
    let n1 := rest.foldl (fun best n1 => if balance n1 < balance best then n1 else best) first
    some (n1, n / n1)

def splitCandidate (n1 n2 : ℕ) : PlanCandidate ℚ :=
  let row := (factorizeSupportedRadices n1).factors
  let col := (factorizeSupportedRadices n2).factors
  let stockham (length : ℕ) (factors : List ℕ) : PlanNode := .stockham length (factors.map fun radix : ℕ => (radix : ℤ))
  candidateOf (.fourStep n n1 n2 (stockham n1 row) (stockham n2 col)) (n * (row.length + col.length + (2 : ℕ)))

/- The first route that is taken. -/
def tryEach {α : Type} : List (Build (Option α)) → Build (Option α)
  | [] => pure none
  | route :: rest => do
    match ← route with
    | some found => pure (some found)
    | none => tryEach rest

abbrev NpuRoute := Build (Option (List (PlanCandidate ℚ)))

def aivSmallRoute (use3dAivSmall : Bool) : NpuRoute :=
  if use3dAivSmall = true ∧ context.originRank = 3 ∧ context.complexFloat ∧ (n = 16 ∨ n = 32) then do
    let factors ← selectLeafFactors host context n
    let candidates ← leafCandidate context n factors
    pure (some candidates)
  else pure none

def leaf3dRoute (use3dLeaf : Bool) : NpuRoute :=
  if use3dLeaf = true ∧ context.originRank = 3 ∧ context.complexFloat ∧ (n = 16 ∨ n = 256) then do
    let factors ← selectLeafFactors host context n
    if shouldUseLeaf context n factors = true then do
      let candidates ← leafCandidate context n factors
      pure (some candidates)
    else pure none
  else pure none

def cubeDftRoute : NpuRoute := do
  let useCubeDft ← Program.ofExcept (zeroOrOne host "FLAGFFT_NPU_2D_CUBE_DFT")
  let cubeSupported := 32 ≤ n ∧ n ≤ 64 ∧ Supported n
  if useCubeDft = true ∧ context.originRank = 2 ∧ context.complexFloat ∧ context.realTransformKind = "" ∧ cubeSupported ∧
      (1024 ≤ context.batch ∨ (n = 64 ∧ context.batch ≤ 512)) then
    pure (some [directCandidate n])
  else pure none

def leafLengthRoute : NpuRoute := do
  let measuredLeaf : Bool := context.originRank = 2 ∧ n = 64 ∧ (context.realKind ∨ context.realTransformKind = "")
  let leafLength ← Program.ofExcept (npuLeafLength host n measuredLeaf)
  if context.originRank = 2 ∧ context.complexFloat ∧
      (measuredLeaf = true ∨ (host.getenv "FLAGFFT_NPU_2D_LEAF_LENGTH").isSome = true) ∧ (n : ℤ) = leafLength then do
    let selected ← selectLeafFactors host context n
    let factors ← Program.ofExcept (npuLeafFactors host n (if n = 64 then [8, 8] else selected))
    if shouldUseLeaf context n factors = true then do
      let candidates ← leafCandidate context n factors
      pure (some candidates)
    else Program.throw "FLAGFFT_NPU_2D_LEAF_LENGTH requires a supported factorization"
  else pure none

def directDftRoute (directDftMax : ℤ) : NpuRoute :=
  if context.originRank = 2 ∧ context.complexFloat ∧ context.batch ≤ 512 ∧ 1 < n ∧ (n : ℤ) ≤ directDftMax then
    pure (some [directCandidate n])
  else pure none

def factorSplitRoute : NpuRoute := do
  let useFactorSplit ← Program.ofExcept (zeroOrOne host "FLAGFFT_NPU_2D_FACTOR_SPLIT")
  if useFactorSplit = true ∧ context.originRank = 2 ∧ context.complexFloat ∧ 1024 ≤ n ∧ Supported n ∧
      (factorizeSupportedRadices n).factors.any (· != 2) = true then
    pure ((balancedSplit host n).map fun pair => [splitCandidate n pair.1 pair.2])
  else pure none

def stockhamRoute : NpuRoute :=
  let primeMode := host.getenv "FLAGFFT_NPU_STOCKHAM_PRIME"
  let smallRadices := (primeMode ≠ none ∧ primeMode ≠ some "0") ∨ (n % 13 ≠ 0 ∧ n % 17 ≠ 0 ∧ n % 19 ≠ 0)
  if 1 < n ∧ (factorizeSupportedRadices n).remainder = 1 ∧ smallRadices then
    pure (some [candidateOf (.stockham n ((stockhamFactors n).map fun radix : ℕ => (radix : ℤ))) (stockhamCost n)])
  else if n ≤ kDirectDftMaxN then pure (some [directCandidate n])
  else pure none

/- None of the short routes builds another length. -/
def npuShortRoute : NpuRoute := do
  let directDftMax ← Program.ofExcept (npuDirectDftMax host)
  let use3dLeaf ← Program.ofExcept (zeroOrOne host "FLAGFFT_NPU_3D_LEAF")
  let use3dAivSmall ← Program.ofExcept (zeroOrOne host "FLAGFFT_NPU_3D_AIV_SMALL")
  tryEach
    [aivSmallRoute host context n use3dAivSmall, leaf3dRoute host context n use3dLeaf, cubeDftRoute host context n,
      leafLengthRoute host context n, directDftRoute context n directDftMax, factorSplitRoute host context n,
      stockhamRoute host n]

def npuCandidates : Build (List (PlanCandidate ℚ)) := do
  match ← npuShortRoute host context n with
  | some candidates => pure candidates
  | none =>
    let made ← makeBluesteinPlan host context callees n
    pure [candidateOf made.1 (estimateDirectDftCost n)]

end Npu

section Generic
variable (host : Host) (context : RequestContext) (callees : Callees) (n : ℕ)

def leafRoute : Build (List (PlanCandidate ℚ)) :=
  if Supported n ∧ shouldUseLeaf context n (factorizeSupportedRadices n).factors = true then do
    let factors ← selectLeafFactors host context n
    let node ← Program.ofExcept (makeLeafPlan context n factors)
    -- estimate_leaf_warm_cost selects the factors once more
    let again ← selectLeafFactors host context n
    pure [candidateOf node (estimateLeafWarmCost context n again)]
  else pure []

def directRoute : List (PlanCandidate ℚ) := if n ≤ kDirectDftMaxN then [directCandidate n] else []

def RequestContext.threadLocalComplex : Prop :=
  context.complexFloat ∨ (context.inputDtype = "complex128" ∧ context.outputDtype = "complex128")

instance : Decidable context.threadLocalComplex := inferInstanceAs (Decidable (_ ∨ _))

def threadLocalLeaf (registerRadix : ℕ) : PlanNode :=
  let length := registerRadix * kThreadLocalCrossRadix
  .leaf length [(registerRadix : ℤ), kThreadLocalCrossRadix] 1 registerRadix (if registerRadix = 32 then 2 else 1)
    (if registerRadix = 32 then [32] else []) (ceilPowerOfTwo length)

/- The columns and the register radix of a thread-local four-step transform. -/
def threadLocalShape : Prop :=
  context.deviceType ≠ "maca" ∧ context.threadLocalComplex ∧ n % kThreadLocalColLength = 0 ∧
    n / kThreadLocalColLength % kThreadLocalCrossRadix = 0 ∧
    n / kThreadLocalColLength / kThreadLocalCrossRadix ∈ kThreadLocalRegisterRadices

instance : Decidable (threadLocalShape context n) := inferInstanceAs (Decidable (_ ∧ _ ∧ _ ∧ _ ∧ _))

def threadLocalRoute : Build (List (PlanCandidate ℚ)) :=
  if threadLocalShape context n then do
    let n1 := n / kThreadLocalColLength
    let node : PlanNode := .fourStep n n1 kThreadLocalColLength (threadLocalLeaf (n1 / kThreadLocalCrossRadix)) (threadLocalLeaf 32)
    let cost ← fourStepCost host context callees n1 kThreadLocalColLength
    pure [candidateOf node (cost / (4 : ℕ))]
  else pure []

/- One pair of divisors; whatever it throws is dropped. -/
def splitRoute (candidates : List (PlanCandidate ℚ)) (n1 : ℕ) : Build (List (PlanCandidate ℚ)) :=
  if n1 ≤ 1 ∨ n ≤ n1 then pure candidates
  else
    Program.catching
      (do
        let n2 := n / n1
        let node ← fourStepNode callees n n1 n2
        let cost ← fourStepCost host context callees n1 n2
        pure (candidates ++ [candidateOf node (cost + |host.log n1 - host.log n2|)]))
      fun _ => pure candidates

def isLeaf : PlanNode → Bool
  | .leaf .. => true
  | _ => false

def RequestContext.doubleEnds : Prop := context.isDouble ∧ (context.outputDtype = "complex128" ∨ context.outputDtype = "float64")

instance : Decidable context.doubleEnds := inferInstanceAs (Decidable (_ ∧ _))

/- Where Rader's algorithm is not compared. -/
def prefersBluestein (fft : PlanNode) : Prop :=
  let musaS5000 := context.deviceType = "musa" ∧ context.deviceArch = "31"
  (context.deviceType ≠ "maca" ∧ context.complexFloat) ∨
    (context.deviceArch = "sm_80" ∧ context.batch = 1 ∧ context.doubleEnds ∧ isLeaf fft = true) ∨
    (musaS5000 ∧ context.batch = 1 ∧ context.doubleEnds ∧ isLeaf fft = true) ∨
    (musaS5000 ∧ 16 ≤ context.batch ∧ context.doubleEnds ∧ n = 8191)

instance (fft : PlanNode) : Decidable (prefersBluestein context n fft) :=
  inferInstanceAs (Decidable ((_ ∧ _) ∨ (_ ∧ _ ∧ _ ∧ _) ∨ ((_ ∧ _) ∧ _ ∧ _ ∧ _) ∨ ((_ ∧ _) ∧ _ ∧ _ ∧ _)))

def fftPlanOf : PlanNode → PlanNode
  | .bluestein _ _ fft => fft
  | other => other

def primeRoute : Build (List (PlanCandidate ℚ)) := do
  let made ← makeBluesteinPlan host context callees n
  let bluestein ← bluesteinCost callees n made.2
  let first := candidateOf made.1 bluestein
  if ¬ prefersBluestein context n (fftPlanOf made.1) ∧ isPrimeLength n = true ∧ n ≤ kMaxRaderPrime then do
    let rader ← makeRaderPlan host context callees n
    let cost ← raderCost callees n
    let cost := if Supported (n - 1) then min cost (bluestein * ((99 : ℕ) / (100 : ℕ))) else cost
    pure [first, candidateOf rader cost]
  else pure [first]

def genericCandidates : Build (List (PlanCandidate ℚ)) := do
  let leaf ← leafRoute host context n
  let threadLocal ← threadLocalRoute host context callees n
  let candidates ← (enumerateDivisors n).foldlM (splitRoute host context callees n) (leaf ++ directRoute n ++ threadLocal)
  if candidates = [] ∧ kDirectDftMaxN < n then primeRoute host context callees n else pure candidates

def buildAutoCandidates : Build (List (PlanCandidate ℚ)) :=
  if n = 0 then Program.throw "FFT length must be positive"
  else if context.deviceType = "npu" then npuCandidates host context callees n
  else genericCandidates host context callees n

end Generic

section Levels
variable (host : Host) (context : RequestContext)

/- The search with the heuristic set, and set back however it ends. -/
def withHeuristic {α : Type} (allow : Bool) (search : Build α) : Build α := do
  let previous := (← Program.get).parallelLeafHeuristic
  Program.modify fun caches => { caches with parallelLeafHeuristic := allow }
  let found ← Program.catching search fun message => do
    Program.modify fun caches => { caches with parallelLeafHeuristic := previous }
    Program.throw message
  Program.modify fun caches => { caches with parallelLeafHeuristic := previous }
  pure found

def buildAutoNode (callees : Callees) (n : ℕ) (allow : Bool) : Build PlanNode := do
  match (← Program.get).node n with
  | some node => pure node
  | none =>
    let candidate ← withHeuristic allow do
      let candidates ← buildAutoCandidates host context callees n
      Program.ofExcept (selectCandidate candidates)
    Program.modify fun caches =>
      { caches with
        node := Function.update caches.node n (some candidate.node)
        cost := Function.update caches.cost n (some candidate.cost) }
    pure candidate.node

def costFor (callees : Callees) (n : ℕ) : Build ℚ := do
  match (← Program.get).cost n with
  | some cost => pure cost
  | none =>
    let candidates ← withHeuristic false (buildAutoCandidates host context callees n)
    if candidates = [] then
      Program.throw ("length " ++ toString n ++ " has no supported FFT implementation route")
    else
      let best ← Program.ofExcept (selectCandidate candidates)
      Program.modify fun caches => { caches with cost := Function.update caches.cost n (some best.cost) }
      pure best.cost

/- So many levels of build_auto_node and cost_for below each other. -/
def level : ℕ → Callees
  | 0 => ⟨fun _ _ => Program.outOfFuel, fun _ => Program.outOfFuel⟩
  | fuel + 1 => ⟨buildAutoNode host context (level fuel), costFor host context (level fuel)⟩

end Levels

end FlagFft.Plan
