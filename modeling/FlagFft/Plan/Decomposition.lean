import FlagFft.Plan.Builder

/-! The plans a tuning run compares: the experiments of a request, or the automatic plan with the other algorithms of a
prime and the other splits of a composite length, as many as there is room for. -/
namespace FlagFft.Plan
open Library.Fuel

section Room
variable (limit : ℤ)

/- A candidate is built only while there is room for it. -/
def whileRoom (candidate : Build (PlanCandidate ℚ)) (unique : Unique ℚ) : Build (Unique ℚ) :=
  if unique.result.length < limit then do
    let built ← candidate
    pure (appendUnique unique built)
  else pure unique

end Room

section Candidates
variable (host : BuilderHost) (context : RequestContext) (request : BuildRequest) (callees : Callees) (n : ℕ) (limit : ℤ)

def tailCandidate (plan : MacaTailPlan) : Build (PlanCandidate ℚ) := do
  let node ← buildMacaTailPlan n callees plan
  let cost ← match node with
    | .bluestein _ convLength _ => bluesteinCost callees n convLength.toNat
    | .fourStep _ n1 n2 _ _ => fourStepCost host.toHost context callees n1.toNat n2.toNat
    | .rader .. => raderCost callees n
    | _ => pure 0
  pure (candidateOf node cost)

def bluesteinCandidate : Build (PlanCandidate ℚ) := do
  let made ← makeBluesteinPlan host.toHost context callees n
  let cost ← bluesteinCost callees n made.2
  pure (candidateOf made.1 cost)

def raderCandidate : Build (PlanCandidate ℚ) := do
  let rader ← makeRaderPlan host.toHost context callees n
  let cost ← raderCost callees n
  pure (candidateOf rader cost)

/- The closest divisor pair. -/
def closestDivisor (power : ℕ) : ℕ := ((enumerateDivisors power).takeWhile fun divisor => divisor ≤ power / divisor).getLastD 1

/- The power of two, and where its plan is split, the closest pair of leaves. -/
def powerCandidates (unique : Unique ℚ) : Build (Unique ℚ) :=
  if unique.result.length < limit then do
    let power := ceilPowerOfTwo (n + (n - 1))
    let child ← callees.node power false
    let cost ← bluesteinCost callees n power
    let unique := appendUnique unique (candidateOf (.bluestein n power child) cost)
    if unique.result.length < limit ∧ child.kind = .fourStep then do
      let n1 := closestDivisor power
      let n2 := power / n1
      let row ← callees.node n1 false
      let col ← callees.node n2 false
      if 1 < n1 ∧ isLeaf row = true ∧ isLeaf col = true then do
        let cost ← fourStepCost host.toHost context callees n1 n2
        let balanced : PlanNode := .fourStep power n1 n2 row col
        pure (appendUnique unique (candidateOf (.bluestein n power balanced) ((3 : ℕ) * cost + (n + power : ℕ))))
      else pure unique
    else pure unique
  else pure unique

def raderAlternative (unique : Unique ℚ) : Build (Unique ℚ) :=
  if n ≤ kMaxRaderPrime then whileRoom limit (raderCandidate host context callees n) unique else pure unique

def primeAlternatives (unique : Unique ℚ) : Build (Unique ℚ) := do
  let unique ← whileRoom limit (bluesteinCandidate host context callees n) unique
  let unique ← raderAlternative host context callees n limit unique
  if request.deviceType = "maca" ∧ request.batch = 1 then powerCandidates host context callees n limit unique else pure unique

/- The proper divisors, the most balanced split first. -/
def balancedDivisors : List ℕ :=
  let balance n1 := |host.log n1 - host.log (n / n1)|
  ((enumerateDivisors n).filter fun n1 => 1 < n1 ∧ n1 < n).mergeSort fun a b =>
    !(if balance b ≠ balance a then decide (balance b < balance a) else decide (b < a))

def splitAlternative (n1 : ℕ) : Build (PlanCandidate ℚ) := do
  let n2 := n / n1
  let node ← fourStepNode callees n n1 n2
  let first ← callees.cost n1
  let second ← callees.cost n2
  pure (candidateOf node (n2 * first + n1 * second + n))

def otherSplits (automatic : PlanCandidate ℚ) (unique : Unique ℚ) : Build (Unique ℚ) :=
  (balancedDivisors host n).foldlM (fun unique (n1 : ℕ) =>
    match automatic.node with
    | .fourStep _ m1 m2 _ _ =>
      if m1 = n1 ∧ m2 = (n / n1 : ℕ) then pure unique else whileRoom limit (splitAlternative callees n n1) unique
    | _ => whileRoom limit (splitAlternative callees n n1) unique) unique

def alternatives (automatic : PlanCandidate ℚ) (unique : Unique ℚ) : Build (Unique ℚ) :=
  if isPrimeLength n = true ∧ kDirectDftMaxN < n then primeAlternatives host context request callees n limit unique
  else otherSplits host callees n limit automatic unique

def decompositions : Build (List (PlanCandidate ℚ)) := do
  match ← Program.ofExcept (macaTailPlans host request n true) with
  | experiment :: rest =>
    let experiments := experiment :: rest
    if limit < experiments.length then
      Program.throw ("MACA tail comparison requires --max-candidates >= " ++ toString experiments.length)
    else experiments.foldlM (fun candidates plan => do
      let candidate ← tailCandidate host context callees n plan
      pure (candidates ++ [candidate])) []
  | [] => do
    let candidates ← buildAutoCandidates host.toHost context callees n
    let automatic ← Program.ofExcept (selectCandidate candidates)
    let unique ← alternatives host context request callees n limit automatic (appendUnique {} automatic)
    pure unique.result

end Candidates

def Session.buildDecompositionTuneCandidates (host : BuilderHost) (fuel : ℕ) (n : ℤ) (request : BuildRequest) (limit : ℤ) :
    Session (List (PlanCandidate ℚ)) :=
  if n ≤ 0 then Program.throw "FFT length must be positive"
  else if limit ≤ 0 then Program.throw "decomposition tune candidate limit must be positive"
  else if request.deviceType = "maca" ∧ request.batch = 1 ∧ 2 ^ 61 < n then
    Program.throw "MACA single tune length exceeds the convolution length range"
  else do
    let context ← setRequestContext host request
    onCaches (decompositions host context request (level host.toHost context fuel) n.toNat limit)

end FlagFft.Plan
