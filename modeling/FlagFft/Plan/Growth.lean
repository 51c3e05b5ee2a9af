import FlagFft.Plan.AutoCandidates

/-! More fuel changes no outcome of the search. -/
namespace FlagFft.Plan
open Library.Fuel

/- Where the first has an outcome, the second has the same. -/
structure Callees.Below (callees later : Callees) : Prop where
  node : ∀ n allow, Library.Fuel.Below (callees.node n allow) (later.node n allow)
  cost : ∀ n, Library.Fuel.Below (callees.cost n) (later.cost n)

section Growth
variable {host : Host} {context : RequestContext} {callees later : Callees}

theorem fourStepCostGrows (below : callees.Below later) (n1 n2 : ℕ) :
    Below (fourStepCost host context callees n1 n2) (fourStepCost host context later n1 n2) :=
  belowBind (below.cost n1) fun _ => belowBind (below.cost n2) fun _ => belowSame _

theorem bluesteinCostGrows (below : callees.Below later) (n convLength : ℕ) :
    Below (bluesteinCost callees n convLength) (bluesteinCost later n convLength) :=
  belowBind (below.cost convLength) fun _ => belowSame _

theorem raderCostGrows (below : callees.Below later) (n : ℕ) : Below (raderCost callees n) (raderCost later n) :=
  belowBind (below.cost (n - 1)) fun _ => belowSame _

theorem lengthCostGrows (below : callees.Below later) (c : ℕ) : Below (lengthCost callees c) (lengthCost later c) :=
  belowBind (below.cost c) fun _ => belowSame _

theorem compareLengthGrows (below : callees.Below later) (best : ℕ × ℚ) (candidate : ℕ) :
    Below (compareLength callees best candidate) (compareLength later best candidate) :=
  belowBind (lengthCostGrows below candidate) fun _ => belowSame _

theorem compareSmoothGrows (below : callees.Below later) (minimum : ℕ) (best : ℕ × ℚ) (candidate : ℕ) :
    Below (compareSmooth callees minimum best candidate) (compareSmooth later minimum best candidate) := by
  unfold compareSmooth
  split_ifs
  · exact belowSame _
  · exact compareLengthGrows below best candidate
  · exact belowSame _

theorem nextLengthGrows (below : callees.Below later) (minimum : ℕ) :
    Below (PlanBuilder.nextSupportedConvolutionLength host context callees minimum)
      (PlanBuilder.nextSupportedConvolutionLength host context later minimum) := by
  unfold PlanBuilder.nextSupportedConvolutionLength
  split_ifs
  · exact belowSame _
  · refine belowBind (belowSame _) fun search => ?_
    cases search with
    | powerOnly => exact belowSame _
    | smooth =>
        exact belowBind (lengthCostGrows below _) fun cost =>
          belowBind (belowLoop (compareSmoothGrows below minimum) _) fun _ => belowSame _
    | window =>
        dsimp only
        split
        · exact belowSame _
        · exact belowBind (lengthCostGrows below _) fun cost =>
            belowBind (belowLoop (compareLengthGrows below) _) fun _ => belowSame _

theorem fourStepNodeGrows (below : callees.Below later) (n n1 n2 : ℕ) :
    Below (fourStepNode callees n n1 n2) (fourStepNode later n n1 n2) :=
  belowBind (below.node n1 false) fun _ => belowBind (below.node n2 false) fun _ => belowSame _

theorem makeBluesteinGrows (below : callees.Below later) (n : ℕ) :
    Below (makeBluesteinPlan host context callees n) (makeBluesteinPlan host context later n) := by
  refine belowBind (nextLengthGrows below _) fun found => ?_
  dsimp only
  split_ifs
  all_goals first
    | exact belowBind (fourStepNodeGrows below _ _ _) fun _ => belowSame _
    | exact belowBind (below.node _ false) fun _ => belowSame _

theorem makeRaderGrows (below : callees.Below later) (n : ℕ) :
    Below (makeRaderPlan host context callees n) (makeRaderPlan host context later n) := by
  refine belowBind (belowSame _) fun root => belowBind (belowSame _) fun idx => ?_
  by_cases tuned : tunedRaderSplit host context n
  · simp only [tuned, if_true]
    exact belowBind (fourStepNodeGrows below _ _ _) fun _ => belowSame _
  · simp only [tuned, if_false]
    exact belowBind (below.node _ false) fun _ => belowSame _

theorem npuCandidatesGrow (below : callees.Below later) (n : ℕ) :
    Below (npuCandidates host context callees n) (npuCandidates host context later n) := by
  refine belowBind (belowSame _) fun short => ?_
  cases short with
  | some candidates => exact belowSame _
  | none => exact belowBind (makeBluesteinGrows below n) fun _ => belowSame _

theorem threadLocalGrows (below : callees.Below later) (n : ℕ) :
    Below (threadLocalRoute host context callees n) (threadLocalRoute host context later n) := by
  unfold threadLocalRoute
  split_ifs
  · exact belowBind (fourStepCostGrows below _ _) fun _ => belowSame _
  · exact belowSame _

theorem splitRouteGrows (below : callees.Below later) (n : ℕ) (candidates : List (PlanCandidate ℚ)) (n1 : ℕ) :
    Below (splitRoute host context callees n candidates n1) (splitRoute host context later n candidates n1) := by
  unfold splitRoute
  split_ifs
  · exact belowSame _
  · refine belowCatching ?_ fun _ => belowSame _
    exact belowBind (fourStepNodeGrows below n n1 _) fun _ => belowBind (fourStepCostGrows below n1 _) fun _ => belowSame _

theorem primeRouteGrows (below : callees.Below later) (n : ℕ) :
    Below (primeRoute host context callees n) (primeRoute host context later n) := by
  refine belowBind (makeBluesteinGrows below n) fun made => belowBind (bluesteinCostGrows below n made.2) fun cost => ?_
  dsimp only
  split_ifs
  all_goals first
    | exact belowBind (makeRaderGrows below n) fun _ => belowBind (raderCostGrows below n) fun _ => belowSame _
    | exact belowSame _

theorem genericGrow (below : callees.Below later) (n : ℕ) :
    Below (genericCandidates host context callees n) (genericCandidates host context later n) := by
  refine belowBind (belowSame _) fun leaf => belowBind (threadLocalGrows below n) fun threadLocal => ?_
  refine belowBind (belowLoop (splitRouteGrows below n) _) fun candidates => ?_
  split_ifs
  · exact primeRouteGrows below n
  · exact belowSame _

theorem candidatesGrow (below : callees.Below later) (n : ℕ) :
    Below (buildAutoCandidates host context callees n) (buildAutoCandidates host context later n) := by
  unfold buildAutoCandidates
  split_ifs
  · exact belowSame _
  · exact npuCandidatesGrow below n
  · exact genericGrow below n

theorem withHeuristicGrows {α : Type} {search search' : Build α} (allow : Bool) (below : Below search search') :
    Below (withHeuristic allow search) (withHeuristic allow search') :=
  belowBind (belowSame _) fun _ => belowBind (belowSame _) fun _ =>
    belowBind (belowCatching below fun _ => belowSame _) fun _ => belowSame _

theorem buildAutoNodeGrows (below : callees.Below later) (n : ℕ) (allow : Bool) :
    Below (buildAutoNode host context callees n allow) (buildAutoNode host context later n allow) := by
  refine belowBind (belowSame _) fun caches => ?_
  cases caches.node n with
  | some node => exact belowSame _
  | none =>
      refine belowBind (withHeuristicGrows allow ?_) fun _ => belowSame _
      exact belowBind (candidatesGrow below n) fun _ => belowSame _

theorem costForGrows (below : callees.Below later) (n : ℕ) :
    Below (costFor host context callees n) (costFor host context later n) := by
  refine belowBind (belowSame _) fun caches => ?_
  cases caches.cost n with
  | some cost => exact belowSame _
  | none => exact belowBind (withHeuristicGrows false (candidatesGrow below n)) fun _ => belowSame _

theorem levelGrows (fuel : ℕ) : (level host context fuel).Below (level host context (fuel + 1)) := by
  induction fuel with
  | zero => exact ⟨fun _ _ => belowOutOfFuel _, fun _ => belowOutOfFuel _⟩
  | succ fuel ih => exact ⟨buildAutoNodeGrows ih, costForGrows ih⟩

end Growth

end FlagFft.Plan
