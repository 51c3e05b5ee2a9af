import FlagFft.Plan.Decomposition

/-! What a builder hands out, call after call: a well-planned tree for the length it is asked for, whatever was asked before
and on whatever request; no call runs forever. -/
namespace FlagFft.Plan
open Library.Fuel

/- Both searches of a length have an outcome, and a good one. -/
structure Able (callees : Callees) (n : ℕ) : Prop where
  node : ∀ allow, Delivers Remembers (callees.node n allow) (WellPlanned n)
  cost : Delivers Remembers (callees.cost n) fun _ => True

/- The lengths a root may ask for. -/
structure Enough (callees : Callees) (n : ℕ) : Prop where
  below : SoundCallees callees
  ready : ∀ m ≤ 4 * n + 1, Ready callees m

def callFuel (n : ℕ) : ℕ := 16 * n + 6

theorem enoughFuel (host : Host) (context : RequestContext) {fuel n : ℕ} (enough : callFuel n ≤ fuel) :
    Enough (level host context fuel) n where
  below := levelSound fuel
  ready m less := lengthReady host context m fuel (by unfold callFuel at enough; omega)

section Roots
variable {host : BuilderHost} {context : RequestContext} {request : BuildRequest} {callees : Callees} {n n1 n2 : ℕ}

theorem Enough.able (enough : Enough callees n) {m : ℕ} (less : m ≤ 4 * n + 1) : Able callees m where
  node allow := delivers ((enough.ready m less).node allow) (enough.below.node m allow)
  cost := delivers (enough.ready m less).cost (enough.below.cost m)

theorem fourStepNodeDelivers (row : Able callees n1) (col : Able callees n2) (product : n1 * n2 = n) (several : 1 < n1)
    (several' : 1 < n2) : Delivers Remembers (fourStepNode callees n n1 n2) (WellPlanned n) :=
  deliversBind (row.node false) fun _ rows => deliversBind (col.node false) fun _ cols =>
    deliversPure (.fourStep product several several' rows cols)

def FoundRoot (n : ℕ) (found : Option PlanNode) : Prop := ∀ node, found = some node → WellPlanned n node

theorem foundRoot_ {node : PlanNode} (planned : WellPlanned n node) : FoundRoot n (some node) := by
  intro found same
  cases same
  exact planned

theorem noRoot : FoundRoot n none := fun _ same => nomatch same

/- Both children of a split. -/
def Children (n1 n2 : ℕ) (pair : PlanNode × PlanNode) : Prop := WellPlanned n1 pair.1 ∧ WellPlanned n2 pair.2

theorem properSplit {m : ℤ} (proper : ¬ (m ≤ 1 ∨ (n : ℤ) ≤ m ∨ (n : ℤ) % m ≠ 0)) :
    ((m.toNat : ℕ) : ℤ) = m ∧ m.toNat * (n / m.toNat) = n ∧ 1 < m.toNat ∧ 1 < n / m.toNat ∧ m.toNat ≤ n ∧ n / m.toNat ≤ n := by
  simp only [not_or, not_le, not_not] at proper
  obtain ⟨several, less, whole⟩ := proper
  have same : ((m.toNat : ℕ) : ℤ) = m := Int.toNat_of_nonneg (by omega)
  have divides : m.toNat ∣ n := by
    rw [← Int.natCast_dvd_natCast, same]
    exact Int.dvd_of_emod_eq_zero whole
  obtain ⟨_, several', less'⟩ := quotientProper divides (by omega) (by omega)
  exact ⟨same, Nat.mul_div_cancel' divides, by omega, several', by omega, less'.le⟩

theorem forcedSplitDelivers {name complaint : String} {children : ℕ → ℕ → Build (PlanNode × PlanNode)}
    (each : ∀ n1 n2, n1 ≤ n → n2 ≤ n → Delivers Remembers (children n1 n2) (Children n1 n2)) :
    Delivers Remembers (forcedSplit host name complaint n children) (FoundRoot n) := by
  unfold forcedSplit
  split
  · exact deliversPure noRoot
  · exact deliversPure noRoot
  · refine deliversBind (deliversOfExcept fun _ _ => trivial) fun target (_ : True) => ?_
    obtain ⟨targetLength, n1⟩ := target
    dsimp only
    split_ifs with here bad
    · exact deliversThrow
    · obtain ⟨same, product, several, several', less, less'⟩ := properSplit bad
      refine deliversBind (each n1.toNat (n / n1.toNat) less less') fun pair planned => ?_
      obtain ⟨row, col⟩ := pair
      have node := WellPlanned.fourStep product several several' planned.1 planned.2
      rw [same] at node
      exact deliversPure (foundRoot_ node)
    · exact deliversPure noRoot

theorem searchedChildrenDeliver (row : Able callees n1) (col : Able callees n2) :
    Delivers Remembers (searchedChildren callees n1 n2) (Children n1 n2) :=
  deliversBind (row.node false) fun _ rows => deliversBind (col.node false) fun _ cols => deliversPure ⟨rows, cols⟩

theorem selectDelivers : Delivers Remembers (selectLeafFactors host.toHost context n) (RadixFactors n) :=
  delivers selectLeafFactorsEnds selectSound

theorem madeLeaf {factors : List ℕ} (radices : RadixFactors n factors) :
    Delivers Remembers (Program.ofExcept (makeLeafPlan context n factors) : Build PlanNode) (WellPlanned n) :=
  deliversOfExcept fun _ made => makeLeafSound radices made

theorem leafChildrenDeliver : Delivers Remembers (leafChildren host context n1 n2) (Children n1 n2) := by
  refine deliversBind selectDelivers fun rowFactors rows => deliversBind selectDelivers fun colFactors cols => ?_
  split_ifs
  · exact deliversThrow
  · exact deliversBind (madeLeaf rows) fun row one => deliversBind (madeLeaf cols) fun col two => deliversPure ⟨one, two⟩

theorem npuChildrenDeliver (row : Able callees n1) (col : Able callees n2) :
    Delivers Remembers (npuChildren host context callees n1 n2) (Children n1 n2) := by
  unfold npuChildren
  split_ifs
  · exact leafChildrenDeliver
  · exact searchedChildrenDeliver row col

theorem aiv64Delivers (useAiv64 : Bool) :
    Delivers Remembers (aiv64Factors host context useAiv64 n) fun found => ∀ factors, found = some factors → RadixFactors n factors := by
  unfold aiv64Factors
  split_ifs
  · refine deliversBind selectDelivers fun factors radices => deliversPure fun found same => ?_
    split_ifs at same
    cases same
    exact radices
  · exact deliversPure fun _ same => nomatch same

theorem npu3dChildDelivers (useAiv64 : Bool) (able : Able callees n) :
    Delivers Remembers (npu3dChild host context callees useAiv64 n) (WellPlanned n) := by
  refine deliversBind (aiv64Delivers useAiv64) fun found radices => ?_
  cases found with
  | some factors => exact madeLeaf (radices factors rfl)
  | none =>
      dsimp only
      split_ifs
      · refine deliversBind selectDelivers fun factors radices => ?_
        split_ifs
        · exact deliversThrow
        · exact madeLeaf radices
      · exact able.node false

theorem npu3dChildrenDeliver (useAiv64 : Bool) (row : Able callees n1) (col : Able callees n2) :
    Delivers Remembers (npu3dChildren host context callees useAiv64 n1 n2) (Children n1 n2) :=
  deliversBind (npu3dChildDelivers useAiv64 row) fun _ rows => deliversBind (npu3dChildDelivers useAiv64 col) fun _ cols =>
    deliversPure ⟨rows, cols⟩

theorem measuredRootDelivers {applies : Prop} [Decidable applies] (enough : Enough callees n)
    (proper : applies → n1 ∣ n ∧ 1 < n1 ∧ n1 < n) : Delivers Remembers (measuredRoot callees n applies n1) (FoundRoot n) := by
  unfold measuredRoot
  split_ifs with here
  · obtain ⟨divides, several, less⟩ := proper here
    obtain ⟨_, several', less'⟩ := quotientProper divides several less
    refine deliversBind (fourStepNodeDelivers (enough.able (by omega)) (enough.able (by omega)) (Nat.mul_div_cancel' divides) several several')
      fun node planned => deliversPure (foundRoot_ planned)
  · exact deliversPure noRoot

theorem onlyDelivers {α : Type} {applies : Prop} [Decidable applies] {route : Build (Option α)} {good : Option α → Prop}
    (nothing : good none) (taken : applies → Delivers Remembers route good) : Delivers Remembers (only applies route) good := by
  unfold only
  split_ifs with here
  · exact taken here
  · exact deliversPure nothing

theorem aiv64RootDelivers (useAiv64 : Bool) : Delivers Remembers (aiv64Root host context n useAiv64) (FoundRoot n) := by
  refine deliversBind (aiv64Delivers useAiv64) fun found radices => ?_
  cases found with
  | some factors => exact deliversBind (madeLeaf (radices factors rfl)) fun node planned => deliversPure (foundRoot_ planned)
  | none => exact deliversPure noRoot

/- The splits and the convolutions of the experiments fit their lengths. -/
inductive TailOk (n : ℕ) (plan : MacaTailPlan) : Prop where
  | searched (name : plan.name = "default")
  | split (product : plan.first * plan.second = n) (several : 1 < plan.first) (several' : 1 < plan.second)
  | rader (second : plan.second = 0) (name : plan.name = "rader1008")
  | convolution (second : plan.second = 0) (positive : 0 < n) (long : 2 * n - 1 ≤ plan.first) (most : plan.first ≤ 4 * n + 1)

theorem raderTailDelivers (enough : Enough callees n) : Delivers Remembers (do
    let root ← Program.ofExcept (findPrimitiveRoot n)
    let idx ← Program.ofExcept (buildRaderIndexTable n root)
    let conv ← callees.node (n - 1) false
    pure (.rader n root (idx.map fun i : ℕ => (i : ℤ)) conv) : Build PlanNode) (WellPlanned n) := by
  refine deliversBind (deliversOfExcept fun _ same => same) fun root found => ?_
  refine deliversBind (deliversOfExcept fun _ same => same) fun idx table => ?_
  obtain ⟨prime, positive, less, order⟩ := foundRoot found
  rw [foundTable table]
  exact deliversBind ((enough.able (by omega)).node false) fun conv planned => deliversPure (.rader prime positive less order planned)

theorem buildTailDelivers {plan : MacaTailPlan} (enough : Enough callees n) (ok : TailOk n plan) :
    Delivers Remembers (buildMacaTailPlan n callees plan) (WellPlanned n) := by
  unfold buildMacaTailPlan
  by_cases searched : plan.name = "default"
  · rw [if_pos searched]
    exact (enough.able (by omega)).node true
  rw [if_neg searched]
  cases ok with
  | searched name => exact absurd name searched
  | split product several several' =>
      rw [if_pos (by omega)]
      have less : plan.first ≤ n := product ▸ Nat.le_mul_of_pos_right _ (by omega)
      have less' : plan.second ≤ n := product ▸ Nat.le_mul_of_pos_left _ (by omega)
      exact fourStepNodeDelivers (enough.able (by omega)) (enough.able (by omega)) product several several'
  | rader second name =>
      rw [if_neg (by omega), if_pos name]
      exact raderTailDelivers enough
  | convolution second positive long most =>
      rw [if_neg (by omega)]
      split_ifs
      · exact raderTailDelivers enough
      · exact deliversBind ((enough.able most).node false) fun fft planned => deliversPure (.bluestein positive long most planned)

/- The policy itself only names plans of the lengths it was measured for. -/
theorem automaticTailOk {name : String} (automatic : automaticTail host request = .ok name) :
    name = "" ∨ (name = "bs2048" ∧ (request.requestedN = 997 ∨ request.requestedN = 1009)) ∨
      (name = "ct1024x1024" ∧ request.requestedN = 1048576) := by
  unfold automaticTail macaTailAutomaticPlan at automatic
  cases enabled : macaTailPolicyEnabled host.environment request.toFftRequest with
  | error message => simp [enabled, bind, Except.bind, Except.mapError] at automatic
  | ok on =>
      simp only [enabled, bind, Except.bind, pure, Except.pure] at automatic
      split_ifs at automatic <;> simp only [Except.mapError, Except.ok.injEq] at automatic <;> subst automatic <;> simp_all

theorem experimentsOk : ∀ plan ∈ tailExperiments request n, TailOk n plan := by
  unfold tailExperiments
  split_ifs with first second third fourth fifth
  · obtain rfl := first.1
    simp only [List.forall_mem_cons, List.not_mem_nil, false_imp_iff, implies_true, and_true]
    exact ⟨.convolution rfl (by decide) (by decide) (by decide), .convolution rfl (by decide) (by decide) (by decide)⟩
  · obtain rfl := second.1
    simp only [List.forall_mem_cons, List.not_mem_nil, false_imp_iff, implies_true, and_true]
    exact ⟨.rader rfl rfl, .convolution rfl (by decide) (by decide) (by decide)⟩
  · obtain rfl := third.1
    simp only [List.forall_mem_cons, List.not_mem_nil, false_imp_iff, implies_true, and_true]
    exact ⟨.split rfl (by decide) (by decide), .split rfl (by decide) (by decide)⟩
  · obtain rfl := fourth.1
    simp only [List.forall_mem_cons, List.not_mem_nil, false_imp_iff, implies_true, and_true]
    exact ⟨.split rfl (by decide) (by decide), .split rfl (by decide) (by decide), .split rfl (by decide) (by decide)⟩
  · obtain rfl := fifth.1
    simp only [List.forall_mem_cons, List.not_mem_nil, false_imp_iff, implies_true, and_true]
    exact ⟨.split rfl (by decide) (by decide), .split rfl (by decide) (by decide), .split rfl (by decide) (by decide)⟩
  · simp

theorem chosenExperiment {tuning : Bool} {setting : String} {plans chosen : List MacaTailPlan} (all : ∀ plan ∈ plans, TailOk n plan)
    (found : chooseExperiment tuning setting plans = .ok chosen) : ∀ plan ∈ chosen, TailOk n plan := by
  unfold chooseExperiment at found
  split_ifs at found
  · cases found
    exact all
  · cases found
    simpa using TailOk.searched rfl
  · cases named : plans.find? (·.name == setting) with
    | none => simp [named] at found
    | some plan =>
        simp only [named, Except.ok.injEq] at found
        subst found
        simpa using all plan (List.mem_of_find?_eq_some named)

theorem macaTailPlansOk {tuning : Bool} {plans : List MacaTailPlan} (found : macaTailPlans host request n tuning = .ok plans) :
    ∀ plan ∈ plans, TailOk n plan := by
  unfold macaTailPlans at found
  cases automatic : automaticTail host request with
  | error message => simp [automatic, bind, Except.bind] at found
  | ok name =>
      have named := automaticTailOk automatic
      simp only [automatic, bind, Except.bind, pure, Except.pure] at found
      split_ifs at found with bs ct other
      · cases found
        obtain ⟨same, rfl⟩ := bs
        have length : n = 997 ∨ n = 1009 := by
          simp only [String.reduceEq, false_and, true_and, or_false, false_or] at named
          omega
        rcases length with rfl | rfl <;>
          simpa using @TailOk.convolution _ ⟨"bs2048", 2048, 0⟩ rfl (by decide) (by decide) (by decide)
      · cases found
        obtain ⟨same, rfl⟩ := ct
        have length : n = 1048576 := by
          simp only [String.reduceEq, false_and, true_and, false_or] at named
          omega
        subst length
        simpa using @TailOk.split _ ⟨"ct1024x1024", 1024, 1024⟩ rfl (by decide) (by decide)
      · -- no policy names this plan
        obtain ⟨_, rfl⟩ := other
        simp at named
      · unfold settingExperiments at found
        split at found
        · cases found
          simp
        · cases found
          simp
        · split_ifs at found
          · cases found
            simp
          · exact chosenExperiment experimentsOk found

theorem macaTailRootDelivers (enough : Enough callees n) : Delivers Remembers (macaTailRoot host request callees n) (FoundRoot n) := by
  refine deliversBind (deliversOfExcept fun _ found => macaTailPlansOk found) fun experiments ok => ?_
  cases experiments with
  | nil => exact deliversPure noRoot
  | cons plan rest =>
      exact deliversBind (buildTailDelivers enough (ok plan List.mem_cons_self)) fun node planned => deliversPure (foundRoot_ planned)

theorem operatorSplits (some_ : npuOperatorN1 n ≠ 0) : npuOperatorN1 n ∣ n ∧ 1 < npuOperatorN1 n ∧ npuOperatorN1 n < n := by
  unfold npuOperatorN1 at some_ ⊢
  split_ifs at some_ ⊢ with one two three four five six
  · exact one ▸ by decide
  · exact two ▸ by decide
  · exact three ▸ by decide
  · exact four ▸ by decide
  · exact five ▸ by decide
  · exact six ▸ by decide
  · exact absurd rfl some_

theorem rootRoutesDeliver (enough : Enough callees n) :
    ∀ route ∈ rootRoutes host context request callees n, Delivers Remembers route (FoundRoot n) := by
  have able : ∀ m ≤ n, Able callees m := fun m less => enough.able (by omega)
  simp only [rootRoutes, List.forall_mem_cons, List.not_mem_nil, false_imp_iff, implies_true, and_true]
  refine ⟨?hcu, ?hcuMeasured, ?npu, ?npuPlane, ?aiv64, ?npuCube, ?operator, macaTailRootDelivers enough, ?maca⟩
  case hcu => exact onlyDelivers noRoot fun _ => forcedSplitDelivers fun n1 n2 less less' =>
    searchedChildrenDeliver (able n1 less) (able n2 less')
  case hcuMeasured => exact measuredRootDelivers enough fun here => here.2 ▸ by decide
  case npu => exact onlyDelivers noRoot fun _ => forcedSplitDelivers fun n1 n2 less less' =>
    npuChildrenDeliver (able n1 less) (able n2 less')
  case npuPlane => exact onlyDelivers noRoot fun _ => forcedSplitDelivers fun n1 n2 less less' =>
    npuChildrenDeliver (able n1 less) (able n2 less')
  case aiv64 => exact onlyDelivers noRoot fun _ => aiv64RootDelivers _
  case npuCube => exact onlyDelivers noRoot fun _ => forcedSplitDelivers fun n1 n2 less less' =>
    npu3dChildrenDeliver _ (able n1 less) (able n2 less')
  case operator => exact measuredRootDelivers enough fun here => operatorSplits here.2.2.2.2.2
  case maca =>
    refine measuredRootDelivers enough fun here => ?_
    rcases here.2 with rfl | rfl <;> decide

theorem tryEachDelivers {routes : List (Build (Option PlanNode))} (all : ∀ route ∈ routes, Delivers Remembers route (FoundRoot n)) :
    Delivers Remembers (tryEach routes) (FoundRoot n) := by
  induction routes with
  | nil => exact deliversPure noRoot
  | cons route rest ih =>
      refine deliversBind (all route List.mem_cons_self) fun found ok => ?_
      cases found with
      | some found => exact deliversPure ok
      | none => exact ih fun other member => all other (List.mem_cons_of_mem route member)

theorem buildRootDelivers (enough : Enough callees n) :
    Delivers Remembers (buildRoot host context request callees n) (WellPlanned n) := by
  refine deliversBind (tryEachDelivers (rootRoutesDeliver enough)) fun found ok => ?_
  cases found with
  | some node => exact deliversPure (ok node rfl)
  | none => exact (enough.able (by omega)).node true

end Roots

section Decompositions
variable {host : BuilderHost} {context : RequestContext} {request : BuildRequest} {callees : Callees} {n : ℕ} {limit : ℤ}
  {unique : Unique ℚ}

def Planned (n : ℕ) (candidate : PlanCandidate ℚ) : Prop := WellPlanned n candidate.node

def UniquePlanned (n : ℕ) (unique : Unique ℚ) : Prop := Candidates n unique.result

theorem appendPlanned (good : UniquePlanned n unique) {candidate : PlanCandidate ℚ} (planned : Planned n candidate) :
    UniquePlanned n (appendUnique unique candidate) := by
  unfold appendUnique
  split_ifs
  · exact good
  · exact appendCandidates good fun other member => List.mem_singleton.mp member ▸ planned

theorem whileRoomDelivers {candidate : Build (PlanCandidate ℚ)} (built : Delivers Remembers candidate (Planned n))
    (good : UniquePlanned n unique) : Delivers Remembers (whileRoom limit candidate unique) (UniquePlanned n) := by
  unfold whileRoom
  split_ifs
  · exact deliversBind built fun candidate planned => deliversPure (appendPlanned good planned)
  · exact deliversPure good

theorem convolutionCostDelivers (enough : Enough callees n) {c : ℕ} (most : c ≤ 4 * n + 1) :
    Delivers Remembers (bluesteinCost callees n c) fun _ => True :=
  deliversBind (enough.able most).cost fun _ _ => deliversPure trivial

theorem raderCostDelivers (enough : Enough callees n) : Delivers Remembers (raderCost callees n) fun _ => True :=
  deliversBind (enough.able (by omega)).cost fun _ _ => deliversPure trivial

theorem splitCostDelivers (enough : Enough callees n) {n1 n2 : ℕ} (first : n1 ≤ 4 * n + 1) (second : n2 ≤ 4 * n + 1) :
    Delivers Remembers (fourStepCost host.toHost context callees n1 n2) fun _ => True :=
  delivers (fourStepCostEnds (enough.ready n1 first) (enough.ready n2 second)) (fourStepCostSound enough.below)

theorem bluesteinDelivers (enough : Enough callees n) (positive : 0 < n) :
    Delivers Remembers (makeBluesteinPlan host.toHost context callees n) fun made => WellPlanned n made.1 ∧ made.2 ≤ 4 * n + 1 :=
  delivers (makeBluesteinEnds fun c length => enough.ready c length.2) (makeBluesteinSound enough.below positive)

theorem bluesteinCandidateDelivers (enough : Enough callees n) (positive : 0 < n) :
    Delivers Remembers (bluesteinCandidate host context callees n) (Planned n) :=
  deliversBind (bluesteinDelivers enough positive) fun _ made => deliversBind (convolutionCostDelivers enough made.2) fun _ _ =>
    deliversPure made.1

theorem raderCandidateDelivers (enough : Enough callees n) : Delivers Remembers (raderCandidate host context callees n) (Planned n) := by
  have ends : Ends (makeRaderPlan host.toHost context callees n) fun _ => True :=
    makeRaderEnds fun m less => enough.ready m (by omega)
  exact deliversBind (delivers ends (makeRaderSound enough.below)) fun rader planned =>
    deliversBind (raderCostDelivers enough) fun _ _ => deliversPure planned

theorem tailCandidateDelivers {plan : MacaTailPlan} (enough : Enough callees n) (ok : TailOk n plan) :
    Delivers Remembers (tailCandidate host context callees n plan) (Planned n) := by
  refine deliversBind (buildTailDelivers enough ok) fun node planned => ?_
  cases planned with
  | bluestein positive long most convolution =>
      exact deliversBind (convolutionCostDelivers enough most) fun _ _ => deliversPure (.bluestein positive long most convolution)
  | fourStep product several several' rows cols =>
      rename_i n1 n2 row col
      have first : n1 ≤ n := product ▸ Nat.le_mul_of_pos_right _ (by omega)
      have second : n2 ≤ n := product ▸ Nat.le_mul_of_pos_left _ (by omega)
      exact deliversBind (splitCostDelivers enough (by simp; omega) (by simp; omega)) fun _ _ =>
        deliversPure (.fourStep product several several' rows cols)
  | rader prime positive less order convolution =>
      exact deliversBind (raderCostDelivers enough) fun _ _ => deliversPure (.rader prime positive less order convolution)
  | leaf leaf planned matrices numWarps warps =>
      exact deliversBind (deliversPure trivial) fun _ (_ : True) => deliversPure (.leaf leaf planned matrices numWarps warps)
  | directDft positive short => exact deliversBind (deliversPure trivial) fun _ (_ : True) => deliversPure (.directDft positive short)
  | stockham radices => exact deliversBind (deliversPure trivial) fun _ (_ : True) => deliversPure (.stockham radices)

/- A divisor that is not above its mate, or one. -/
theorem closestDivisorOk {power : ℕ} :
    closestDivisor power ∣ power ∧ (1 < closestDivisor power → closestDivisor power ≤ power / closestDivisor power) := by
  unfold closestDivisor
  generalize below : (enumerateDivisors power).takeWhile (fun divisor => decide (divisor ≤ power / divisor)) = divisors
  rcases List.eq_nil_or_concat divisors with rfl | ⟨before, last, rfl⟩
  · simp
  · have member : last ∈ (enumerateDivisors power).takeWhile fun divisor => decide (divisor ≤ power / divisor) := by simp [below]
    have divides := (memDivisors.mp (List.takeWhile_subset _ member)).2.2
    have all := @List.all_takeWhile _ (fun divisor => decide (divisor ≤ power / divisor)) (enumerateDivisors power)
    have least := List.all_eq_true.mp all last member
    simp only [List.concat_eq_append, List.getLastD_concat]
    exact ⟨divides, fun _ => by simpa using least⟩

theorem powerCandidatesDeliver (enough : Enough callees n) (positive : 0 < n) (good : UniquePlanned n unique) :
    Delivers Remembers (powerCandidates host context callees n limit unique) (UniquePlanned n) := by
  unfold powerCandidates
  split_ifs
  · have length : n + (n - 1) = 2 * n - 1 := by omega
    dsimp only
    rw [length]
    have long := leCeilPowerOfTwo (2 * n - 1)
    have most := bluesteinMinimum n
    have some_ : 0 < ceilPowerOfTwo (2 * n - 1) := Nat.two_pow_pos _
    generalize ceilPowerOfTwo (2 * n - 1) = power at *
    refine deliversBind ((enough.able most).node false) fun child planned => ?_
    refine deliversBind (convolutionCostDelivers enough most) fun cost _ => ?_
    have appended := @appendPlanned n unique good (candidateOf (.bluestein n power child) cost) (.bluestein positive long most planned)
    split_ifs
    · obtain ⟨divides, balanced⟩ := @closestDivisorOk power
      have small := Nat.le_of_dvd some_ divides
      have small' := Nat.div_le_self power (closestDivisor power)
      refine deliversBind ((enough.able (small.trans most)).node false) fun row rows => ?_
      refine deliversBind ((enough.able (small'.trans most)).node false) fun col cols => ?_
      split_ifs with leaves
      · refine deliversBind (splitCostDelivers enough (small.trans most) (small'.trans most)) fun cost _ => ?_
        have whole := Nat.mul_div_cancel' divides
        have tree := WellPlanned.fourStep whole leaves.1 (leaves.1.trans_le (balanced leaves.1)) rows cols
        exact deliversPure (appendPlanned appended (.bluestein positive long most tree))
      · exact deliversPure appended
    · exact deliversPure appended
  · exact deliversPure good

theorem raderAlternativeDelivers (enough : Enough callees n) (good : UniquePlanned n unique) :
    Delivers Remembers (raderAlternative host context callees n limit unique) (UniquePlanned n) := by
  unfold raderAlternative
  split_ifs
  · exact whileRoomDelivers (raderCandidateDelivers enough) good
  · exact deliversPure good

theorem primeAlternativesDeliver (enough : Enough callees n) (positive : 0 < n) (good : UniquePlanned n unique) :
    Delivers Remembers (primeAlternatives host context request callees n limit unique) (UniquePlanned n) := by
  refine deliversBind (whileRoomDelivers (bluesteinCandidateDelivers enough positive) good) fun unique good => ?_
  refine deliversBind (raderAlternativeDelivers enough good) fun unique good => ?_
  split_ifs
  · exact powerCandidatesDeliver enough positive good
  · exact deliversPure good

theorem splitAlternativeDelivers (enough : Enough callees n) {n1 : ℕ} (divides : n1 ∣ n) (several : 1 < n1) (less : n1 < n) :
    Delivers Remembers (splitAlternative callees n n1) (Planned n) := by
  obtain ⟨_, several', less'⟩ := quotientProper divides several less
  have row := enough.able (show n1 ≤ 4 * n + 1 by omega)
  have col := enough.able (show n / n1 ≤ 4 * n + 1 by omega)
  refine deliversBind (fourStepNodeDelivers row col (Nat.mul_div_cancel' divides) several several') fun node planned => ?_
  exact deliversBind row.cost fun _ _ => deliversBind col.cost fun _ _ => deliversPure planned

theorem otherSplitsDeliver (enough : Enough callees n) (automatic : PlanCandidate ℚ) (good : UniquePlanned n unique) :
    Delivers Remembers (otherSplits host callees n limit automatic unique) (UniquePlanned n) := by
  refine deliversLoop (fun n1 member unique good => ?_) good
  rw [balancedDivisors, List.mem_mergeSort, List.mem_filter, decide_eq_true_eq, memDivisors] at member
  obtain ⟨⟨_, _, divides⟩, several, less⟩ := member
  have built := @whileRoomDelivers n limit unique _ (splitAlternativeDelivers enough divides several less) good
  split
  · split_ifs
    · exact deliversPure good
    · exact built
  · exact built

theorem alternativesDeliver (enough : Enough callees n) (positive : 0 < n) (automatic : PlanCandidate ℚ)
    (good : UniquePlanned n unique) :
    Delivers Remembers (alternatives host context request callees n limit automatic unique) (UniquePlanned n) := by
  unfold alternatives
  split_ifs
  · exact primeAlternativesDeliver enough positive good
  · exact otherSplitsDeliver enough automatic good

theorem decompositionsDeliver (enough : Enough callees n) (positive : 0 < n) :
    Delivers Remembers (decompositions host context request callees n limit) (Candidates n) := by
  refine deliversBind (deliversOfExcept fun _ found => macaTailPlansOk found) fun experiments ok => ?_
  cases experiments with
  | cons plan rest =>
      dsimp only
      split_ifs
      · exact deliversThrow
      · refine deliversLoop (fun plan member candidates good => ?_) noCandidates
        refine deliversBind (tailCandidateDelivers enough (ok plan member)) fun candidate planned => ?_
        exact deliversPure (appendCandidates good fun other inside => List.mem_singleton.mp inside ▸ planned)
  | nil =>
      have ends : Ends (buildAutoCandidates host.toHost context callees n) fun _ => True :=
        candidatesEnd (fun c length => enough.ready c length.2) fun m less => enough.ready m (by omega)
      refine deliversBind (delivers ends (candidatesSound enough.below)) fun candidates good => ?_
      refine deliversBind (deliversOfExcept fun best chosen => selectCandidateOk good chosen) fun automatic planned => ?_
      have empty : UniquePlanned n ({} : Unique ℚ) := noCandidates
      exact deliversBind (alternativesDeliver enough positive automatic (appendPlanned empty planned)) fun unique good =>
        deliversPure good

end Decompositions

section Sessions

/- A call to a builder. -/
inductive BuilderCall where
  | build (n : ℤ) (request : BuildRequest)
  | costFor (n : ℕ) (request : BuildRequest)
  | buildDecompositionTuneCandidates (n : ℤ) (request : BuildRequest) (limit : ℤ)

def BuilderCall.length : BuilderCall → ℕ
  | build n _ | buildDecompositionTuneCandidates n _ _ => n.toNat
  | costFor n _ => n

/- The plans a call hands out. -/
def BuilderCall.run (host : BuilderHost) (fuel : ℕ) : BuilderCall → Session (List PlanNode)
  | build n request => do
    let node ← Session.build host fuel n request
    pure [node]
  | costFor n request => do
    let _ ← Session.costFor host fuel n request
    pure []
  | buildDecompositionTuneCandidates n request limit => do
    let candidates ← Session.buildDecompositionTuneCandidates host fuel n request limit
    pure (candidates.map PlanCandidate.node)

/- The states a builder can come to, whatever it was asked and however it answered. -/
inductive ReachedBuilder (host : BuilderHost) : BuilderState → Prop where
  | fresh : ReachedBuilder host freshBuilder
  | call {s s' : BuilderState} {fuel : ℕ} {asked : BuilderCall} {outcome : Except String (List PlanNode)}
      (before : ReachedBuilder host s) (ample : callFuel asked.length ≤ fuel) (run : asked.run host fuel s = some (outcome, s')) :
      ReachedBuilder host s'

def RemembersBuilder (s : BuilderState) : Prop := Remembers s.caches

def PlansFor (n : ℕ) (plans : List PlanNode) : Prop := ∀ plan ∈ plans, WellPlanned n plan

variable {host : BuilderHost} {fuel : ℕ}

theorem freshRemembers : RemembersBuilder freshBuilder where
  node _ _ known := nomatch known
  factors _ _ known := nomatch known

theorem setRequestContextDelivers {request : BuildRequest} :
    Delivers RemembersBuilder (setRequestContext host request) fun _ => True := by
  refine deliversBind (deliversOfExcept fun _ _ => trivial) fun next (_ : True) => deliversBind deliversGet fun current _ => ?_
  split_ifs
  · exact deliversPure trivial
  · refine deliversBind (deliversModify fun s remembers => ⟨?_, remembers.factors⟩) fun _ _ => deliversPure trivial
    intro _ _ known
    cases known

theorem onCachesDelivers {α : Type} {search : Build α} {good : α → Prop} (inside : Delivers Remembers search good) :
    Delivers RemembersBuilder (onCaches search) good :=
  deliversWithin inside (fun _ remembers => remembers) fun _ _ _ remembers => remembers

theorem buildDelivers {n : ℤ} {request : BuildRequest} (ample : callFuel n.toNat ≤ fuel) :
    Delivers RemembersBuilder (Session.build host fuel n request) (WellPlanned n.toNat) := by
  refine deliversBind setRequestContextDelivers fun context _ => ?_
  split_ifs
  · exact deliversThrow
  · exact onCachesDelivers (buildRootDelivers (enoughFuel host.toHost context ample))

theorem costForDelivers {n : ℕ} {request : BuildRequest} (ample : callFuel n ≤ fuel) :
    Delivers RemembersBuilder (Session.costFor host fuel n request) fun _ => True :=
  deliversBind setRequestContextDelivers fun context _ =>
    onCachesDelivers ((enoughFuel host.toHost context ample).able (by omega)).cost

theorem decompositionTuneCandidatesDeliver {n limit : ℤ} {request : BuildRequest} (ample : callFuel n.toNat ≤ fuel) :
    Delivers RemembersBuilder (Session.buildDecompositionTuneCandidates host fuel n request limit) (Candidates n.toNat) := by
  unfold Session.buildDecompositionTuneCandidates
  split_ifs with empty
  · exact deliversThrow
  · exact deliversThrow
  · exact deliversThrow
  · exact deliversBind setRequestContextDelivers fun context _ =>
      onCachesDelivers (decompositionsDeliver (enoughFuel host.toHost context ample) (by omega))

/- One call, from whatever the builder remembers. -/
theorem callDelivers (asked : BuilderCall) (ample : callFuel asked.length ≤ fuel) :
    Delivers RemembersBuilder (asked.run host fuel) (PlansFor asked.length) := by
  cases asked with
  | build n request =>
      refine deliversBind (buildDelivers ample) fun node planned => deliversPure fun plan member => ?_
      rw [List.mem_singleton.mp member]
      exact planned
  | costFor n request => exact deliversBind (costForDelivers ample) fun _ _ => deliversPure fun _ member => nomatch member
  | buildDecompositionTuneCandidates n request limit =>
      refine deliversBind (decompositionTuneCandidatesDeliver ample) fun candidates good => deliversPure fun plan member => ?_
      obtain ⟨candidate, inside, rfl⟩ := List.mem_map.mp member
      exact good candidate inside

theorem reachedRemembers {s : BuilderState} (reached : ReachedBuilder host s) : RemembersBuilder s := by
  induction reached with
  | fresh => exact freshRemembers
  | @call s s' fuel asked outcome before ample run ih =>
      obtain ⟨result, t, here, kept, _⟩ := callDelivers asked ample s ih
      rw [run] at here
      cases here
      exact kept

theorem sessionsWellPlanned {s : BuilderState} (reached : ReachedBuilder host s) (asked : BuilderCall)
    (ample : callFuel asked.length ≤ fuel) :
    ∃ outcome s', asked.run host fuel s = some (outcome, s') ∧ ReachedBuilder host s' ∧
      (∀ plans, outcome = .ok plans → ∀ plan ∈ plans, WellPlanned asked.length plan) ∧
      ∀ n node, s'.caches.node n = some node → WellPlanned n node := by
  obtain ⟨outcome, s', run, kept, good⟩ := callDelivers asked ample s (reachedRemembers reached)
  exact ⟨outcome, s', run, .call reached ample run, good, kept.node⟩

def plainHost : BuilderHost where
  getenv _ := none
  stoll _ := none
  log n := n
  backendName := "cuda"
  maxDynamicSmemBytes _ := 101376

def plainRequest (n : ℕ) : BuildRequest where
  requestedN := n
  batch := 1
  rawDim := 1
  originRank := 1
  realTransform := false
  realTransformKind := ""
  norm := "backward"
  inputDtype := "complex64"
  outputDtype := "complex64"
  deviceType := "cuda"
  deviceArch := "80"
  inputLayout := "contiguous"
  direction := "forward"
  originRealTransformKind := ""
  deviceIndex := 0
  maca3dC2c32SingleCube := false
  fftLength := n
  inputStrides := [1]
  packedRealChild := false

theorem sessionsWellPlannedPrime : ∃ outcome s',
    (BuilderCall.build 1009 (plainRequest 1009)).run plainHost 16150 freshBuilder = some (outcome, s') ∧ ReachedBuilder plainHost s' ∧
      (∀ plans, outcome = .ok plans → ∀ plan ∈ plans, WellPlanned 1009 plan) ∧
      ∀ n node, s'.caches.node n = some node → WellPlanned n node :=
  sessionsWellPlanned .fresh (.build 1009 (plainRequest 1009)) (by decide)

end Sessions

end FlagFft.Plan
