import FlagFft.Codegen.LeafTables
import FlagFft.Leaf.SingleBuffer
import FlagFft.Leaf.Run
import Mathlib.Tactic.Linarith
import Mathlib.RingTheory.RootsOfUnity.Complex

/-! When a generated leaf gets a single shared buffer, and when that is safe. The test for contiguous leaves asks for one
register group per stage, the test for the fused 1024-point leaves does not. -/
namespace FlagFft.Codegen
open Leaf Leaf.SharedStages Library.Indexing Library.MixedRadix

section Overwrite

variable {plan : StagePlan} {stage : ℕ}

theorem keptByOneGroup (h : stage + 1 < plan.stages) (one : plan.groups stage = 1) : NoOverwrite plan stage := by
  intro c hc q hq
  have inside := Nat.lt_of_succ_lt h
  have share := (plan.share inside).2
  have below := plan.routeLt h hc hq
  rw [one, Nat.mul_one] at share
  rw [plan.elements inside, ← share] at below
  rw [Nat.div_eq_of_lt below]
  exact Nat.zero_le _

/- Whole columns of codelets, stored in natural order. -/
theorem keptByColumns (h : stage + 1 < plan.stages) (columns : prefixProduct plan.factors stage ∣ plan.lanes stage)
    (next : plan.groups (stage + 1) = 1) : NoOverwrite plan stage := by
  intro c hc q hq
  have inside := Nat.lt_of_succ_lt h
  obtain ⟨positive, _, _⟩ := productsPositive plan.positive inside
  have share := (plan.share h).2
  rw [next, Nat.mul_one] at share
  obtain ⟨codelet, _, _⟩ := nextInside plan.positive h hc hq
  obtain ⟨count, lanes⟩ := columns
  have low : c % prefixProduct plan.factors stage + prefixProduct plan.factors stage * q <
      prefixProduct plan.factors stage * plan.radix stage := laneGroupLt (Nat.mod_lt _ positive) hq
  have natural : plan.route stage c q = c % prefixProduct plan.factors stage + prefixProduct plan.factors stage * q +
      prefixProduct plan.factors stage * plan.radix stage * (c / prefixProduct plan.factors stage) := by
    have inner := codelet.trans_eq share.symm
    rw [StagePlan.route, StagePlan.element, blocked, Nat.mod_eq_of_lt inner, Nat.div_eq_of_lt inner, share, nextCodelet,
      nextDigit, StagePlan.codelets, prefixProductSucc inside]
    conv_rhs => rw [← Nat.mod_add_div (c / prefixProduct plan.factors stage) (suffixProduct plan.factors (stage + 2))]
    simp only [StagePlan.radix]
    ring
  have blocks : plan.lanes stage * plan.radix stage = prefixProduct plan.factors stage * plan.radix stage * count := by
    rw [lanes]
    ring
  rw [natural, blocks, ← Nat.div_div_eq_div_mul, laneGroupDiv low, lanes, ← Nat.div_div_eq_div_mul]

theorem twoPowersDivide {a b k : ℕ} (ha : a ∣ 2 ^ k) (hb : b ∣ 2 ^ k) : a ∣ b ∨ b ∣ a := by
  obtain ⟨i, _, rfl⟩ := (Nat.dvd_prime_pow Nat.prime_two).mp ha
  obtain ⟨j, _, rfl⟩ := (Nat.dvd_prime_pow Nat.prime_two).mp hb
  exact (le_total i j).imp (pow_dvd_pow 2) (pow_dvd_pow 2)

theorem blockedAbove {lanes radix codelet : ℕ} (positive : 0 < radix) : codelet ≤ blocked lanes radix codelet 0 := by
  rw [blocked, Nat.add_zero]
  conv_lhs => rw [← Nat.mod_add_div codelet lanes]
  exact Nat.add_le_add_left (Nat.mul_le_mul_left _ (Nat.le_mul_of_pos_right _ positive)) _

/- The last lane of the first group, where the columns are longer than the group. -/
theorem lostBelowColumn (h : stage + 1 < plan.stages) (wide : 2 ≤ plan.radix stage)
    (short : 2 * plan.lanes stage ≤ prefixProduct plan.factors stage) : ¬NoOverwrite plan stage := by
  intro kept
  have inside := Nat.lt_of_succ_lt h
  obtain ⟨positive, share⟩ := plan.share inside
  have next := (productsPositive plan.positive h).2.1
  have total := (productsPositive plan.positive inside).2.2
  have column : plan.lanes stage - 1 < prefixProduct plan.factors stage := by omega
  have hc : plan.lanes stage - 1 < plan.codelets stage := column.trans_le (Nat.le_mul_of_pos_right _ total)
  have block := kept _ hc (plan.radix stage - 1) (by omega)
  have above : plan.lanes stage - 1 + prefixProduct plan.factors stage * (plan.radix stage - 1) ≤
      plan.route stage (plan.lanes stage - 1) (plan.radix stage - 1) := by
    rw [StagePlan.route, StagePlan.element, nextCodelet, nextDigit, Nat.mod_eq_of_lt column, Nat.div_eq_of_lt column,
      Nat.zero_mod, Nat.zero_div, Nat.mul_zero, Nat.add_zero]
    exact blockedAbove next
  rw [Nat.div_eq_of_lt (show plan.lanes stage - 1 < plan.lanes stage by omega), Nat.le_zero,
    Nat.div_eq_zero_iff_lt (Nat.mul_pos positive (by omega))] at block
  obtain ⟨extra, radix⟩ := Nat.exists_eq_add_of_le wide
  have columns := Nat.mul_le_mul_right (plan.radix stage - 1) short
  rw [radix] at block above columns
  have step : 2 * plan.lanes stage * (2 + extra - 1) = plan.lanes stage * (2 + extra) + plan.lanes stage * extra := by
    rw [show 2 + extra - 1 = 1 + extra by omega]
    ring
  omega

/- In numbers: the last store lies beyond the block its codelet was loaded from. -/
theorem storeBeyond {column time radix radixNext lanes groups lanesNext groupsNext : ℕ} (wide : 2 ≤ radix)
    (wideNext : 2 ≤ radixNext) (several : 2 ≤ groups) (severalNext : 2 ≤ groupsNext) (positive : 0 < column * time)
    (positiveLanes : 0 < lanes) (positiveNext : 0 < lanesNext) (share : lanes * groups = column * time * radixNext)
    (shareNext : lanesNext * groupsNext = column * time * radix)
    (comparable : lanes ∣ column * time ∨ column * time ∣ lanes) :
    (column * time - 1) / lanes < (lanesNext - 1 + lanesNext * ((groupsNext - 1) * radixNext)) / (lanes * radix) := by
  generalize column * time = codelets at *
  have far : codelets * radix * radixNext + codelets * radix ≤
      2 * (lanesNext + lanesNext * ((groupsNext - 1) * radixNext)) := by
    obtain ⟨g, rfl⟩ := Nat.exists_eq_add_of_le severalNext
    obtain ⟨s, rfl⟩ := Nat.exists_eq_add_of_le wideNext
    rw [← shareNext, show 2 + g - 1 = g + 1 by omega]
    calc lanesNext * (2 + g) * (2 + s) + lanesNext * (2 + g)
        ≤ lanesNext * (2 + g) * (2 + s) + lanesNext * (2 + g) + lanesNext * (g * s + g) := Nat.le_add_right _ _
      _ = 2 * (lanesNext + lanesNext * ((g + 1) * (2 + s))) := by ring
  have half : 2 * (lanes * radix) ≤ codelets * radix * radixNext :=
    calc 2 * (lanes * radix) = lanes * 2 * radix := by ring
      _ ≤ lanes * groups * radix := Nat.mul_le_mul_right radix (Nat.mul_le_mul_left lanes several)
      _ = codelets * radix * radixNext := by rw [share]; ring
  have one : 2 ≤ codelets * radix := wide.trans (Nat.le_mul_of_pos_left radix positive)
  refine (Nat.lt_iff_add_one_le.trans (Nat.le_div_iff_mul_le (Nat.mul_pos positiveLanes (by omega)))).mpr ?_
  rcases comparable with ⟨columns, rfl⟩ | ⟨rest, rfl⟩
  · have columnsPositive : 0 < columns := Nat.pos_of_mul_pos_left positive
    have group : (lanes * columns - 1) / lanes + 1 = columns := by
      have quotient := Nat.mul_sub_div 0 lanes columns (Nat.mul_pos positiveLanes columnsPositive)
      simp only [Nat.zero_div, Nat.zero_add] at quotient
      rw [quotient, Nat.sub_add_cancel columnsPositive]
    have double : 2 * (lanes * columns * radix) ≤ lanes * columns * radix * radixNext := by
      rw [Nat.mul_comm 2]
      exact Nat.mul_le_mul_left _ wideNext
    rw [group, show columns * (lanes * radix) = lanes * columns * radix by ring]
    omega
  · have group : (codelets - 1) / (codelets * rest) = 0 := by
      refine Nat.div_eq_of_lt ?_
      have whole := Nat.le_mul_of_pos_right codelets (Nat.pos_of_mul_pos_left positiveLanes)
      omega
    rw [group]
    omega

/- The last codelet of the next stage, where that stage runs several groups. -/
theorem lostAcrossGroups (h : stage + 1 < plan.stages) (wide : 2 ≤ plan.radix stage) (wideNext : 2 ≤ plan.radix (stage + 1))
    (several : 2 ≤ plan.groups stage) (severalNext : 2 ≤ plan.groups (stage + 1))
    (comparable : plan.lanes stage ∣ prefixProduct plan.factors stage * suffixProduct plan.factors (stage + 2) ∨
      prefixProduct plan.factors stage * suffixProduct plan.factors (stage + 2) ∣ plan.lanes stage) :
    ¬NoOverwrite plan stage := by
  intro kept
  have inside := Nat.lt_of_succ_lt h
  obtain ⟨positive, share⟩ := plan.share inside
  obtain ⟨positiveNext, shareNext⟩ := plan.share h
  obtain ⟨column, _, _⟩ := productsPositive plan.positive inside
  obtain ⟨_, _, later⟩ := productsPositive plan.positive h
  have radix : radixAt plan.factors stage = plan.radix stage := rfl
  have radixNext : radixAt plan.factors (stage + 1) = plan.radix (stage + 1) := rfl
  rw [StagePlan.codelets, suffixProductSucc h, radixNext] at share
  rw [StagePlan.codelets, prefixProductSucc inside, radix] at shareNext
  simp only [Nat.add_assoc, Nat.reduceAdd] at share shareNext later
  generalize whole : prefixProduct plan.factors stage = F at *
  generalize times : suffixProduct plan.factors (stage + 2) = S at *
  have low : F - 1 < F := by omega
  have codelet : F - 1 + F * (S - 1) = F * S - 1 := by
    obtain ⟨s, rfl⟩ := Nat.exists_eq_add_of_le' later
    rw [Nat.add_sub_cancel, Nat.mul_add_one]
    omega
  have hc : F * S - 1 < plan.codelets stage := by
    rw [StagePlan.codelets, suffixProductSucc h, radixNext, whole]
    simp only [Nat.add_assoc, Nat.reduceAdd, times]
    have more : F * S ≤ F * (plan.radix (stage + 1) * S) := Nat.mul_le_mul_left F (Nat.le_mul_of_pos_left S (by omega))
    have product := Nat.mul_pos column later
    omega
  have block := kept _ hc (plan.radix stage - 1) (by omega)
  have stored : plan.route stage (F * S - 1) (plan.radix stage - 1) =
      plan.lanes (stage + 1) - 1 + plan.lanes (stage + 1) * ((plan.groups (stage + 1) - 1) * plan.radix (stage + 1)) := by
    have last : nextCodelet plan.factors stage (F * S - 1) (plan.radix stage - 1) =
        plan.lanes (stage + 1) - 1 + plan.lanes (stage + 1) * (plan.groups (stage + 1) - 1) := by
      rw [nextCodelet, whole, times, prefixProductSucc inside, whole, radix, ← codelet, laneGroupMod low, laneGroupDiv low,
        Nat.mod_eq_of_lt (by omega)]
      obtain ⟨f, rfl⟩ := Nat.exists_eq_add_of_le' column
      obtain ⟨s, rfl⟩ := Nat.exists_eq_add_of_le' later
      obtain ⟨g, groups⟩ := Nat.exists_eq_add_of_le' (one_le_two.trans severalNext)
      obtain ⟨l, lanes⟩ := Nat.exists_eq_add_of_le' positiveNext
      obtain ⟨r, radixes⟩ := Nat.exists_eq_add_of_le' (one_le_two.trans wide)
      rw [groups, lanes, radixes] at shareNext
      simp only [groups, lanes, radixes, Nat.add_sub_cancel]
      linarith
    rw [StagePlan.route, last, nextDigit, whole, times, ← codelet, laneGroupDiv low, Nat.div_eq_of_lt (by omega),
      StagePlan.element, blocked, laneGroupMod (by omega), laneGroupDiv (by omega)]
    simp only [Nat.add_zero]
  rw [stored] at block
  have beyond := storeBeyond wide wideNext several severalNext (Nat.mul_pos column later) positive positiveNext
    (by rw [share]; ring) (by rw [shareNext]; ring) comparable
  omega

/- A stage runs one group, or whole columns of codelets in front of a stage that runs one group. -/
def KeepsApart (plan : StagePlan) (stage : ℕ) : Prop :=
  plan.groups stage = 1 ∨ (prefixProduct plan.factors stage ∣ plan.lanes stage ∧ plan.groups (stage + 1) = 1)

theorem noOverwriteIff {k : ℕ} (twos : plan.length = 2 ^ k) (wide : ∀ f ∈ plan.factors, 2 ≤ f)
    (h : stage + 1 < plan.stages) : NoOverwrite plan stage ↔ KeepsApart plan stage := by
  have inside := Nat.lt_of_succ_lt h
  have radix {s : ℕ} (hs : s < plan.stages) : 2 ≤ plan.radix s := by
    rw [StagePlan.radix, radixAtEq hs]
    exact wide _ (List.getElem_mem hs)
  have groups {s : ℕ} (hs : s < plan.stages) : 0 < plan.groups s := by
    obtain ⟨positive, _, later⟩ := productsPositive plan.positive hs
    have total : 0 < plan.codelets s := Nat.mul_pos positive later
    rw [← (plan.share hs).2] at total
    exact Nat.pos_of_mul_pos_left total
  have divides {d : ℕ} (part : d ∣ plan.codelets stage) : d ∣ 2 ^ k := by
    rw [← twos, plan.elements inside]
    exact part.mul_right _
  have lanes : plan.lanes stage ∣ plan.codelets stage := ⟨_, (plan.share inside).2.symm⟩
  have time : suffixProduct plan.factors (stage + 2) ∣ suffixProduct plan.factors (stage + 1) := by
    rw [suffixProductSucc h]
    exact Dvd.intro_left _ rfl
  constructor
  · intro kept
    by_contra apart
    rw [KeepsApart, not_or, not_and] at apart
    obtain ⟨several, columns⟩ := apart
    by_cases next : plan.groups (stage + 1) = 1
    · rcases twoPowersDivide (divides lanes) (divides (Dvd.intro _ rfl)) with short | whole
      · have less : plan.lanes stage ≠ prefixProduct plan.factors stage := fun equal => columns (equal ▸ dvd_rfl) next
        obtain ⟨count, column⟩ := short
        have positive := (productsPositive plan.positive inside).1
        have twice : 2 ≤ count := by
          rcases count with _ | _ | count
          · omega
          · exact absurd (by rw [column, Nat.zero_add, Nat.mul_one]) less
          · omega
        refine lostBelowColumn h (radix inside) ?_ kept
        rw [column, Nat.mul_comm]
        exact Nat.mul_le_mul_left _ twice
      · exact columns whole next
    · have two := groups inside
      have twoNext := groups h
      exact lostAcrossGroups h (radix inside) (radix h) (by omega) (by omega)
        (twoPowersDivide (divides lanes) (divides (Nat.mul_dvd_mul_left _ time))) kept
  · rintro (one | ⟨columns, next⟩)
    · exact keptByOneGroup h one
    · exact keptByColumns h columns next

end Overwrite

section Policy

structure BackendProfile where
  policy : String
  maxDynamicSharedMemory : Option ℕ
  deriving DecidableEq, Repr

def realElementBytes (dtype : String) : ℕ := if dtypeIsDouble dtype then 8 else 4

def LeafPlanNode.smemSize (leaf : LeafPlanNode) : ℕ := if leaf.factors.length ≤ 1 then 0 else ceilPowerOfTwo leaf.length

/- batchPack is the contiguous pack of the leaf. -/
def leafSingleSmemBufferEligible (profile : BackendProfile) (leaf : LeafPlanNode) (dtype : String) (mode : LeafIoMode)
    (portable : Bool) (batchPack : ℕ) : Except String Bool :=
  match profile.maxDynamicSharedMemory with
  | none => .ok false
  | some shared =>
    if profile.policy = "legacy" then .ok false
    else if dtype ≠ "complex64" ∨ leaf.factors.length < 2 then .ok false
    else if mode ≠ .contiguous ∧ mode ≠ .strided then .ok false
    else do
      let stageLanes ← cooperativeStageLanesFor portable leaf dtype
      if stageLanes.any (· != leaf.lanes) then return false
      else if (List.range (leaf.factors.length - 1)).any fun index =>
          leaf.length / (leaf.lanes * leaf.factors.getD index 1) != 1 then return false
      else
        let smemPack := max batchPack 1
        let smemSlotStride := if batchPack ≥ 4 then leaf.smemSize + 1 else leaf.smemSize
        let smemBytes := 4 * ceilPowerOfTwo (smemSlotStride * smemPack) * realElementBytes dtype
        return smemBytes ≥ shared / 4

/- rowModes and colModes are the four_step_ modes that are not strided. -/
def useSingleSmemBuffer (profile : BackendProfile) (c : LeafCompile) (leaf : LeafPlanNode) (portable : Bool)
    (batchPack : ℕ) : Except String Bool := do
  let dtype := c.request.inputDtype
  if ← leafSingleSmemBufferEligible profile leaf dtype c.mode portable batchPack then return true
  else return (rowModes ++ colModes).contains c.mode && FourStep.useTleFusedTwiddle (c.target portable) c.n1 c.n2 &&
    dtype == "complex64" && leaf.length == 1024 && leaf.factors.length > 2

/- The widest lane count that divides the codelets of every stage. ixWide4096 raises the bound on one backend. -/
def chooseLanes (ixWide4096 : Bool) (n : ℕ) (factors : List ℕ) : ℕ :=
  let gcdAll := factors.tail.foldl (fun gcdAll radix => Nat.gcd gcdAll (n / radix)) (n / factors.headD 1)
  let upper := min gcdAll (if ixWide4096 then 256 else maxLanes)
  ((candidates upper).find? fun candidate => gcdAll % candidate == 0).getD 1

/- The leaves of the planner: make_leaf_plan, and the thread-local leaf of the four-step candidates. -/
inductive PlannerLeaf (leaf : LeafPlanNode) : Prop
  | made (nonempty : leaf.factors ≠ []) (wide : ∀ radix ∈ leaf.factors, 2 ≤ radix) (ixWide4096 : Bool)
      (lanes : leaf.lanes = chooseLanes ixWide4096 leaf.length leaf.factors)
  | threadLocal (radix : ℕ) (member : radix ∈ threadLocalMixedRadices) (factors : leaf.factors = [radix, 32])
      (lanes : leaf.lanes = radix)

theorem PlannerLeaf.wide {leaf : LeafPlanNode} (planned : PlannerLeaf leaf) : ∀ radix ∈ leaf.factors, 2 ≤ radix := by
  cases planned with
  | made _ wide _ _ => exact wide
  | threadLocal radix member factors _ =>
      intro other here
      simp only [threadLocalMixedRadices, List.mem_cons, List.not_mem_nil, or_false] at member
      simp only [factors, List.mem_cons, List.not_mem_nil, or_false] at here
      omega

theorem gcdFoldDivides (n : ℕ) (factors : List ℕ) (start : ℕ) :
    factors.foldl (fun gcdAll radix => Nat.gcd gcdAll (n / radix)) start ∣ start ∧
      ∀ radix ∈ factors, factors.foldl (fun gcdAll radix => Nat.gcd gcdAll (n / radix)) start ∣ n / radix := by
  induction factors generalizing start with
  | nil => simp
  | cons radix rest ih =>
      obtain ⟨first, each⟩ := ih (Nat.gcd start (n / radix))
      refine ⟨first.trans (Nat.gcd_dvd_left _ _), fun other member => ?_⟩
      rcases List.mem_cons.mp member with rfl | later
      · exact first.trans (Nat.gcd_dvd_right _ _)
      · exact each other later

theorem chooseLanesDivides (ixWide4096 : Bool) (n : ℕ) (factors : List ℕ) :
    ∀ radix ∈ factors, chooseLanes ixWide4096 n factors ∣ n / radix := by
  intro radix member
  have all : factors.tail.foldl (fun gcdAll radix => Nat.gcd gcdAll (n / radix)) (n / factors.headD 1) ∣ n / radix := by
    obtain ⟨first, each⟩ := gcdFoldDivides n factors.tail (n / factors.headD 1)
    cases factors with
    | nil => simp at member
    | cons head rest =>
        rcases List.mem_cons.mp member with rfl | later
        · exact first
        · exact each radix later
  refine Dvd.dvd.trans ?_ all
  rw [chooseLanes]
  generalize factors.tail.foldl (fun gcdAll radix => Nat.gcd gcdAll (n / radix)) (n / factors.headD 1) = gcdAll
  cases found : (candidates (min gcdAll (if ixWide4096 then 256 else maxLanes))).find? fun candidate => gcdAll % candidate == 0 with
  | none => exact one_dvd _
  | some lanes => exact Nat.dvd_of_mod_eq_zero (by simpa using List.find?_some found)

theorem fixedLanesDivide {leaf : LeafPlanNode} (planned : PlannerLeaf leaf) (dtype : String) {radix : ℕ}
    (member : radix ∈ leaf.factors) : fixedStageLanes leaf dtype radix ∣ leaf.length / radix := by
  rw [fixedStageLanes]
  split
  · exact cooperativeDivides leaf member
  · next fixed =>
      cases planned with
      | made _ _ ixWide4096 lanes =>
          rw [lanes]
          exact chooseLanesDivides _ _ _ _ member
      | threadLocal register here factors _ => exact absurd (crossCooperative dtype factors here) fixed

theorem emittedProduct (portable : Bool) (leaf : LeafPlanNode) (dtype : String) (mode : LeafIoMode) :
    (emittedLeafFactors portable leaf dtype mode).prod = leaf.length := by
  rw [emittedLeafFactors]
  split
  · simp
  · exact leaf.product

/- The stages the kernel of a leaf is generated with. -/
def leafStages {leaf : LeafPlanNode} (planned : PlannerLeaf leaf) (portable : Bool) (dtype : String) (mode : LeafIoMode) :
    StagePlan where
  factors := emittedLeafFactors portable leaf dtype mode
  lanes stage :=
    let radix := radixAt (emittedLeafFactors portable leaf dtype mode) stage
    if portable then leaf.length / radix else fixedStageLanes leaf dtype radix
  nonempty := by
    rw [emittedLeafFactors]
    split
    · exact one_pos
    · cases planned with
      | made nonempty _ _ _ => exact List.length_pos_of_ne_nil nonempty
      | threadLocal _ _ factors _ => simp [factors]
  positive := emittedProduct portable leaf dtype mode ▸ leaf.positive
  lanesFit stage inside := by
    rw [LanesFit, emittedProduct]
    cases portable with
    | true => exact dvd_rfl
    | false =>
        simp only [emittedLeafFactors, Bool.false_and, Bool.false_eq_true, if_false] at inside ⊢
        refine fixedLanesDivide planned dtype ?_
        rw [radixAtEq inside]
        exact List.getElem_mem inside

/- The twiddle tables of the stages, one for each but the first. -/
def stageTables {K : Type*} [CommRing K] (plan : StagePlan) (w : K) : Except String (List (ℕ → K)) :=
  (List.range' 1 (plan.stages - 1)).mapM fun stage => buildStageTwiddles w plan.factors stage (plan.lanes stage)

theorem stageTablesOk {K : Type*} [Field K] (plan : StagePlan) {w : K} (unit : w ≠ 0) :
    ∃ tables, stageTables plan w = .ok tables ∧ TwiddleUnits plan tables := by
  obtain ⟨tables, run, each⟩ := mapMOk (List.range' 1 (plan.stages - 1))
    (f := fun stage => buildStageTwiddles w plan.factors stage (plan.lanes stage))
    (P := fun stage table => ∀ c < plan.codelets stage, ∀ t < plan.radix stage, table (plan.element stage c t) ≠ 0)
    (fun stage member => by
      have inside : stage < plan.factors.length := by
        have range := List.mem_range'_1.mp member
        rw [StagePlan.stages] at range
        omega
      obtain ⟨table, ok, entries⟩ := buildStageTwiddlesOk w plan.positive inside (plan.lanesFit stage inside)
      refine ⟨table, ok, fun c hc t ht => ?_⟩
      rw [StagePlan.element, StagePlan.radix, entries c t hc ht]
      exact pow_ne_zero _ unit)
  refine ⟨tables, run, fun stage first inside c hc t ht => ?_⟩
  have size := each.length_eq
  rw [List.length_range'] at size
  have entry : stage - 1 < tables.length := by omega
  have cells := each.get (i := stage - 1) (by rw [List.length_range']; omega) entry
  simp only [List.get_eq_getElem, List.getElem_range', Nat.one_mul, Nat.add_sub_cancel' first] at cells
  rw [StagePlan.twiddle, List.getD_eq_getElem _ _ entry]
  exact cells c hc t ht

theorem stageTablesUnits {K : Type*} [Field K] {plan : StagePlan} {w : K} {tables : List (ℕ → K)} (unit : w ≠ 0)
    (built : stageTables plan w = .ok tables) : TwiddleUnits plan tables := by
  obtain ⟨found, run, units⟩ := stageTablesOk plan unit
  exact Except.ok.inj (run.symm.trans built) ▸ units

variable {profile : BackendProfile} {c : LeafCompile} {leaf : LeafPlanNode} {portable : Bool} {batchPack : ℕ}

theorem portableOneGroup (planned : PlannerLeaf leaf) (dtype : String) (mode : LeafIoMode) {stage : ℕ}
    (inside : stage < (leafStages planned true dtype mode).stages) : (leafStages planned true dtype mode).groups stage = 1 := by
  have share := ((leafStages planned true dtype mode).share inside).2
  obtain ⟨_, radix, _⟩ := productsPositive (leafStages planned true dtype mode).positive inside
  have product : (leafStages planned true dtype mode).factors.prod = leaf.length := emittedProduct true leaf dtype mode
  have lanes : (leafStages planned true dtype mode).lanes stage = (leafStages planned true dtype mode).codelets stage := by
    change leaf.length / radixAt (leafStages planned true dtype mode).factors stage = _
    rw [← product]
    exact codeletCount (leafStages planned true dtype mode).positive inside
  have positive := ((leafStages planned true dtype mode).share inside).1
  rw [lanes] at share positive
  exact Nat.eq_of_mul_eq_mul_left positive (share.trans (Nat.mul_one _).symm)

/- The test for contiguous leaves: one group at every stage before the last. -/
theorem eligibleGroups (planned : PlannerLeaf leaf)
    (eligible : leafSingleSmemBufferEligible profile leaf c.request.inputDtype c.mode portable batchPack = .ok true)
    {stage : ℕ} (inside : stage + 1 < (leafStages planned portable c.request.inputDtype c.mode).stages) :
    (leafStages planned portable c.request.inputDtype c.mode).groups stage = 1 := by
  cases portable with
  | true => exact portableOneGroup planned _ _ (Nat.lt_of_succ_lt inside)
  | false =>
      rw [leafSingleSmemBufferEligible] at eligible
      split at eligible
      · simp at eligible
      · simp only [laneRulesAgree, bind, Except.bind, pure, Except.pure] at eligible
        -- legacy, dtype, mode, lanes, groups
        split at eligible
        · simp at eligible
        split at eligible
        · simp at eligible
        split at eligible
        · simp at eligible
        split at eligible
        · simp at eligible
        split at eligible
        · simp at eligible
        rename_i uneven groups
        simp only [List.any_map, List.any_eq_true, Function.comp_apply, bne_iff_ne, not_exists, not_and, not_not] at uneven
        simp only [List.any_eq_true, List.mem_range, bne_iff_ne, not_exists, not_and, not_not] at groups
        have length : stage + 1 < leaf.factors.length := inside
        have here : stage < leaf.factors.length := by omega
        have one := groups stage (by omega)
        rw [← uneven (radixAt leaf.factors stage) (by rw [radixAtEq here]; exact List.getElem_mem here)] at one
        change leaf.factors.prod / (fixedStageLanes leaf c.request.inputDtype (radixAt leaf.factors stage) *
          radixAt leaf.factors stage) = 1
        rw [leaf.product]
        exact one

/- A single buffer means one group at every stage before the last, or a leaf of 1024 points. -/
theorem usedCases (planned : PlannerLeaf leaf) (used : useSingleSmemBuffer profile c leaf portable batchPack = .ok true) :
    (∀ stage, stage + 1 < (leafStages planned portable c.request.inputDtype c.mode).stages →
      (leafStages planned portable c.request.inputDtype c.mode).groups stage = 1) ∨ leaf.length = 1024 := by
  cases eligible : leafSingleSmemBufferEligible profile leaf c.request.inputDtype c.mode portable batchPack with
  | error message => simp [useSingleSmemBuffer, eligible, bind, Except.bind] at used
  | ok on =>
      cases on with
      | true => exact .inl fun stage inside => eligibleGroups planned eligible inside
      | false =>
          simp only [useSingleSmemBuffer, eligible, bind, Except.bind, pure, Except.pure, Bool.false_eq_true, if_false,
            Except.ok.injEq, Bool.and_eq_true, beq_iff_eq] at used
          exact .inr used.1.2

/- What the values a mode can load have to contain for a lost cell to show. -/
def Pulses {K : Type*} [Zero K] [One K] (loaded : Set K) : Prop := 0 ∈ loaded ∧ 1 ∈ loaded

/- The kernels with one and with two buffers hand over the same values, for every row they can load. -/
def SameValues {K : Type*} [Field K] (plan : StagePlan) (layout : SharedLayout plan.length) (tables : List (ℕ → K)) (w : K)
    (loaded : Set K) : Prop :=
  ∀ (slots : List ℕ) (shared : Shared → K) (input : ℕ → ℕ → K), (∀ slot i, input slot i ∈ loaded) →
    finalValues plan layout tables w true slots input shared = finalValues plan layout tables w false slots input shared

theorem sameValuesIff {K : Type*} [Field K] {plan : StagePlan} {layout : SharedLayout plan.length} {tables : List (ℕ → K)}
    {w : K} {loaded : Set K} : SameValues plan layout tables w loaded ↔
      ∀ row : ℕ → K, (∀ i, row i ∈ loaded) → ∀ c < plan.codelets plan.last, ∀ q < plan.radix plan.last,
        slotValue plan tables w true row c q = slotValue plan tables w false row c q := by
  constructor
  · intro same row inside
    have one := same [0] (fun _ => 0) (fun _ => row) fun _ => inside
    exact (finalValuesSame _).mp one 0 List.mem_cons_self
  · intro same slots shared input inside
    exact (finalValuesSame shared).mpr fun slot _ => same (input slot) (inside slot)

/- Wherever the generator takes a single buffer, it computes what two buffers would exactly when every stage between the
first and the last keeps its groups apart. -/
theorem singleBufferSame {K : Type*} [Field K] [CharZero K] {w : K} {tables : List (ℕ → K)} {loaded : Set K}
    (planned : PlannerLeaf leaf) (used : useSingleSmemBuffer profile c leaf portable batchPack = .ok true)
    (layout : SharedLayout (leafStages planned portable c.request.inputDtype c.mode).length)
    (root : IsPrimitiveRoot w leaf.length)
    (built : stageTables (leafStages planned portable c.request.inputDtype c.mode) w = .ok tables) (pulses : Pulses loaded) :
    SameValues (leafStages planned portable c.request.inputDtype c.mode) layout tables w loaded ↔
      ∀ stage, 0 < stage → stage + 1 < (leafStages planned portable c.request.inputDtype c.mode).stages →
        KeepsApart (leafStages planned portable c.request.inputDtype c.mode) stage := by
  have units := stageTablesUnits (root.ne_zero leaf.positive.ne') built
  have product : (leafStages planned portable c.request.inputDtype c.mode).length = leaf.length :=
    emittedProduct portable leaf c.request.inputDtype c.mode
  rw [sameValuesIff, oneBufferIff (product.symm ▸ root) units loaded pulses]
  refine forall_congr' fun stage => forall_congr' fun later => forall_congr' fun inside => ?_
  rcases usedCases planned used with one | length
  · exact iff_of_true (keptByOneGroup inside (one stage inside)) (.inl (one stage inside))
  · refine noOverwriteIff (k := 10) (product.trans length) (fun f member => ?_) inside
    change f ∈ emittedLeafFactors portable leaf c.request.inputDtype c.mode at member
    rw [emittedLeafFactors] at member
    split at member
    · obtain rfl : f = leaf.length := by simpa using member
      omega
    · exact planned.wide f member

end Policy

section Tuned

theorem sixtyFourLanes : 0 < 64 := by decide

/- A tuned column leaf of a 1024 x 1024 split: three factors, one of the cheapest after 32 x 32. -/
def sixteenEightEight : LeafPlanNode where
  length := 1024
  factors := [16, 8, 8]
  lanes := 64
  genericRadices := []
  product := rfl
  positive := by decide
  lanesPositive := sixtyFourLanes

def sixteenSixteenFour : LeafPlanNode := { sixteenEightEight with factors := [16, 16, 4], product := rfl }

def fusedColumn : LeafCompile where
  backend := .cuda
  environment := fun _ => none
  configured := ⟨"cuda", "sm_80", 1, 1, 1, 1048576, 1048576, "complex64", "complex64", [1], false⟩
  request := ⟨"cuda", "sm_80", 1, 1, 1, 1048576, 1048576, "complex64", "complex64", [1], false⟩
  mode := .fourStepCol
  n1 := 1024
  n2 := 1024

theorem eightsPlanned : PlannerLeaf sixteenEightEight := .made (by simp [sixteenEightEight]) (by decide) false (by decide)

theorem fourPlanned : PlannerLeaf sixteenSixteenFour := .made (by simp [sixteenSixteenFour]) (by decide) false (by decide)

def plainLayout : SharedLayout 1024 where
  swizzleShift := none
  bits := 10
  slotStride := 1024
  fits := by decide
  apart := by decide
  shifts := by simp

/- Every stage of this leaf but the last runs one group. -/
theorem fourAgrees : ∃ (w : ℂ) (tables : List (ℕ → ℂ)),
    stageTables (leafStages fourPlanned false "complex64" .fourStepCol) w = .ok tables ∧
    SameValues (leafStages fourPlanned false "complex64" .fourStepCol) plainLayout tables w Set.univ := by
  have root := Complex.isPrimitiveRoot_exp 1024 (by decide)
  obtain ⟨tables, built, _⟩ := stageTablesOk (leafStages fourPlanned false "complex64" .fourStepCol) (root.ne_zero (by decide))
  have agrees := @singleBufferSame ⟨"native", none⟩ fusedColumn sixteenSixteenFour false 1 ℂ _ _ _ tables Set.univ fourPlanned
    rfl plainLayout root built ⟨Set.mem_univ _, Set.mem_univ _⟩
  refine ⟨_, tables, built, agrees.mpr fun stage later inside => ?_⟩
  obtain rfl : stage = 1 := by
    change stage + 1 < 3 at inside
    omega
  exact .inl (by decide)

theorem eightsDiffer : ∃ (w : ℂ) (tables : List (ℕ → ℂ)), IsPrimitiveRoot w 1024 ∧
    useSingleSmemBuffer ⟨"native", none⟩ fusedColumn sixteenEightEight false 1 = .ok true ∧
    stageTables (leafStages eightsPlanned false "complex64" .fourStepCol) w = .ok tables ∧
    ¬SameValues (leafStages eightsPlanned false "complex64" .fourStepCol) plainLayout tables w Set.univ := by
  have root := Complex.isPrimitiveRoot_exp 1024 (by decide)
  obtain ⟨tables, built, units⟩ := stageTablesOk (leafStages eightsPlanned false "complex64" .fourStepCol) (root.ne_zero (by decide))
  refine ⟨_, tables, root, rfl, built, fun same => ?_⟩
  have kept := (oneBufferIff root units Set.univ ⟨Set.mem_univ _, Set.mem_univ _⟩).mp (sameValuesIff.mp same) 1 one_pos (by decide)
  -- codelet 63 of the first group stores at element 767, in the block of the second
  exact absurd (kept 63 (by decide) 7 (by decide)) (by decide)

end Tuned

end FlagFft.Codegen
