import FlagFft.Codegen.KernelCache
import Mathlib.Algebra.BigOperators.Group.List.Lemmas
import Mathlib.Algebra.Order.Ring.Nat

/-! The stage lanes of a leaf, written twice: codegen/tables.cpp decides them for the twiddle tables it uploads,
kernels_common.py for the kernel that reads the tables. -/
namespace FlagFft.Codegen

/- A leaf of a plan: its factors multiply to its length. -/
structure LeafPlanNode where
  length : ℕ
  factors : List ℕ
  lanes : ℕ
  genericRadices : List ℕ
  product : factors.prod = length
  positive : 0 < length
  lanesPositive : 0 < lanes

def dtypeIsDouble (dtype : String) : Bool := dtype == "complex128" || dtype == "float64"

def cooperativeStageMinLength : ℕ := 128

def cooperativeStageMaxLength : ℕ := 4096

def cooperativeStageMaxBaseLanes : ℕ := 32

def maxLanes : ℕ := 128

/- upper, upper - 1, .., 1 -/
def candidates (upper : ℕ) : List ℕ := (List.range' 1 upper).reverse

section Host

def cooperativeStageLanes (n radix : ℕ) : ℕ :=
  let codelets := n / radix
  ((candidates (min codelets maxLanes)).find? fun candidate => codelets % candidate == 0).getD 1

def fixedLanesAreCompatible (leaf : LeafPlanNode) : Bool :=
  leaf.factors.all fun radix => leaf.length / radix % leaf.lanes == 0

/- The smallest and the largest stage so far. -/
def stageLaneRange (leaf : LeafPlanNode) : ℕ × ℕ :=
  leaf.factors.foldl (fun (low, high) radix =>
    (min low (cooperativeStageLanes leaf.length radix), max high (cooperativeStageLanes leaf.length radix))) (maxLanes, 1)

def useCooperativeStageLanes (leaf : LeafPlanNode) (dtype : String) : Bool :=
  if leaf.length < cooperativeStageMinLength ∨ leaf.length > cooperativeStageMaxLength ∨ leaf.factors.length < 2 ∨
      (leaf.lanes > cooperativeStageMaxBaseLanes ∧ fixedLanesAreCompatible leaf) then false
  else if dtypeIsDouble dtype || !fixedLanesAreCompatible leaf then true
  else (stageLaneRange leaf).1 * 4 ≥ (stageLaneRange leaf).2

/- The lanes of a stage outside the portable layout. -/
def fixedStageLanes (leaf : LeafPlanNode) (dtype : String) (radix : ℕ) : ℕ :=
  if useCooperativeStageLanes leaf dtype then cooperativeStageLanes leaf.length radix else leaf.lanes

end Host

section Kernel

/- next(candidate for candidate in range(upper, 0, -1) if codelets % candidate == 0) -/
def stageLanesOf (leaf : LeafPlanNode) (radix : ℕ) : Except String ℕ :=
  let codelets := leaf.length / radix
  match (candidates (min codelets maxLanes)).find? fun candidate => codelets % candidate == 0 with
  | some lanes => .ok lanes
  | none => .error "StopIteration"

def cooperativeStageLanesFor (portable : Bool) (leaf : LeafPlanNode) (dtype : String) : Except String (List ℕ) :=
  if portable then .ok (leaf.factors.map (leaf.length / ·))
  else
    let compatible := leaf.factors.all fun radix => leaf.length / radix % leaf.lanes == 0
    let fixed := List.replicate leaf.factors.length leaf.lanes
    if ¬(cooperativeStageMinLength ≤ leaf.length ∧ leaf.length ≤ cooperativeStageMaxLength ∧ leaf.factors.length ≥ 2 ∧
        (leaf.lanes ≤ cooperativeStageMaxBaseLanes ∨ !compatible)) then .ok fixed
    else do
      let stageLanes ← leaf.factors.mapM (stageLanesOf leaf)
      if !dtypeIsDouble dtype && compatible && stageLanes.min?.getD 0 * 4 < stageLanes.max?.getD 0 then return fixed
      else return stageLanes

end Kernel

variable {leaf : LeafPlanNode} {dtype : String} {n radix upper codelets : ℕ}

theorem memCandidates {candidate : ℕ} : candidate ∈ candidates upper ↔ 1 ≤ candidate ∧ candidate ≤ upper := by
  simp only [candidates, List.mem_reverse, List.mem_range'_1]
  omega

/- One always divides, so the search never comes back empty. -/
theorem divisorFound (positive : 0 < codelets) :
    ∃ lanes, (candidates (min codelets maxLanes)).find? (fun candidate => codelets % candidate == 0) = some lanes ∧
      1 ≤ lanes ∧ lanes ≤ maxLanes ∧ codelets % lanes = 0 := by
  have one : (1 : ℕ) ∈ candidates (min codelets maxLanes) := memCandidates.mpr ⟨le_rfl, Nat.le_min.mpr ⟨positive, by decide⟩⟩
  cases found : (candidates (min codelets maxLanes)).find? fun candidate => codelets % candidate == 0 with
  | none =>
      have absent := List.find?_eq_none.mp found 1 one
      simp [Nat.mod_one] at absent
  | some lanes =>
      have inside := memCandidates.mp (List.mem_of_find?_eq_some found)
      have divides := List.find?_some found
      exact ⟨lanes, rfl, inside.1, inside.2.trans (Nat.min_le_right _ _), by simpa using divides⟩

theorem codeletsPositive (leaf : LeafPlanNode) (member : radix ∈ leaf.factors) : 0 < leaf.length / radix := by
  have divides : radix ∣ leaf.length := leaf.product ▸ List.dvd_prod member
  have positive := Nat.pos_of_dvd_of_pos divides leaf.positive
  exact Nat.div_pos (Nat.le_of_dvd leaf.positive divides) positive

theorem stageLanesOfOk (leaf : LeafPlanNode) (member : radix ∈ leaf.factors) :
    stageLanesOf leaf radix = .ok (cooperativeStageLanes leaf.length radix) := by
  obtain ⟨lanes, found, _⟩ := divisorFound (codeletsPositive leaf member)
  simp only [stageLanesOf, cooperativeStageLanes, found, Option.getD_some]

theorem cooperativeBounds (leaf : LeafPlanNode) (member : radix ∈ leaf.factors) :
    1 ≤ cooperativeStageLanes leaf.length radix ∧ cooperativeStageLanes leaf.length radix ≤ maxLanes := by
  obtain ⟨lanes, found, low, high, _⟩ := divisorFound (codeletsPositive leaf member)
  simp only [cooperativeStageLanes, found, Option.getD_some]
  exact ⟨low, high⟩

theorem cooperativeDivides (leaf : LeafPlanNode) (member : radix ∈ leaf.factors) :
    cooperativeStageLanes leaf.length radix ∣ leaf.length / radix := by
  obtain ⟨lanes, found, _, _, divides⟩ := divisorFound (codeletsPositive leaf member)
  simp only [cooperativeStageLanes, found, Option.getD_some]
  exact Nat.dvd_of_mod_eq_zero divides

/- The stage gets all its codelets exactly when they fit. -/
theorem cooperativeFull (leaf : LeafPlanNode) (member : radix ∈ leaf.factors) :
    cooperativeStageLanes leaf.length radix = leaf.length / radix ↔ leaf.length / radix ≤ maxLanes := by
  have positive := codeletsPositive leaf member
  constructor
  · intro full
    exact full ▸ (cooperativeBounds leaf member).2
  · intro fits
    have count : min (leaf.length / radix) maxLanes = leaf.length / radix := Nat.min_eq_left fits
    obtain ⟨rest, split⟩ := Nat.exists_eq_succ_of_ne_zero positive.ne'
    have first : candidates (leaf.length / radix) = leaf.length / radix :: candidates rest := by
      rw [split, candidates, List.range'_concat, List.reverse_append, Nat.one_mul, Nat.add_comm 1 rest]
      rfl
    simp only [cooperativeStageLanes, count, first]
    rw [List.find?_cons_of_pos (by simp)]
    rfl

theorem rangeFold (step : ℕ → ℕ) (factors : List ℕ) (low high : ℕ) :
    factors.foldl (fun (low, high) radix => (min low (step radix), max high (step radix))) (low, high) =
      ((factors.map step).foldl min low, (factors.map step).foldl max high) := by
  induction factors generalizing low high with
  | nil => rfl
  | cons radix rest ih => simp only [List.foldl_cons, List.map_cons, ih]

theorem mapOk (leaf : LeafPlanNode) {factors : List ℕ} (subset : ∀ radix ∈ factors, radix ∈ leaf.factors) :
    factors.mapM (stageLanesOf leaf) = .ok (factors.map (cooperativeStageLanes leaf.length)) := by
  induction factors with
  | nil => rfl
  | cons radix rest ih =>
      rw [List.mapM_cons, stageLanesOfOk leaf (subset radix List.mem_cons_self),
        ih fun r member => subset r (List.mem_cons_of_mem radix member)]
      rfl

/- Starting values that no stage lies beyond do not show in the result. -/
theorem rangeEq (leaf : LeafPlanNode) (several : 2 ≤ leaf.factors.length) :
    stageLaneRange leaf = (((leaf.factors.map (cooperativeStageLanes leaf.length)).min?).getD 0,
      ((leaf.factors.map (cooperativeStageLanes leaf.length)).max?).getD 0) := by
  rw [stageLaneRange, rangeFold]
  cases factors : leaf.factors with
  | nil => simp [factors] at several
  | cons radix rest =>
      have member : radix ∈ leaf.factors := factors ▸ List.mem_cons_self
      obtain ⟨low, high⟩ := cooperativeBounds leaf member
      simp only [List.map_cons, List.foldl_cons, List.min?_cons', List.max?_cons', Option.getD_some,
        Nat.min_eq_right high, Nat.max_eq_right low]

/- Both sides give every stage of every leaf the same lanes. -/
theorem laneRulesAgree (leaf : LeafPlanNode) (dtype : String) :
    cooperativeStageLanesFor false leaf dtype = .ok (leaf.factors.map (fixedStageLanes leaf dtype)) := by
  have same : (leaf.factors.all fun radix => leaf.length / radix % leaf.lanes == 0) = fixedLanesAreCompatible leaf := rfl
  have fixed : useCooperativeStageLanes leaf dtype = false →
      leaf.factors.map (fixedStageLanes leaf dtype) = List.replicate leaf.factors.length leaf.lanes := by
    intro off
    rw [List.eq_replicate_iff]
    simp [fixedStageLanes, off]
  have chosen : useCooperativeStageLanes leaf dtype = true →
      leaf.factors.map (fixedStageLanes leaf dtype) = leaf.factors.map (cooperativeStageLanes leaf.length) := by
    intro on
    simp [fixedStageLanes, on]
  simp only [cooperativeStageLanesFor, Bool.false_eq_true, if_false, same]
  by_cases outside : leaf.length < cooperativeStageMinLength ∨ leaf.length > cooperativeStageMaxLength ∨
      leaf.factors.length < 2 ∨ (leaf.lanes > cooperativeStageMaxBaseLanes ∧ fixedLanesAreCompatible leaf)
  · have off : useCooperativeStageLanes leaf dtype = false := by rw [useCooperativeStageLanes, if_pos outside]
    rw [fixed off, if_pos]
    simp only [Bool.not_eq_true', not_and, not_or]
    grind
  · have several : 2 ≤ leaf.factors.length := by omega
    rw [if_neg (by grind), mapOk leaf fun _ member => member]
    have range := rangeEq leaf several
    have use : useCooperativeStageLanes leaf dtype = (dtypeIsDouble dtype || !fixedLanesAreCompatible leaf ||
        decide ((stageLaneRange leaf).1 * 4 ≥ (stageLaneRange leaf).2)) := by
      rw [useCooperativeStageLanes, if_neg outside]
      cases dtypeIsDouble dtype <;> cases fixedLanesAreCompatible leaf <;> simp
    rw [range] at use
    cases cooperative : useCooperativeStageLanes leaf dtype with
    | true =>
        rw [chosen cooperative]
        rw [cooperative] at use
        change (if _ then _ else _) = _
        rw [if_neg]
        · rfl
        · grind
    | false =>
        rw [fixed cooperative]
        rw [cooperative] at use
        change (if _ then _ else _) = _
        rw [if_pos]
        · rfl
        · grind

end FlagFft.Codegen
