import FlagFft.Plan.RaderUtils
import FlagFft.Plan.Enumeration
import FlagFft.Plan.Termination

/-! What a search may return for a length: a plan whose parts multiply, convolve or count to it at every node. Whatever
the caches hold, they hold such plans, so a plan found in them is as good as one that is searched. -/
namespace FlagFft.Plan
open Library.Fuel Library.Generators
open Codegen (LeafPlanNode PlannerLeaf chooseLanes)

/- Radices of a leaf or of a Stockham plan. -/
structure RadixFactors (n : ℕ) (factors : List ℕ) : Prop where
  nonempty : factors ≠ []
  wide : ∀ radix ∈ factors, 2 ≤ radix
  product : factors.prod = n

/- Every radix without a codelet has a matrix. -/
def MatricesCover (leaf : LeafPlanNode) : Prop :=
  ∀ radix ∈ leaf.factors, specializedRadix radix = false → radix ∈ leaf.genericRadices

def leafNode (leaf : LeafPlanNode) (numWarps : ℕ) : PlanNode :=
  .leaf leaf.length (leaf.factors.map fun radix : ℕ => (radix : ℤ)) 1 leaf.lanes numWarps
    (leaf.genericRadices.map fun radix : ℕ => (radix : ℤ)) leaf.smemSize

inductive WellPlanned : ℕ → PlanNode → Prop where
  | leaf (leaf : LeafPlanNode) (planned : PlannerLeaf leaf) (matrices : MatricesCover leaf) (numWarps : ℕ)
      (warps : 0 < numWarps) : WellPlanned leaf.length (leafNode leaf numWarps)
  | directDft {n : ℕ} (positive : 0 < n) (short : n ≤ kDirectDftMaxN) : WellPlanned n (.directDft n)
  | stockham {n : ℕ} {factors : List ℕ} (radices : RadixFactors n factors) :
      WellPlanned n (.stockham n (factors.map fun radix : ℕ => (radix : ℤ)))
  | fourStep {n n1 n2 : ℕ} {row col : PlanNode} (product : n1 * n2 = n) (several : 1 < n1) (several' : 1 < n2)
      (rows : WellPlanned n1 row) (cols : WellPlanned n2 col) : WellPlanned n (.fourStep n n1 n2 row col)
  | bluestein {n convLength : ℕ} {fft : PlanNode} (positive : 0 < n) (long : 2 * n - 1 ≤ convLength) (most : convLength ≤ 4 * n + 1)
      (convolution : WellPlanned convLength fft) : WellPlanned n (.bluestein n convLength fft)
  | rader {p root : ℕ} {conv : PlanNode} (prime : p.Prime) (positive : 0 < root) (less : root < p)
      (order : orderOf (root : ZMod p) = p - 1) (convolution : WellPlanned (p - 1) conv) :
      WellPlanned p (.rader p root ((powerTable p root).map fun i : ℕ => (i : ℤ)) conv)

structure Remembers (caches : Caches) : Prop where
  node : ∀ n node, caches.node n = some node → WellPlanned n node
  factors : ∀ n factors, caches.bestLeafFactors n = some factors → RadixFactors n factors

def Candidates (n : ℕ) (candidates : List (PlanCandidate ℚ)) : Prop := ∀ candidate ∈ candidates, WellPlanned n candidate.node

/- The best of several is one of them. -/
theorem foldPicks {α : Type} (better : α → α → Prop) [DecidableRel better] (first : α) (rest : List α) :
    rest.foldl (fun best item => if better best item then item else best) first ∈ first :: rest := by
  induction rest generalizing first with
  | nil => simp
  | cons item rest ih =>
      rw [List.foldl_cons]
      split_ifs
      · exact List.mem_cons_of_mem first (ih item)
      · rcases List.mem_cons.mp (ih first) with same | later
        · rw [same]
          exact List.mem_cons_self
        · exact List.mem_cons_of_mem first (List.mem_cons_of_mem item later)

section Factors
variable {host : Host} {context : RequestContext} {n : ℕ} {factors : List ℕ}

theorem RadixFactors.several (radices : RadixFactors n factors) : 1 < n := by
  obtain ⟨first, member⟩ := List.exists_mem_of_ne_nil factors radices.nonempty
  have positive : 0 < n := radices.product ▸ List.prod_pos fun radix inside => by
    have := radices.wide radix inside
    omega
  have least := radices.wide first member
  have most := Nat.le_of_dvd positive (radices.product ▸ List.dvd_prod member)
  omega

instance (n : ℕ) (factors : List ℕ) : Decidable (RadixFactors n factors) :=
  decidable_of_iff (factors ≠ [] ∧ (∀ radix ∈ factors, 2 ≤ radix) ∧ factors.prod = n)
    ⟨fun h => ⟨h.1, h.2.1, h.2.2⟩, fun h => ⟨h.1, h.2, h.3⟩⟩

/- What a rule asks for, where it asks for anything. -/
def RuleOk (n : ℕ) (rule : LeafRule) : Prop := ∀ factors, rule = some (.ok factors) → RadixFactors n factors

theorem asks (radices : RadixFactors n factors) : RuleOk n (some (.ok factors)) := by
  intro found same
  cases same
  exact radices

theorem throws (message : String) : RuleOk n (some (.error message)) := fun _ same => nomatch same

theorem passes : RuleOk n none := fun _ same => nomatch same

theorem ruleCases {condition : Prop} [Decidable condition] {rule other : LeafRule} (holds : condition → RuleOk n rule)
    (fails : ¬ condition → RuleOk n other) : RuleOk n (if condition then rule else other) := by
  split
  · next here => exact holds here
  · next here => exact fails here

theorem chosenOk {applies : Prop} [Decidable applies] (length : applies → n = factors.prod)
    (radices : RadixFactors factors.prod factors) : RuleOk n (chosen applies factors) :=
  ruleCases (fun here => asks (length here ▸ radices)) fun _ => passes

theorem hcu256Ok : RuleOk n (hcu256 host context n) := by
  refine ruleCases (fun here => ?_) fun _ => passes
  obtain ⟨_, _, rfl⟩ := here
  cases host.getenv "FLAGFFT_HCU_3D_256_FACTORS" with
  | none => exact passes
  | some choice =>
      exact ruleCases (fun _ => asks (by decide)) fun _ => ruleCases (fun _ => asks (by decide)) fun _ =>
        ruleCases (fun _ => asks (by decide)) fun _ => ruleCases (fun _ => asks (by decide)) fun _ =>
        ruleCases (fun _ => asks (by decide)) fun _ => ruleCases (fun _ => asks (by decide)) fun _ => throws _

theorem hcu128Ok : RuleOk n (hcu128 host context n) := by
  refine ruleCases (fun here => ?_) fun _ => passes
  obtain ⟨_, _, rfl⟩ := here
  cases host.getenv "FLAGFFT_HCU_3D_128_FACTORS" with
  | none => exact passes
  | some choice =>
      exact ruleCases (fun _ => asks (by decide)) fun _ => ruleCases (fun _ => asks (by decide)) fun _ =>
        ruleCases (fun _ => asks (by decide)) fun _ => ruleCases (fun _ => asks (by decide)) fun _ =>
        ruleCases (fun _ => asks (by decide)) fun _ => ruleCases (fun _ => throws _) fun _ => passes

theorem hcu2048Ok : RuleOk n (hcu2048 host context n) := by
  refine ruleCases (fun here => ?_) fun _ => passes
  obtain ⟨_, _, rfl⟩ := here
  exact ruleCases (fun _ => throws _) fun _ => ruleCases (fun _ => throws _) fun _ => ruleCases (fun _ => asks (by decide)) fun _ =>
    ruleCases (fun _ => asks (by decide)) fun _ => ruleCases (fun _ => asks (by decide)) fun _ =>
    ruleCases (fun _ => throws _) fun _ => passes

theorem macaCube32Ok : RuleOk n (macaCube32 host context n) := by
  refine ruleCases (fun here => ?_) fun _ => passes
  obtain ⟨_, rfl⟩ := here
  exact ruleCases (fun _ => asks (by decide)) fun _ => ruleCases (fun _ => throws _) fun _ => asks (by decide)

theorem hcu16Ok : RuleOk n (hcu16 host context n) := by
  refine ruleCases (fun here => ?_) fun _ => passes
  obtain ⟨_, _, _, rfl⟩ := here
  refine ruleCases (fun _ => ?_) fun _ => asks (by decide)
  cases host.getenv "FLAGFFT_HCU_3D_16_FACTORS" with
  | none => exact ruleCases (fun _ => asks (by decide)) fun _ => asks (by decide)
  | some choice =>
      exact ruleCases (fun _ => asks (by decide)) fun _ => ruleCases (fun _ => asks (by decide)) fun _ =>
        ruleCases (fun _ => asks (by decide)) fun _ => ruleCases (fun _ => asks (by decide)) fun _ =>
        ruleCases (fun _ => asks (by decide)) fun _ => ruleCases (fun _ => asks (by decide)) fun _ =>
        ruleCases (fun _ => throws _) fun _ => asks (by decide)

/- The measured choices name lengths, and their products are these lengths. -/
theorem rulesOk : ∀ rule ∈ leafRules host context n, RuleOk n rule := by
  simp only [leafRules, ixRules, List.forall_mem_append, List.forall_mem_cons, List.not_mem_nil, false_imp_iff, implies_true, and_true]
  refine ⟨⟨⟨hcu256Ok, hcu128Ok, hcu2048Ok, macaCube32Ok, ?_, ?_⟩, ?_, ?_, ?_, ?_, ?_, ?_, ?_, ?_, ?_, ?_, ?_, ?_⟩, hcu16Ok, ?_⟩
  all_goals refine chosenOk (fun here => ?_) (by decide)
  all_goals simp only [List.prod_cons, List.prod_nil]
  all_goals omega

theorem overrideOk {outcome : Except String (List ℕ)} (found : leafOverride host context n = some outcome)
    (returns : outcome = .ok factors) : RadixFactors n factors := by
  obtain ⟨rule, member, same⟩ := List.exists_of_findSome?_eq_some found
  exact rulesOk rule member factors (returns ▸ same)

theorem supportedFactors (supported : Supported n) : RadixFactors n (factorizeSupportedRadices n).factors :=
  ⟨supported.2, fun radix member => radixWide radix (factorMembers (by simp) radix member), supportedProduct supported⟩

theorem enumeratedFactors (member : factors ∈ enumerateSupportedFactorizations n) : RadixFactors n factors := by
  rcases Nat.lt_or_ge 1 n with several | few
  · obtain ⟨all, product⟩ := (memEnumeration several le_rfl).mp member
    refine ⟨?_, fun radix inside => radixWide radix (all radix inside), product⟩
    rintro rfl
    rw [List.prod_nil] at product
    omega
  · have none_ : enumerateSupportedFactorizations n = [] := by
      rcases Nat.eq_zero_or_pos n with rfl | positive
      · rfl
      · obtain rfl : n = 1 := by omega
        exact nothingForOne 1
    simp [none_] at member

theorem rememberSound (radices : RadixFactors n factors) : Sound Remembers (rememberLeafFactors n factors) (RadixFactors n) := by
  refine soundBind (soundModify fun caches remembers => ⟨remembers.node, fun m found here => ?_⟩) fun _ _ => soundPure radices
  by_cases same : m = n
  · subst same
    have known := (Function.update_self m (some factors) caches.bestLeafFactors).symm.trans here
    exact Option.some.inj known ▸ radices
  · exact remembers.factors m found ((Function.update_of_ne same (some factors) caches.bestLeafFactors).symm.trans here)

theorem selectSound : Sound Remembers (selectLeafFactors host context n) (RadixFactors n) := by
  unfold selectLeafFactors
  split
  next outcome found => exact soundOfExcept fun factors returns => overrideOk found returns
  next =>
    refine soundBind soundGet fun caches remembers => ?_
    split
    next factors here => exact soundPure (remembers.factors n factors here)
    next =>
      split_ifs with single
      · have wide := radixWide n single.2
        exact rememberSound ⟨by simp, by simpa using wide, by simp⟩
      · dsimp only
        split_ifs with short long
        · exact rememberSound (short.2 ▸ by decide)
        · exact rememberSound (long.2 ▸ by decide)
        · split
          · have factorized : ∀ factors, factorizeOrRaise n = .ok factors → RadixFactors n factors := by
              intro factors returns
              unfold factorizeOrRaise at returns
              dsimp only at returns
              split_ifs at returns with remainder some_
              cases returns
              exact supportedFactors ⟨not_not.mp remainder, some_⟩
            exact soundBind (soundOfExcept factorized) fun factors radices => rememberSound radices
          next first rest same =>
            have inside : bestFactors context n first (first :: rest) ∈ first :: first :: rest := foldPicks _ _ _
            refine rememberSound (enumeratedFactors ?_)
            rw [same]
            simpa using inside

end Factors

section Leaves
variable {context : RequestContext} {n : ℕ} {factors : List ℕ}

theorem chooseLanesPositive (wide : Bool) : 0 < chooseLanes wide n factors := by
  unfold chooseLanes
  dsimp only
  cases found : (Codegen.candidates _).find? _ with
  | none => exact one_pos
  | some lanes => exact (Codegen.memCandidates.mp (List.mem_of_find?_eq_some found)).1

theorem numWarpsPositive (lanes : ℕ) : 0 < chooseNumWarps context lanes := by
  unfold chooseNumWarps ceilPowerOfTwo
  positivity

theorem foldMember (radices found : List ℤ) (radix : ℤ) :
    radix ∈ radices.foldl (fun found radix => if radix ∉ kSpecializedButterflyRadices ∧ radix ∉ kSpecializedDirectCodeletRadices ∧
        radix ∉ found then found ++ [radix] else found) found ↔
      radix ∈ found ∨ (radix ∈ radices ∧ radix ∉ kSpecializedButterflyRadices ∧ radix ∉ kSpecializedDirectCodeletRadices) := by
  induction radices generalizing found with
  | nil => simp
  | cons head rest ih =>
      rw [List.foldl_cons, ih]
      split_ifs with fresh
      · simp only [List.mem_append, List.mem_cons, List.not_mem_nil, or_false]
        grind
      · simp only [List.mem_cons]
        grind

theorem genericMember (radices : List ℤ) (radix : ℤ) : radix ∈ defaultGenericRadices radices ↔
    radix ∈ radices ∧ radix ∉ kSpecializedButterflyRadices ∧ radix ∉ kSpecializedDirectCodeletRadices := by
  simp only [defaultGenericRadices, List.mem_mergeSort, foldMember, List.not_mem_nil, false_or]

/- The matrices of a leaf are those of its own factors, so they are counted in naturals. -/
theorem genericNaturals (factors : List ℕ) : ∃ generic : List ℕ,
    generic.map (fun radix : ℕ => (radix : ℤ)) = defaultGenericRadices (factors.map fun radix : ℕ => (radix : ℤ)) := by
  refine ⟨(defaultGenericRadices (factors.map fun radix : ℕ => (radix : ℤ))).map Int.toNat, ?_⟩
  rw [List.map_map]
  refine (List.map_congr_left fun radix member => ?_).trans (List.map_id _)
  obtain ⟨natural, _, rfl⟩ := List.mem_map.mp ((genericMember _ radix).mp member).1
  rfl

/- The leaf of some factors, whatever chose them. -/
theorem makeLeafSound {node : PlanNode} (radices : RadixFactors n factors) (made : makeLeafPlan context n factors = .ok node) :
    WellPlanned n node := by
  have positive : 0 < n := Nat.zero_lt_of_lt radices.several
  obtain ⟨generic, same⟩ := genericNaturals factors
  let leaf : LeafPlanNode := ⟨n, factors, lanesOf context n factors, generic, radices.product, positive, chooseLanesPositive _⟩
  have planned : PlannerLeaf leaf := .made radices.nonempty radices.wide _ rfl
  have matrices : MatricesCover leaf := by
    intro radix member plain
    have here : (radix : ℤ) ∈ generic.map fun radix : ℕ => (radix : ℤ) := by
      rw [same, genericMember]
      simp only [specializedRadix, Bool.or_eq_false_iff, List.contains_eq_mem, decide_eq_false_iff_not] at plain
      exact ⟨List.mem_map_of_mem member, plain⟩
    obtain ⟨other, inside, equal⟩ := List.mem_map.mp here
    exact Int.ofNat.inj equal ▸ inside
  cases elements : leafSmemElements context n factors with
  | none => simp [makeLeafPlan, elements] at made
  | some count =>
      have size : count = leaf.smemSize := by
        unfold leafSmemElements at elements
        unfold LeafPlanNode.smemSize
        split_ifs at elements ⊢ <;> exact (Option.some.inj elements).symm
      simp only [makeLeafPlan, elements, Except.ok.injEq] at made
      rw [← made, size, ← same]
      exact .leaf leaf planned matrices _ (numWarpsPositive _)

theorem threadLocalRadix : ∀ radix ∈ kThreadLocalRegisterRadices, radix ∈ Codegen.threadLocalMixedRadices ∧ 0 < radix := by decide

/- The matrix for 32 is listed although there is a codelet. -/
theorem threadLocalSound {radix : ℕ} (member : radix ∈ kThreadLocalRegisterRadices) :
    WellPlanned (radix * kThreadLocalCrossRadix) (threadLocalLeaf radix) := by
  obtain ⟨mixed, positive⟩ := threadLocalRadix radix member
  have whole : 0 < radix * kThreadLocalCrossRadix := Nat.mul_pos positive (by decide)
  let leaf : LeafPlanNode := ⟨radix * kThreadLocalCrossRadix, [radix, 32], radix, if radix = 32 then [32] else [],
    by simp [kThreadLocalCrossRadix], whole, positive⟩
  have matrices : MatricesCover leaf := by
    have codelets : ∀ radix ∈ kThreadLocalRegisterRadices, specializedRadix radix = true := by decide
    have cross : specializedRadix 32 = true := by decide
    intro other inside plain
    have cases_ : other = radix ∨ other = 32 := by simpa [leaf] using inside
    rcases cases_ with rfl | rfl
    · simp [codelets _ member] at plain
    · simp [cross] at plain
  have built := WellPlanned.leaf leaf (.threadLocal radix mixed rfl rfl) matrices (if radix = 32 then 2 else 1) (by split_ifs <;> decide)
  have size : leaf.smemSize = ceilPowerOfTwo (radix * kThreadLocalCrossRadix) := if_neg (by simp [leaf])
  convert built using 1
  rw [threadLocalLeaf, leafNode, size]
  split_ifs with last <;> simp [leaf, last, kThreadLocalCrossRadix]

end Leaves

section Stockham
variable {n : ℕ}

theorem naturalWide : ∀ radix ∈ kNaturalOrderRadices, 2 ≤ radix := by decide

/- What is taken out and what is left make up what there was. -/
theorem splitRadixProduct (radix fuel : ℕ) (factors : List ℕ) (factor : ℕ) :
    (splitRadix radix fuel factors factor).1.prod * (splitRadix radix fuel factors factor).2 = factors.prod * factor := by
  induction fuel generalizing factors factor with
  | zero => rfl
  | succ fuel ih =>
      unfold splitRadix
      split_ifs with divides
      · rw [ih, List.prod_append, List.prod_singleton, Nat.mul_assoc, Nat.mul_div_cancel' (Nat.dvd_of_mod_eq_zero divides)]
      · rfl

theorem splitRadixWide {radix : ℕ} (wide : 2 ≤ radix) (fuel : ℕ) {factors : List ℕ} (all : ∀ f ∈ factors, 2 ≤ f) (factor : ℕ) :
    ∀ f ∈ (splitRadix radix fuel factors factor).1, 2 ≤ f := by
  induction fuel generalizing factors factor with
  | zero => exact all
  | succ fuel ih =>
      unfold splitRadix
      split_ifs with divides
      · refine ih ?_ _
        simpa [or_imp, forall_and] using ⟨all, wide⟩
      · exact all

/- What is left does not depend on what was taken out before. -/
theorem splitRadixRest (radix fuel : ℕ) (factors others : List ℕ) (factor : ℕ) :
    (splitRadix radix fuel factors factor).2 = (splitRadix radix fuel others factor).2 := by
  induction fuel generalizing factors others factor with
  | zero => rfl
  | succ fuel ih =>
      unfold splitRadix
      split_ifs
      · exact ih _ _ _
      · rfl

/- One supported radix, by the natural-order radices. -/
def naturalSplit (radices : List ℕ) (fuel : ℕ) (state : List ℕ × ℕ) : List ℕ × ℕ :=
  radices.foldl (fun state radix => splitRadix radix fuel state.1 state.2) state

theorem naturalSplitKeeps {radices : List ℕ} (wide : ∀ radix ∈ radices, 2 ≤ radix) (fuel : ℕ) {state : List ℕ × ℕ}
    (all : ∀ f ∈ state.1, 2 ≤ f) : (∀ f ∈ (naturalSplit radices fuel state).1, 2 ≤ f) ∧
      (naturalSplit radices fuel state).1.prod * (naturalSplit radices fuel state).2 = state.1.prod * state.2 := by
  induction radices generalizing state with
  | nil => exact ⟨all, rfl⟩
  | cons radix rest ih =>
      obtain ⟨head, tail⟩ := List.forall_mem_cons.mp wide
      obtain ⟨kept, product⟩ := @ih tail (splitRadix radix fuel state.1 state.2) (splitRadixWide head fuel all _)
      exact ⟨kept, product.trans (splitRadixProduct radix fuel _ _)⟩

theorem naturalSplitRest (radices : List ℕ) (fuel : ℕ) {state other : List ℕ × ℕ} (same : state.2 = other.2) :
    (naturalSplit radices fuel state).2 = (naturalSplit radices fuel other).2 := by
  induction radices generalizing state other with
  | nil => exact same
  | cons radix rest ih =>
      refine ih ?_
      change (splitRadix radix fuel state.1 state.2).2 = (splitRadix radix fuel other.1 other.2).2
      rw [same]
      exact splitRadixRest radix fuel _ _ _

/- Every supported radix is used up. -/
theorem naturalSplitWhole : ∀ factor ∈ kSupportedRadices, (naturalSplit kNaturalOrderRadices factor ([], factor)).2 = 1 := by decide

/- Radix after radix, each of them split completely. -/
theorem stockhamLoop {rest found : List ℕ} (all : ∀ factor ∈ rest, factor ∈ kSupportedRadices) (wide : ∀ f ∈ found, 2 ≤ f) :
    (∀ f ∈ rest.foldl (fun factors factor => (naturalSplit kNaturalOrderRadices factor (factors, factor)).1) found, 2 ≤ f) ∧
      (rest.foldl (fun factors factor => (naturalSplit kNaturalOrderRadices factor (factors, factor)).1) found).prod =
        found.prod * rest.prod := by
  induction rest generalizing found with
  | nil => simpa using wide
  | cons factor rest ih =>
      obtain ⟨member, others⟩ := List.forall_mem_cons.mp all
      obtain ⟨kept, step⟩ := @naturalSplitKeeps _ naturalWide factor (found, factor) wide
      have one := (@naturalSplitRest kNaturalOrderRadices factor (found, factor) ([], factor) rfl).trans (naturalSplitWhole factor member)
      rw [one, Nat.mul_one] at step
      obtain ⟨wide', product⟩ := ih others kept
      exact ⟨wide', by rw [List.foldl_cons, product, step, List.prod_cons, Nat.mul_assoc]⟩

theorem stockhamFactorsOk (several : 1 < n) (whole : (factorizeSupportedRadices n).remainder = 1) : RadixFactors n (stockhamFactors n) := by
  have product := @factorProduct n n []
  rw [show (factorLoop n n []).remainder = 1 from whole, List.prod_nil, Nat.one_mul, Nat.mul_one] at product
  obtain ⟨wide, equal⟩ := @stockhamLoop (factorizeSupportedRadices n).factors [] (factorMembers (by simp)) (by simp)
  have length : (stockhamFactors n).prod = n := equal.trans (by rw [List.prod_nil, Nat.one_mul]; exact product)
  refine ⟨fun none_ => ?_, wide, length⟩
  rw [none_, List.prod_nil] at length
  omega

end Stockham

end FlagFft.Plan
