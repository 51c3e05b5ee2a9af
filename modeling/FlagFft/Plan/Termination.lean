import FlagFft.Plan.Growth

/-! The search for a plan ends. A length asks for shorter lengths and for the lengths of convolutions, and these only ask for
their divisors: one pair of divisors always has a plan, so they never come to the route of the primes. -/
namespace FlagFft.Plan
open Library.Fuel

section Lengths

variable {n : ℕ}

/- A supported length at which no setting makes the choice of factors fail. -/
def Certain (n : ℕ) : Prop := Supported n ∧ n ∉ settingLengths

instance (n : ℕ) : Decidable (Certain n) := inferInstanceAs (Decidable (_ ∧ _))

theorem quotientProper {n1 : ℕ} (divides : n1 ∣ n) (several : 1 < n1) (less : n1 < n) : n / n1 ∣ n ∧ 1 < n / n1 ∧ n / n1 < n := by
  refine ⟨Nat.div_dvd_of_dvd divides, ?_, Nat.div_lt_self (by omega) several⟩
  obtain ⟨m, rfl⟩ := divides
  rw [Nat.mul_div_cancel_left m (by omega)]
  by_contra few
  have small : n1 * m ≤ n1 * 1 := Nat.mul_le_mul_left n1 (by omega)
  omega

/- Every length above the direct transforms is a product of two such lengths. -/
theorem certainPair (supported : Supported n) (long : 128 < n) :
    ∃ n1, n1 ∣ n ∧ 1 < n1 ∧ n1 < n ∧ Certain n1 ∧ Certain (n / n1) := by
  have split : ∀ n1, n1 ∣ n → 1 < n1 → n1 < n → n1 ∉ settingLengths → n / n1 ∉ settingLengths →
      ∃ n1, n1 ∣ n ∧ 1 < n1 ∧ n1 < n ∧ Certain n1 ∧ Certain (n / n1) := by
    intro n1 divides several less first second
    obtain ⟨divides', several', _⟩ := quotientProper divides several less
    exact ⟨n1, divides, several, less, ⟨supportedDivisor supported several divides, first⟩,
      supportedDivisor supported several' divides', second⟩
  rcases Nat.even_or_odd n with even | odd
  · have two : 2 ∣ n := even.two_dvd
    by_cases half : n / 2 ∈ settingLengths
    · have lengths : n = 256 ∨ n = 512 ∨ n = 4096 := by
        simp only [settingLengths, List.mem_cons, List.not_mem_nil, or_false] at half
        omega
      rcases lengths with rfl | rfl | rfl
      · exact split 4 (by decide) (by decide) (by decide) (by decide) (by decide)
      · exact split 8 (by decide) (by decide) (by decide) (by decide) (by decide)
      · exact split 4 (by decide) (by decide) (by decide) (by decide) (by decide)
    · exact split 2 two (by omega) (by omega) (by decide) half
  · have prime := Nat.minFac_prime (by omega : n ≠ 1)
    have radix := supportedSmooth supported _ prime (Nat.minFac_dvd n)
    have small : ∀ r ∈ kSupportedRadices, r ≤ 32 := by decide
    have evens : ∀ m ∈ settingLengths, Even m := by decide
    have first : Odd n.minFac := Odd.of_dvd_nat odd (Nat.minFac_dvd n)
    have second : Odd (n / n.minFac) := Odd.of_dvd_nat odd (Nat.div_dvd_of_dvd (Nat.minFac_dvd n))
    exact split n.minFac (Nat.minFac_dvd n) prime.one_lt (by have := small _ radix; omega)
      (fun inside => Nat.not_even_iff_odd.mpr first (evens _ inside))
      fun inside => Nat.not_even_iff_odd.mpr second (evens _ inside)

/- A length that a convolution can have: the NPU takes powers of two and products of 2, 3, 5 and 7. -/
def ConvolutionLength (context : RequestContext) (c : ℕ) : Prop :=
  c = 1 ∨ (Supported c ∧ (context.deviceType = "npu" → c % 13 ≠ 0 ∧ c % 17 ≠ 0 ∧ c % 19 ≠ 0))

variable {context : RequestContext}

theorem convolutionPositive {c : ℕ} (length : ConvolutionLength context c) : 0 < c := by
  rcases length with rfl | ⟨supported, _⟩
  · exact Nat.one_pos
  · rw [← supportedProduct supported]
    refine List.prod_pos fun radix member => ?_
    have positive : ∀ r ∈ kSupportedRadices, 0 < r := by decide
    exact positive radix (factorMembers (by simp) radix member)

/- No product of 2, 3, 5 and 7 has another prime factor. -/
theorem smoothConvolutionLength {c : ℕ} (kind : ∃ a b e d, c = 2 ^ a * 3 ^ b * 5 ^ e * 7 ^ d) : ConvolutionLength context c := by
  obtain rfl | several : c = 1 ∨ 2 ≤ c := by
    obtain ⟨a, b, e, d, rfl⟩ := kind
    have : 0 < 2 ^ a * 3 ^ b * 5 ^ e * 7 ^ d := by positivity
    omega
  · exact .inl rfl
  · refine .inr ⟨smoothFactors several kind, fun _ => ?_⟩
    obtain ⟨a, b, e, d, rfl⟩ := kind
    have free : ∀ p, p.Prime → p ∉ [2, 3, 5, 7] → (2 ^ a * 3 ^ b * 5 ^ e * 7 ^ d) % p ≠ 0 := by
      intro p prime other zero
      simp only [List.mem_cons, List.not_mem_nil, or_false, not_or] at other
      have divides := Nat.dvd_of_mod_eq_zero zero
      simp only [prime.dvd_mul] at divides
      have away : ∀ q e, q.Prime → p ≠ q → ¬ p ∣ q ^ e := fun q e qPrime apart inside =>
        apart ((Nat.prime_dvd_prime_iff_eq prime qPrime).mp (prime.dvd_of_dvd_pow inside))
      rcases divides with ((two | three) | five) | seven
      · exact away 2 a (by decide) other.1 two
      · exact away 3 b (by decide) other.2.1 three
      · exact away 5 e (by decide) other.2.2.1 five
      · exact away 7 d (by decide) other.2.2.2 seven
    exact ⟨free 13 (by decide) (by decide), free 17 (by decide) (by decide), free 19 (by decide) (by decide)⟩

theorem powerConvolutionLength (minimum : ℕ) : ConvolutionLength context (ceilPowerOfTwo minimum) :=
  smoothConvolutionLength ⟨Nat.clog 2 minimum, 0, 0, 0, by simp [ceilPowerOfTwo]⟩

end Lengths


section Ending

variable {host : Host} {context : RequestContext} {callees : Callees} {n n1 n2 : ℕ}

/- Both searches of a length end. -/
structure Ready (callees : Callees) (n : ℕ) : Prop where
  node : ∀ allow, Ends (callees.node n allow) fun _ => True
  cost : Ends (callees.cost n) fun _ => True

/- And neither throws. -/
structure Sure (callees : Callees) (n : ℕ) : Prop where
  node : ∀ allow, Succeeds (callees.node n allow) fun _ => True
  cost : Succeeds (callees.cost n) fun _ => True

theorem fourStepNodeEnds (row : Ready callees n1) (col : Ready callees n2) :
    Ends (fourStepNode callees n n1 n2) fun _ => True :=
  endsBind (row.node false) fun _ _ => endsBind (col.node false) fun _ _ => endsPure

theorem fourStepNodeSucceeds (row : Sure callees n1) (col : Sure callees n2) :
    Succeeds (fourStepNode callees n n1 n2) fun _ => True :=
  succeedsBind (row.node false) fun _ _ => succeedsBind (col.node false) fun _ _ => succeedsPure trivial

theorem fourStepCostEnds (first : Ready callees n1) (second : Ready callees n2) :
    Ends (fourStepCost host context callees n1 n2) fun _ => True := by
  refine endsBind first.cost fun _ _ => endsBind second.cost fun _ _ => ?_
  split_ifs
  · exact endsBind selectLeafFactorsEnds fun _ _ => endsPure
  · exact endsPure

theorem fourStepCostSucceeds (first : Sure callees n1) (second : Sure callees n2) (certain : Certain n1) :
    Succeeds (fourStepCost host context callees n1 n2) fun _ => True := by
  refine succeedsBind first.cost fun _ _ => succeedsBind second.cost fun _ _ => ?_
  split_ifs
  · exact succeedsBind (selectLeafFactorsSucceeds certain.1 certain.2) fun _ _ => succeedsPure trivial
  · exact succeedsPure trivial

theorem lengthCostEnds {c : ℕ} (ready : Ready callees c) : Ends (lengthCost callees c) fun _ => True :=
  endsBind ready.cost fun _ _ => endsPure

/- The better of two lengths is one of them. -/
theorem compareLengthEnds {best : ℕ × ℚ} {candidate : ℕ} {kind : ℕ → Prop} (ready : Ready callees candidate)
    (old : kind best.1) (new : kind candidate) : Ends (compareLength callees best candidate) fun found => kind found.1 := by
  refine endsBind (lengthCostEnds ready) fun cost _ => (succeedsPure ?_).ends
  split_ifs
  · exact new
  · exact old

section Convolution

/- A convolution length up to a bound, and the searches of all of them end. -/
def Within (context : RequestContext) (bound c : ℕ) : Prop := ConvolutionLength context c ∧ c ≤ bound

def ReadyUpTo (context : RequestContext) (callees : Callees) (bound : ℕ) : Prop := ∀ c, Within context bound c → Ready callees c

variable {bound minimum : ℕ}

/- The window is searched on the other devices, for all supported lengths. -/
theorem windowWithin (several : 2 ≤ minimum)
    (chosen : convolutionSearch (convolutionContext host context) (ceilPowerOfTwo minimum) = .ok .window) :
    ∀ c ∈ windowCandidates minimum (ceilPowerOfTwo minimum), Within context (ceilPowerOfTwo minimum) c := by
  have other : context.deviceType ≠ "npu" := by
    intro npu
    unfold convolutionSearch at chosen
    split_ifs at chosen <;> simp_all [convolutionContext]
  intro c member
  rcases (memWindowCandidates several).mp member with ⟨supported, _, upper⟩ | rfl
  · exact ⟨.inr ⟨supported, fun npu => absurd npu other⟩, upper.trans (min_le_left _ _)⟩
  · exact ⟨powerConvolutionLength minimum, le_rfl⟩

theorem compareSmoothEnds {power candidate : ℕ} {best : ℕ × ℚ} (ready : ReadyUpTo context callees power)
    (member : candidate ∈ smoothCandidates power) (positive : 0 < power) (kept : Within context power best.1) :
    Ends (compareSmooth callees minimum best candidate) fun found => Within context power found.1 := by
  unfold compareSmooth
  obtain ⟨small, _, kind⟩ := (smoothGenerates positive candidate).mp member
  have new : Within context power candidate := ⟨smoothConvolutionLength kind, small⟩
  split_ifs
  · exact (succeedsPure (by exact kept)).ends
  · exact compareLengthEnds (ready candidate new) kept new
  · exact (succeedsPure (by exact kept)).ends

theorem nextLengthEnds (ready : ReadyUpTo context callees bound) (enough : ceilPowerOfTwo minimum ≤ bound) :
    Ends (PlanBuilder.nextSupportedConvolutionLength host context callees minimum) (Within context bound) := by
  unfold PlanBuilder.nextSupportedConvolutionLength
  have power : Within context (ceilPowerOfTwo minimum) (ceilPowerOfTwo minimum) := ⟨powerConvolutionLength minimum, le_rfl⟩
  have weaker : ∀ c, Within context (ceilPowerOfTwo minimum) c → Within context bound c := fun c length =>
    ⟨length.1, length.2.trans enough⟩
  split_ifs with few
  · exact (succeedsPure ⟨.inl rfl, Nat.one_le_two_pow.trans enough⟩).ends
  · have several : 2 ≤ minimum := by omega
    have positive : 0 < ceilPowerOfTwo minimum := convolutionPositive power.1
    have searched := @endsOfExcept _ Caches _ (convolutionSearch (convolutionContext host context) (ceilPowerOfTwo minimum) = .ok ·)
      _ fun _ same => same
    refine endsBind searched fun search chosen => ?_
    cases search with
    | powerOnly => exact (succeedsPure (weaker _ power)).ends
    | smooth =>
        refine endsBind (lengthCostEnds (ready _ (weaker _ power))) fun cost _ => ?_
        have loop := @endsLoop _ Caches _ _ (compareSmooth callees minimum) (smoothCandidates (ceilPowerOfTwo minimum))
          (fun found => Within context (ceilPowerOfTwo minimum) found.1)
          (fun candidate member best kept =>
            compareSmoothEnds (fun c length => ready c (weaker c length)) member positive kept) (ceilPowerOfTwo minimum, cost) power
        exact endsBind loop fun found ok => (succeedsPure (weaker _ ok)).ends
    | window =>
        have all := windowWithin several chosen
        dsimp only
        split
        · exact (succeedsPure (weaker _ power)).ends
        next first rest same =>
          rw [same] at all
          refine endsBind (lengthCostEnds (ready _ (weaker _ (all first List.mem_cons_self)))) fun cost _ => ?_
          have loop := @endsLoop _ Caches _ _ (compareLength callees) (first :: rest)
            (fun found => Within context (ceilPowerOfTwo minimum) found.1)
            (fun candidate member best kept =>
              compareLengthEnds (ready candidate (weaker _ (all candidate member))) kept (all candidate member))
            (first, cost) (all first List.mem_cons_self)
          exact endsBind loop fun found ok => (succeedsPure (weaker _ ok)).ends

/- The convolution of a Bluestein transform is at most four times as long. -/
theorem bluesteinMinimum (n : ℕ) : ceilPowerOfTwo (2 * n - 1) ≤ 4 * n + 1 := by
  rcases Nat.lt_or_ge (2 * n - 1) 2 with few | several
  · have one : Nat.clog 2 (2 * n - 1) = 0 := Nat.clog_of_right_le_one (by omega) 2
    rw [ceilPowerOfTwo, one]
    omega
  · have less : 2 ^ (Nat.clog 2 (2 * n - 1)).pred < 2 * n - 1 := Nat.pow_pred_clog_lt_self Nat.one_lt_two several
    obtain ⟨e, same⟩ := Nat.exists_eq_succ_of_ne_zero (Nat.clog_pos Nat.one_lt_two several).ne'
    rw [same, Nat.pred_succ] at less
    rw [ceilPowerOfTwo, same, Nat.pow_succ]
    omega

theorem makeBluesteinEnds (ready : ReadyUpTo context callees (4 * n + 1)) :
    Ends (makeBluesteinPlan host context callees n) fun made => Within context (4 * n + 1) made.2 := by
  refine endsBind (nextLengthEnds ready (bluesteinMinimum n)) fun found length => ?_
  have conv : Within context (4 * n + 1) (if maca997Fp64 context n then 2048 else found) := by
    split_ifs with special
    · refine ⟨smoothConvolutionLength ⟨11, 0, 0, 0, rfl⟩, ?_⟩
      have : n = 997 := special.2.2.2.1
      omega
    · exact length
  dsimp only
  generalize (if maca997Fp64 context n then 2048 else found) = convLength at conv ⊢
  split_ifs with balanced
  · have half : Ready callees 1024 := ready _ ⟨smoothConvolutionLength ⟨10, 0, 0, 0, rfl⟩, by
      have : n = 524287 := balanced.2.2.1
      omega⟩
    exact endsBind (fourStepNodeEnds half half) fun _ _ => (succeedsPure (by exact conv)).ends
  · exact endsBind ((ready _ conv).node false) fun _ _ => (succeedsPure (by exact conv)).ends

theorem exceptEnds {α : Type} (outcome : Except String α) : Ends (Program.ofExcept outcome : Build α) fun _ => True :=
  endsOfExcept fun _ _ => trivial

theorem makeRaderEnds (ready : ∀ m < max n 1, Ready callees m) : Ends (makeRaderPlan host context callees n) fun _ => True := by
  refine endsBind (exceptEnds _) fun root _ => endsBind (exceptEnds _) fun idx _ => ?_
  by_cases tuned : tunedRaderSplit host context n
  · have long : 180 < n := by rcases tuned.2.2.2.1 with rfl | rfl <;> decide
    simp only [tuned, if_true]
    refine endsBind (fourStepNodeEnds (ready _ ?_) (ready _ ?_)) fun _ _ => endsPure
    · split_ifs <;> omega
    · split_ifs <;> omega
  · simp only [tuned, if_false]
    exact endsBind ((ready _ (by omega)).node false) fun _ _ => endsPure

end Convolution

section Npu


theorem leafCandidateEnds (factors : List ℕ) : Ends (leafCandidate context n factors) fun _ => True :=
  endsBind (exceptEnds _) fun _ _ => endsPure

theorem tryEachEnds {α : Type} {routes : List (Build (Option α))} (all : ∀ route ∈ routes, Ends route fun _ => True) :
    Ends (tryEach routes) fun _ => True := by
  induction routes with
  | nil => exact endsPure
  | cons route rest ih =>
      refine endsBind (all route List.mem_cons_self) fun found _ => ?_
      cases found with
      | some found => exact endsPure
      | none => exact ih fun other member => all other (List.mem_cons_of_mem route member)

/- Where one of the routes finds something, so does the search. -/
theorem tryEachFinds {α : Type} {routes : List (Build (Option α))} (all : ∀ route ∈ routes, Ends route fun _ => True)
    {taken : Build (Option α)} (member : taken ∈ routes) (finds : Ends taken fun found => found.isSome = true) :
    Ends (tryEach routes) fun found => found.isSome = true := by
  induction routes with
  | nil => simp at member
  | cons route rest ih =>
      rcases List.mem_cons.mp member with rfl | later
      · refine endsBind finds fun found here => ?_
        cases found with
        | some found => exact (succeedsPure (by rfl)).ends
        | none => simp at here
      · refine endsBind (all route List.mem_cons_self) fun found _ => ?_
        cases found with
        | some found => exact (succeedsPure (by rfl)).ends
        | none => exact ih (fun other inside => all other (List.mem_cons_of_mem route inside)) later

theorem leafFoundEnds (factors : List ℕ) :
    Ends (do let candidates ← leafCandidate context n factors; pure (some candidates) : NpuRoute) fun _ => True :=
  endsBind (leafCandidateEnds factors) fun _ _ => endsPure

theorem npuRoutesEnd (directDftMax : ℤ) (use3dLeaf use3dAivSmall : Bool) :
    ∀ route ∈ [aivSmallRoute host context n use3dAivSmall, leaf3dRoute host context n use3dLeaf, cubeDftRoute host context n,
      leafLengthRoute host context n, directDftRoute context n directDftMax, factorSplitRoute host context n,
      stockhamRoute host n], Ends route fun _ => True := by
  simp only [List.forall_mem_cons, List.not_mem_nil, false_imp_iff, implies_true, and_true]
  refine ⟨?aivSmall, ?leaf3d, ?cube, ?leafLength, ?direct, ?split, ?stockham⟩
  case aivSmall =>
    unfold aivSmallRoute
    split_ifs
    · exact endsBind selectLeafFactorsEnds fun factors _ => leafFoundEnds factors
    · exact endsPure
  case leaf3d =>
    unfold leaf3dRoute
    split_ifs
    · refine endsBind selectLeafFactorsEnds fun factors _ => ?_
      split_ifs
      · exact leafFoundEnds factors
      · exact endsPure
    · exact endsPure
  case cube =>
    refine endsBind (exceptEnds _) fun _ _ => ?_
    dsimp only
    split_ifs <;> exact endsPure
  case leafLength =>
    refine endsBind (exceptEnds _) fun _ _ => ?_
    split
    · refine endsBind selectLeafFactorsEnds fun _ _ => endsBind (exceptEnds _) fun factors _ => ?_
      split_ifs
      · exact leafFoundEnds factors
      · exact endsThrow
    · exact endsPure
  case direct =>
    unfold directDftRoute
    split_ifs <;> exact endsPure
  case split =>
    refine endsBind (exceptEnds _) fun _ _ => ?_
    split_ifs <;> exact endsPure
  case stockham =>
    unfold stockhamRoute
    dsimp only
    split_ifs <;> exact endsPure

/- A convolution length has small radices, so its Stockham plan exists. -/
theorem stockhamRouteFinds (length : ConvolutionLength context n) (npu : context.deviceType = "npu") :
    Ends (stockhamRoute host n) fun found => found.isSome = true := by
  unfold stockhamRoute
  dsimp only
  split_ifs with factors few
  · exact (succeedsPure (by rfl)).ends
  · exact (succeedsPure (by rfl)).ends
  · rcases length with rfl | ⟨supported, radices⟩
    · exact absurd (by decide : 1 ≤ kDirectDftMaxN) few
    · exact absurd ⟨by unfold kDirectDftMaxN at few; omega, supported.1, .inr (radices npu)⟩ factors

theorem npuShortRouteEnds : Ends (npuShortRoute host context n) fun _ => True :=
  endsBind (exceptEnds _) fun directDftMax _ => endsBind (exceptEnds _) fun use3dLeaf _ =>
    endsBind (exceptEnds _) fun use3dAivSmall _ => tryEachEnds (npuRoutesEnd directDftMax use3dLeaf use3dAivSmall)

theorem npuShortRouteFinds (length : ConvolutionLength context n) (npu : context.deviceType = "npu") :
    Ends (npuShortRoute host context n) fun found => found.isSome = true :=
  endsBind (exceptEnds _) fun directDftMax _ => endsBind (exceptEnds _) fun use3dLeaf _ =>
    endsBind (exceptEnds _) fun use3dAivSmall _ =>
      @tryEachFinds _ _ (npuRoutesEnd directDftMax use3dLeaf use3dAivSmall) (stockhamRoute host n) (by simp)
        (stockhamRouteFinds length npu)

theorem npuConvolutionEnds (length : ConvolutionLength context n) (npu : context.deviceType = "npu") :
    Ends (npuCandidates host context callees n) fun _ => True := by
  refine endsBind (npuShortRouteFinds length npu) fun found here => ?_
  cases found with
  | some candidates => exact endsPure
  | none => simp at here

theorem npuCandidatesEnd (ready : ReadyUpTo context callees (4 * n + 1)) :
    Ends (npuCandidates host context callees n) fun _ => True := by
  refine endsBind npuShortRouteEnds fun found _ => ?_
  cases found with
  | some candidates => exact endsPure
  | none => exact endsBind (makeBluesteinEnds ready) fun _ _ => endsPure

end Npu

section Generic

theorem leafRouteEnds : Ends (leafRoute host context n) fun _ => True := by
  unfold leafRoute
  split_ifs
  · exact endsBind selectLeafFactorsEnds fun _ _ => endsBind (exceptEnds _) fun _ _ =>
      endsBind selectLeafFactorsEnds fun _ _ => endsPure
  · exact endsPure

/- Where no setting is in the way, the leaf never throws, and it is there unless the length is too long for it. -/
theorem leafRouteSucceeds (certain : Certain n) : Succeeds (leafRoute host context n) fun _ => True := by
  unfold leafRoute
  split_ifs with use
  · have select := @selectLeafFactorsSucceeds host context n certain.1 certain.2
    refine succeedsBind select fun factors _ => ?_
    obtain ⟨node, returns⟩ := @makeLeafReturns context n _ factors use.2
    rw [returns]
    exact succeedsBind (@succeedsPure _ _ _ (fun _ => True) _ trivial) fun _ _ =>
      succeedsBind select fun _ _ => succeedsPure trivial
  · exact succeedsPure trivial

/- The columns and rows of a thread-local transform: none of them has a setting of its own. -/
theorem threadLocalChildren (shape : threadLocalShape context n) :
    1 < n / kThreadLocalColLength ∧ n / kThreadLocalColLength < n ∧ kThreadLocalColLength < n ∧
      Certain (n / kThreadLocalColLength) ∧ Certain kThreadLocalColLength := by
  obtain ⟨_, _, columns, cross, register⟩ := shape
  unfold kThreadLocalColLength kThreadLocalCrossRadix at *
  have whole := Nat.div_add_mod n 1024
  have part := Nat.div_add_mod (n / 1024) 32
  have all : ∀ radix ∈ kThreadLocalRegisterRadices, 18 ≤ radix ∧ Certain (32 * radix) := by decide
  obtain ⟨least, certain⟩ := all _ register
  have same : n / 1024 = 32 * (n / 1024 / 32) := by omega
  rw [← same] at certain
  exact ⟨by omega, by omega, by omega, certain, by decide⟩

theorem threadLocalEnds (first : threadLocalShape context n → Ready callees (n / kThreadLocalColLength))
    (second : threadLocalShape context n → Ready callees kThreadLocalColLength) :
    Ends (threadLocalRoute host context callees n) fun _ => True := by
  unfold threadLocalRoute
  split_ifs with shape
  · exact endsBind (fourStepCostEnds (first shape) (second shape)) fun _ _ => endsPure
  · exact endsPure

theorem threadLocalSucceeds (first : threadLocalShape context n → Sure callees (n / kThreadLocalColLength))
    (second : threadLocalShape context n → Sure callees kThreadLocalColLength) :
    Succeeds (threadLocalRoute host context callees n) fun _ => True := by
  unfold threadLocalRoute
  split_ifs with shape
  · exact succeedsBind (fourStepCostSucceeds (first shape) (second shape) (threadLocalChildren shape).2.2.2.1) fun _ _ =>
      succeedsPure trivial
  · exact succeedsPure trivial

section Splits

variable {candidates : List (PlanCandidate ℚ)}

/- The cost of one pair ends as its children do, and a pair that fails leaves the candidates alone. -/
theorem splitRouteSucceeds (row : 1 < n1 → n1 < n → Ready callees n1) (col : 1 < n1 → n1 < n → Ready callees (n / n1)) :
    Succeeds (splitRoute host context callees n candidates n1) fun found => candidates ≠ [] → found ≠ [] := by
  unfold splitRoute
  split_ifs with outside
  · exact succeedsPure (by exact id)
  · rw [not_or, not_le, not_le] at outside
    refine succeedsCatching ?_ fun _ => succeedsPure (by exact id)
    refine endsBind (fourStepNodeEnds (row outside.1 outside.2) (col outside.1 outside.2)) fun node _ => ?_
    refine endsBind (fourStepCostEnds (row outside.1 outside.2) (col outside.1 outside.2)) fun cost _ => ?_
    exact (succeedsPure (by simp)).ends

theorem splitRouteReaches (several : 1 < n1) (less : n1 < n) (row : Sure callees n1) (col : Sure callees (n / n1))
    (certain : Certain n1) : Succeeds (splitRoute host context callees n candidates n1) (· ≠ []) := by
  unfold splitRoute
  rw [if_neg (by omega)]
  refine succeedsUncaught (succeedsBind (fourStepNodeSucceeds row col) fun node _ => ?_)
  exact succeedsBind (fourStepCostSucceeds row col certain) fun cost _ => succeedsPure (by simp)

/- All proper divisors are ready. -/
def DivisorsReady (callees : Callees) (n : ℕ) : Prop := ∀ m, m ∣ n → 1 < m → m < n → Ready callees m

def DivisorsSure (callees : Callees) (n : ℕ) : Prop := ∀ m, m ∣ n → 1 < m → m < n → Certain m → Sure callees m

theorem memDivisors : n1 ∈ enumerateDivisors n ↔ 1 ≤ n1 ∧ n1 ≤ n ∧ n1 ∣ n := by
  rw [enumerateDivisors, List.mem_filter, List.mem_range'_1, decide_eq_true_eq, ← Nat.dvd_iff_mod_eq_zero]
  omega

theorem splitLoopStep (divisors : DivisorsReady callees n) (member : n1 ∈ enumerateDivisors n) :
    Succeeds (splitRoute host context callees n candidates n1) fun found => candidates ≠ [] → found ≠ [] := by
  have divides := (memDivisors.mp member).2.2
  refine splitRouteSucceeds (divisors n1 divides) fun several less => ?_
  obtain ⟨divides', several', less'⟩ := quotientProper divides several less
  exact divisors _ divides' several' less'

theorem splitLoopSucceeds (divisors : DivisorsReady callees n) :
    Succeeds ((enumerateDivisors n).foldlM (splitRoute host context callees n) candidates) fun _ => True :=
  succeedsLoop (fun _ member _ _ => (splitLoopStep divisors member).weaken fun _ _ => trivial) trivial

/- One pair that never throws leaves a candidate, whatever the others do. -/
theorem splitLoopReaches (divisors : DivisorsReady callees n) (sure : DivisorsSure callees n) (supported : Supported n)
    (long : 128 < n) : Succeeds ((enumerateDivisors n).foldlM (splitRoute host context callees n) candidates) (· ≠ []) := by
  obtain ⟨n1, divides, several, less, row, col⟩ := certainPair supported long
  obtain ⟨divides', several', less'⟩ := quotientProper divides several less
  exact succeedsLoopOnce (fun _ member _ => (splitLoopStep divisors member).weaken fun _ _ => trivial)
    (fun _ member _ some_ => (splitLoopStep divisors member).weaken fun _ keeps => keeps some_)
    (memDivisors.mpr ⟨several.le, less.le, divides⟩) fun _ =>
      splitRouteReaches several less (sure n1 divides several less row) (sure _ divides' several' less' col) row

/- Short lengths start with the direct transform. -/
theorem splitLoopFinds (divisors : DivisorsReady callees n) (sure : DivisorsSure callees n) (supported : 128 < n → Supported n)
    (before after : List (PlanCandidate ℚ)) :
    Succeeds ((enumerateDivisors n).foldlM (splitRoute host context callees n) (before ++ directRoute n ++ after)) (· ≠ []) := by
  by_cases long : 128 < n
  · exact splitLoopReaches divisors sure (supported long) long
  · refine succeedsLoop (fun _ member _ kept => (splitLoopStep divisors member).weaken fun _ keeps => keeps kept) ?_
    simp [directRoute, kDirectDftMaxN, not_lt.mp long]

end Splits

theorem threadLocalReady (divisors : DivisorsReady callees n) : Ends (threadLocalRoute host context callees n) fun _ => True := by
  refine threadLocalEnds (fun shape => ?_) fun shape => ?_
  all_goals obtain ⟨several, less, whole, _, _⟩ := threadLocalChildren shape
  · exact divisors _ (Nat.div_dvd_of_dvd (Nat.dvd_of_mod_eq_zero shape.2.2.1)) several less
  · exact divisors _ (Nat.dvd_of_mod_eq_zero shape.2.2.1) (by decide) whole

theorem threadLocalSure (sure : DivisorsSure callees n) : Succeeds (threadLocalRoute host context callees n) fun _ => True := by
  refine threadLocalSucceeds (fun shape => ?_) fun shape => ?_
  all_goals obtain ⟨several, less, whole, certain, certain'⟩ := threadLocalChildren shape
  · exact sure _ (Nat.div_dvd_of_dvd (Nat.dvd_of_mod_eq_zero shape.2.2.1)) several less certain
  · exact sure _ (Nat.dvd_of_mod_eq_zero shape.2.2.1) (by decide) whole certain'

/- A supported length never comes to the route of the primes. -/
theorem supportedEnds (divisors : DivisorsReady callees n) (sure : DivisorsSure callees n) (supported : 128 < n → Supported n) :
    Ends (genericCandidates host context callees n) fun _ => True := by
  refine endsBind leafRouteEnds fun leaf _ => endsBind (threadLocalReady divisors) fun threadLocal _ => ?_
  refine endsBind (splitLoopFinds divisors sure supported leaf threadLocal).ends fun found some_ => ?_
  rw [if_neg fun none_ => some_ none_.1]
  exact endsPure

theorem certainSucceeds (divisors : DivisorsReady callees n) (sure : DivisorsSure callees n) (certain : Certain n) :
    Succeeds (genericCandidates host context callees n) (· ≠ []) := by
  refine succeedsBind (leafRouteSucceeds certain) fun leaf _ => succeedsBind (threadLocalSure sure) fun threadLocal _ => ?_
  refine succeedsBind (splitLoopFinds divisors sure (fun _ => certain.1) leaf threadLocal) fun found some_ => ?_
  rw [if_neg fun none_ => some_ none_.1]
  exact succeedsPure some_

theorem primeRouteEnds (ready : ReadyUpTo context callees (4 * n + 1)) (shorter : ∀ m < max n 1, Ready callees m) :
    Ends (primeRoute host context callees n) fun _ => True := by
  refine endsBind (makeBluesteinEnds ready) fun made length => ?_
  refine endsBind (endsBind (ready _ length).cost fun _ _ => endsPure) fun bluestein _ => ?_
  dsimp only
  split
  · refine endsBind (makeRaderEnds shorter) fun rader _ => ?_
    exact endsBind (endsBind (shorter _ (by omega)).cost fun _ _ => endsPure) fun cost _ => endsPure
  · exact endsPure

theorem genericEnds (ready : ReadyUpTo context callees (4 * n + 1)) (shorter : ∀ m < max n 1, Ready callees m) :
    Ends (genericCandidates host context callees n) fun _ => True := by
  have divisors : DivisorsReady callees n := fun m _ _ less => shorter m (by omega)
  refine endsBind leafRouteEnds fun leaf _ => endsBind (threadLocalReady divisors) fun threadLocal _ => ?_
  refine endsBind (splitLoopSucceeds divisors).ends fun found _ => ?_
  split
  · exact primeRouteEnds ready shorter
  · exact endsPure

end Generic

section Searches

theorem candidatesEnd (ready : ReadyUpTo context callees (4 * n + 1)) (shorter : ∀ m < max n 1, Ready callees m) :
    Ends (buildAutoCandidates host context callees n) fun _ => True := by
  unfold buildAutoCandidates
  split_ifs
  · exact endsThrow
  · exact npuCandidatesEnd ready
  · exact genericEnds ready shorter

/- The heuristic is set back in either case. -/
theorem withHeuristicEnds {α : Type} {search : Build α} {good : α → Prop} (allow : Bool) (ends : Ends search good) :
    Ends (withHeuristic allow search) good := by
  refine endsBind succeedsGet.ends fun caches _ => endsBind succeedsModify.ends fun _ _ => ?_
  refine endsBind (endsCatching ends fun message => endsBind succeedsModify.ends fun _ _ => endsThrow) fun found ok => ?_
  exact endsBind succeedsModify.ends fun _ _ => (succeedsPure (by exact ok)).ends

theorem withHeuristicSucceeds {α : Type} {search : Build α} {good : α → Prop} (allow : Bool) (succeeds : Succeeds search good) :
    Succeeds (withHeuristic allow search) good := by
  refine succeedsBind succeedsGet fun caches _ => succeedsBind succeedsModify fun _ _ => ?_
  refine succeedsBind (succeedsUncaught succeeds) fun found ok => ?_
  exact succeedsBind succeedsModify fun _ _ => succeedsPure (by exact ok)

theorem searchReady (ends : Ends (buildAutoCandidates host context callees n) fun _ => True) :
    Ready ⟨buildAutoNode host context callees, costFor host context callees⟩ n := by
  constructor
  · intro allow
    refine endsBind succeedsGet.ends fun caches _ => ?_
    cases caches.node n with
    | some node => exact endsPure
    | none =>
        refine endsBind (withHeuristicEnds allow (endsBind ends fun _ _ => exceptEnds _)) fun _ _ => ?_
        exact endsBind succeedsModify.ends fun _ _ => endsPure
  · refine endsBind succeedsGet.ends fun caches _ => ?_
    cases caches.cost n with
    | some cost => exact endsPure
    | none =>
        refine endsBind (withHeuristicEnds false ends) fun candidates _ => ?_
        split
        · exact endsThrow
        · exact endsBind (exceptEnds _) fun _ _ => endsBind succeedsModify.ends fun _ _ => endsPure

theorem selectReturns {candidates : List (PlanCandidate ℚ)} (some_ : candidates ≠ []) :
    ∃ best, selectCandidate candidates = .ok best := by
  cases candidates with
  | nil => exact absurd rfl some_
  | cons first rest => exact ⟨_, rfl⟩

theorem selectSucceeds {candidates : List (PlanCandidate ℚ)} (some_ : candidates ≠ []) :
    Succeeds (Program.ofExcept (selectCandidate candidates) : Build (PlanCandidate ℚ)) fun _ => True := by
  obtain ⟨best, returns⟩ := selectReturns some_
  rw [returns]
  exact succeedsPure trivial

theorem searchSure (succeeds : Succeeds (buildAutoCandidates host context callees n) (· ≠ [])) :
    Sure ⟨buildAutoNode host context callees, costFor host context callees⟩ n := by
  constructor
  · intro allow
    refine succeedsBind succeedsGet fun caches _ => ?_
    cases caches.node n with
    | some node => exact succeedsPure trivial
    | none =>
        refine succeedsBind (withHeuristicSucceeds allow (succeedsBind succeeds fun _ some_ => selectSucceeds some_)) fun _ _ => ?_
        exact succeedsBind succeedsModify fun _ _ => succeedsPure trivial
  · refine succeedsBind succeedsGet fun caches _ => ?_
    cases caches.cost n with
    | some cost => exact succeedsPure trivial
    | none =>
        refine succeedsBind (withHeuristicSucceeds false succeeds) fun candidates some_ => ?_
        rw [if_neg some_]
        exact succeedsBind (selectSucceeds some_) fun _ _ => succeedsBind succeedsModify fun _ _ => succeedsPure trivial

end Searches

end Ending

section Levels

variable (host : Host) (context : RequestContext)

/- Off the NPU, a supported length only asks for its divisors, which are supported. -/
theorem supportedReady (other : context.deviceType ≠ "npu") (n : ℕ) (supported : Supported n) :
    ∀ fuel ≥ n, Ready (level host context fuel) n ∧ (Certain n → Sure (level host context fuel) n) := by
  induction n using Nat.strong_induction_on with
  | _ n ih =>
      intro fuel enough
      have positive : 0 < n := convolutionPositive (.inr ⟨supported, fun npu => absurd npu other⟩)
      obtain ⟨fuel, rfl⟩ := Nat.exists_eq_succ_of_ne_zero (by omega : fuel ≠ 0)
      have child : ∀ m, m ∣ n → 1 < m → m < n → Ready (level host context fuel) m ∧
          (Certain m → Sure (level host context fuel) m) := fun m divides several less =>
        ih m less (supportedDivisor supported several divides) fuel (by omega)
      have divisors : DivisorsReady (level host context fuel) n := fun m divides several less => (child m divides several less).1
      have sure : DivisorsSure (level host context fuel) n := fun m divides several less => (child m divides several less).2
      have route : buildAutoCandidates host context (level host context fuel) n = genericCandidates host context (level host context fuel) n := by
        rw [buildAutoCandidates, if_neg positive.ne', if_neg other]
      constructor
      · exact searchReady (by rw [route]; exact supportedEnds divisors sure fun _ => supported)
      · exact fun certain => searchSure (by rw [route]; exact certainSucceeds divisors sure certain)

theorem convolutionReady {c : ℕ} (length : ConvolutionLength context c) {fuel : ℕ} (enough : c ≤ fuel) :
    Ready (level host context fuel) c := by
  have positive := convolutionPositive length
  by_cases npu : context.deviceType = "npu"
  · obtain ⟨fuel, rfl⟩ := Nat.exists_eq_succ_of_ne_zero (by omega : fuel ≠ 0)
    refine searchReady ?_
    rw [buildAutoCandidates, if_neg positive.ne', if_pos npu]
    exact npuConvolutionEnds length npu
  · rcases length with rfl | ⟨supported, _⟩
    · obtain ⟨fuel, rfl⟩ := Nat.exists_eq_succ_of_ne_zero (by omega : fuel ≠ 0)
      refine searchReady ?_
      rw [buildAutoCandidates, if_neg positive.ne', if_neg npu]
      exact supportedEnds (fun m _ several less => by omega) (fun m _ several less => by omega) fun long => by omega
    · exact (supportedReady host context npu c supported fuel enough).1

theorem convolutionsReady {bound fuel : ℕ} (enough : bound ≤ fuel) : ReadyUpTo context (level host context fuel) bound :=
  fun _ length => convolutionReady host context length.1 (length.2.trans enough)

/- A length asks for shorter ones and for convolutions, which ask for no others. -/
theorem lengthReady (n : ℕ) : ∀ fuel ≥ 4 * n + 2, Ready (level host context fuel) n := by
  induction n using Nat.strong_induction_on with
  | _ n ih =>
      intro fuel enough
      obtain ⟨fuel, rfl⟩ := Nat.exists_eq_succ_of_ne_zero (by omega : fuel ≠ 0)
      by_cases zero : n = 0
      · subst zero
        exact searchReady endsThrow
      · exact searchReady (candidatesEnd (convolutionsReady host context (by omega)) fun m less => ih m (by omega) fuel (by omega))

end Levels

/- From every state of the caches, each function of the recursion comes to its result or to an exception. -/
theorem recursionTerminates (host : Host) (context : RequestContext) (n : ℕ) :
    (∀ allow, Terminates fun fuel => (level host context fuel).node n allow) ∧
      (Terminates fun fuel => (level host context fuel).cost n) ∧
      (Terminates fun fuel => buildAutoCandidates host context (level host context fuel) n) ∧
      (Terminates fun fuel => PlanBuilder.nextSupportedConvolutionLength host context (level host context fuel) n) ∧
      (Terminates fun fuel => makeBluesteinPlan host context (level host context fuel) n) ∧
      Terminates fun fuel => makeRaderPlan host context (level host context fuel) n := by
  have shorter : ∀ m < max n 1, Ready (level host context (4 * n + 2)) m := fun m less => by
    exact lengthReady host context m _ (by omega)
  have ready := lengthReady host context n _ le_rfl
  have convolutions := @convolutionsReady host context (4 * n + 1) (4 * n + 2) (by omega)
  refine ⟨fun allow => ?_, ?_, ?_, ?_, ?_, ?_⟩
  · exact endsTerminates (fun fuel => (levelGrows fuel).node n allow) (ready.node allow)
  · exact endsTerminates (fun fuel => (levelGrows fuel).cost n) ready.cost
  · exact endsTerminates (fun fuel => candidatesGrow (levelGrows fuel) n) (candidatesEnd convolutions shorter)
  · exact endsTerminates (fun fuel => nextLengthGrows (levelGrows fuel) n)
      (nextLengthEnds (convolutionsReady host context le_rfl) le_rfl)
  · exact endsTerminates (fun fuel => makeBluesteinGrows (levelGrows fuel) n) (makeBluesteinEnds convolutions)
  · exact endsTerminates (fun fuel => makeRaderGrows (levelGrows fuel) n) (makeRaderEnds shorter)

end FlagFft.Plan
