import FlagFft.Leaf.SharedStages

/-! What the stages on two shared buffers compute: every stage extends the partial transform of its slot by one factor,
and the last one hands over the transform of the row. -/
namespace FlagFft.Leaf.SharedStages
open Library.Indexing Library.Stores Library.MixedRadix Library.Dft

variable {K : Type*} [Field K] {plan : StagePlan} {tables : List (ℕ → K)} {w : K} {stage c q : ℕ} {row : ℕ → K}

/- The entries of the tables, where a stage reads them. -/
def TwiddlePowers (plan : StagePlan) (tables : List (ℕ → K)) (w : K) : Prop :=
  ∀ stage, 0 < stage → stage < plan.stages → ∀ c < plan.codelets stage, ∀ t < plan.radix stage,
    StagePlan.twiddle tables stage (plan.element stage c t) =
      w ^ (suffixProduct plan.factors (stage + 1) * (c % prefixProduct plan.factors stage * t))

/- The operands of a codelet are twiddled partial transforms. -/
def Partial (plan : StagePlan) (tables : List (ℕ → K)) (w : K) (row : ℕ → K) (stage : ℕ) (y : ℕ → K) : Prop :=
  ∀ c < plan.codelets stage, ∀ t < plan.radix stage, operand plan tables stage y c t =
    partialDft plan.factors w stage row (c % prefixProduct plan.factors stage)
        (t * suffixProduct plan.factors (stage + 1) + c / prefixProduct plan.factors stage) *
      w ^ (suffixProduct plan.factors (stage + 1) * (c % prefixProduct plan.factors stage * t))

theorem partialStart : Partial plan tables w row 0 row := by
  intro c hc t ht
  have single : plan.codelets 0 = suffixProduct plan.factors 1 := by
    rw [StagePlan.codelets, prefixProductZero, Nat.one_mul]
  rw [operand, if_pos rfl, (inputInside hc ht).1, partialDftStart, prefixProductZero, Nat.mod_one, Nat.div_one, Nat.zero_mul,
    Nat.mul_zero, pow_zero, mul_one, single]

/- One stage: its outputs are partial transforms over one more factor. -/
theorem partialOutput (root : w ^ plan.length = 1) (h : stage < plan.stages) {y : ℕ → K}
    (ready : Partial plan tables w row stage y) (hc : c < plan.codelets stage) (q : ℕ) :
    transformed plan tables w stage y c q = partialDft plan.factors w (stage + 1) row
      (c % prefixProduct plan.factors stage + prefixProduct plan.factors stage * q) (c / prefixProduct plan.factors stage) := by
  have count : plan.length / plan.radix stage =
      prefixProduct plan.factors stage * suffixProduct plan.factors (stage + 1) := codeletCount plan.positive h
  rw [transformed, count, ← partialDftStep root h, dft]
  exact Finset.sum_congr rfl fun t ht => by rw [ready c hc t (Finset.mem_range.mp ht)]

theorem partialStep (root : w ^ plan.length = 1) (powers : TwiddlePowers plan tables w) (h : stage + 1 < plan.stages)
    {y : ℕ → K} (ready : Partial plan tables w row stage y) :
    Partial plan tables w row (stage + 1) (slotStage plan tables w false stage y) := by
  intro c hc t ht
  have here := Nat.lt_of_succ_lt h
  obtain ⟨c₀, q₀, hc₀, hq₀, codelet, digit⟩ := nextSource plan.positive h hc ht
  have stored : plan.element (stage + 1) c t = plan.route stage c₀ q₀ := by rw [StagePlan.route, codelet, digit]
  have low := (nextPrefix plan.positive here (c := c₀) hq₀).1
  obtain ⟨_, _, time⟩ := nextInside plan.positive h hc₀ hq₀
  rw [operand, if_neg stage.succ_ne_zero, powers _ stage.succ_pos h c hc t ht, slotStage, if_neg (by simp), stored,
    stageValue h hc₀ hq₀, partialOutput root here ready hc₀ q₀, ← low, ← time, codelet, digit]

theorem partialStages (root : w ^ plan.length = 1) (powers : TwiddlePowers plan tables w) (h : stage < plan.stages) :
    Partial plan tables w row stage (slotStages plan tables w false stage row) := by
  induction stage with
  | zero => exact partialStart
  | succ stage ih =>
      have run : slotStages plan tables w false (stage + 1) row =
          slotStage plan tables w false stage (slotStages plan tables w false stage row) := by
        rw [slotStages, List.range_succ, List.foldl_append]
        rfl
      rw [run]
      exact partialStep root powers h (ih (Nat.lt_of_succ_lt h))

theorem lastInside (plan : StagePlan) : plan.last < plan.stages := Nat.sub_lt plan.nonempty one_pos

theorem lastSucc (plan : StagePlan) : plan.last + 1 = plan.factors.length := Nat.sub_add_cancel plan.nonempty

theorem lastCodelets (plan : StagePlan) : plan.codelets plan.last = prefixProduct plan.factors plan.last := by
  rw [StagePlan.codelets, suffixProductEnd (lastSucc plan).ge, Nat.mul_one]

/- The codelets of the last stage, each with every output of its butterfly. -/
theorem outputInside (hc : c < plan.codelets plan.last) (hq : q < plan.radix plan.last) :
    outputIndex plan.factors c q < plan.length ∧
      outputIndex plan.factors c q = c + prefixProduct plan.factors plan.last * q := by
  rw [lastCodelets] at hc
  have index : outputIndex plan.factors c q = c + prefixProduct plan.factors plan.last * q := by
    rw [Nat.mul_comm]
    exact outputIndexEq hc q
  refine ⟨?_, index⟩
  rw [index, plan.elements (lastInside plan), lastCodelets]
  exact laneGroupLt hc hq

theorem outputFound {k : ℕ} (hk : k < plan.length) :
    ∃ c < plan.codelets plan.last, ∃ q < plan.radix plan.last, outputIndex plan.factors c q = k := by
  rw [plan.elements (lastInside plan)] at hk
  have positive : 0 < plan.codelets plan.last := Nat.pos_of_mul_pos_right (Nat.zero_lt_of_lt hk)
  refine ⟨_, Nat.mod_lt k positive, _, Nat.div_lt_of_lt_mul hk, ?_⟩
  rw [(outputInside (Nat.mod_lt k positive) (Nat.div_lt_of_lt_mul hk)).2, ← lastCodelets, Nat.mod_add_div]

theorem slotValueDft (root : w ^ plan.length = 1) (powers : TwiddlePowers plan tables w) (hc : c < plan.codelets plan.last)
    (hq : q < plan.radix plan.last) :
    slotValue plan tables w false row c q = dft plan.length w row (outputIndex plan.factors c q) := by
  obtain ⟨_, index⟩ := outputInside hc hq
  have inside : c < prefixProduct plan.factors plan.last := lastCodelets plan ▸ hc
  rw [slotValue, partialOutput root (lastInside plan) (partialStages root powers (lastInside plan)) hc, Nat.mod_eq_of_lt inside,
    Nat.div_eq_of_lt inside, ← index, lastSucc, partialDftEnd]
  rfl

/- The values handed over are the transforms of the rows, one for every active slot and output. -/
theorem memFinalValues {layout : SharedLayout plan.length} {slots : List ℕ} {input : ℕ → ℕ → K} {shared : Shared → K}
    (root : w ^ plan.length = 1) (powers : TwiddlePowers plan tables w) {slot out : ℕ} {value : K} :
    (slot, out, value) ∈ finalValues plan layout tables w false slots input shared ↔
      slot ∈ slots ∧ out < plan.length ∧ value = dft plan.length w (input slot) out := by
  have inside := lastInside plan
  have output {slot lane group digit : ℕ} (active : slot ∈ slots) (hl : lane < plan.lanes plan.last)
      (hg : group < plan.groups plan.last) (hd : digit < plan.radix plan.last) :
      stageOutput plan layout tables w false input plan.last
          (exchangeStages plan layout tables w false slots input plan.last shared) slot lane group digit =
        dft plan.length w (input slot) (outputIndex plan.factors (plan.codelet plan.last lane group) digit) :=
    (outputEq inside (viewStages inside active shared) hl hg digit).trans
      (slotValueDft root powers (plan.codeletInside inside hl hg) hd)
  simp only [finalValues, StagePlan.threads, List.mem_flatMap, List.mem_map, List.mem_range, Prod.exists, Prod.mk.injEq]
  constructor
  · rintro ⟨group, hg, digit, hd, _, lane, ⟨_, active, _, hl, rfl, rfl⟩, rfl, rfl, rfl⟩
    exact ⟨active, (outputInside (plan.codeletInside inside hl hg) hd).1, output active hl hg hd⟩
  · rintro ⟨active, bound, rfl⟩
    obtain ⟨c, hc, q, hq, rfl⟩ := outputFound bound
    obtain ⟨hl, hg, codelet⟩ := plan.codeletFound inside hc
    refine ⟨_, hg, q, hq, slot, _, ⟨slot, active, _, hl, rfl, rfl⟩, rfl, ?_, ?_⟩
    · rw [codelet]
    · rw [output active hl hg hq, codelet]

end FlagFft.Leaf.SharedStages
