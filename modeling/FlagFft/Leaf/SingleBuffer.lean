import FlagFft.Leaf.SharedStages
import Mathlib.Algebra.CharZero.Defs

/-! One shared buffer against two. They hand over the same values exactly when no group stores where a later group of
its stage still loads: every stage is a bijection, so a cell lost in one stage is missing from the result. -/
namespace FlagFft.Leaf.SharedStages
open Library.Indexing Library.Stores Library.MixedRadix Library.Dft Library.InPlace Library.Inverse

variable {K : Type*} [Field K] {plan : StagePlan} {tables : List (ℕ → K)} {w : K} {stage count : ℕ} {y y' : ℕ → K}

/- What a group stores lies in its own block of the buffer or in the block of an earlier group. -/
def NoOverwrite (plan : StagePlan) (stage : ℕ) : Prop :=
  ∀ c < plan.codelets stage, ∀ q < plan.radix stage,
    plan.route stage c q / (plan.lanes stage * plan.radix stage) ≤ c / plan.lanes stage

/- The tables hold units where the kernel reads them. -/
def TwiddleUnits (plan : StagePlan) (tables : List (ℕ → K)) : Prop :=
  ∀ stage, 0 < stage → stage < plan.stages → ∀ c < plan.codelets stage, ∀ t < plan.radix stage,
    StagePlan.twiddle tables stage (plan.element stage c t) ≠ 0

section Congruence

theorem slotStageCongr (single : Bool) (h : stage + 1 < plan.stages) (same : ∀ i < plan.length, y i = y' i) :
    ∀ i < plan.length, slotStage plan tables w single stage y i = slotStage plan tables w single stage y' i := by
  have inside := Nat.lt_of_succ_lt h
  have stores {group : ℕ} (member : group ∈ List.range (plan.groups stage)) {z z' : ℕ → K}
      (equal : ∀ i < plan.length, z i = z' i) :
      slotStores plan tables w stage group z = slotStores plan tables w stage group z' :=
    slotStoresCongr inside (List.mem_range.mp member) equal
  rw [slotStage, slotStage]
  split
  · generalize plan.groups stage = groups at stores
    revert stores
    generalize List.range groups = order
    intro stores
    induction order generalizing y y' with
    | nil => exact same
    | cons group rest ih =>
        have equal := stores List.mem_cons_self same
        refine ih (fun i hi => ?_) fun member => stores (List.mem_cons_of_mem group member)
        simp only [equal]
        exact commitAllAgree (same i hi)
  · intro i hi
    rw [List.flatMap_congr fun group member => stores member same]
    exact commitAllAgree (same i hi)

theorem slotStagesSucc (single : Bool) (row : ℕ → K) : slotStages plan tables w single (count + 1) row =
    slotStage plan tables w single count (slotStages plan tables w single count row) := by
  rw [slotStages, List.range_succ, List.foldl_append]
  rfl

theorem slotStagesCongr (single : Bool) (h : count < plan.stages) (same : ∀ i < plan.length, y i = y' i) :
    ∀ i < plan.length, slotStages plan tables w single count y i = slotStages plan tables w single count y' i := by
  induction count with
  | zero => exact same
  | succ count ih =>
      rw [slotStagesSucc, slotStagesSucc]
      exact slotStageCongr single h (ih (Nat.lt_of_succ_lt h))

/- Contents that agree at one stage agree from there on. -/
theorem slotStagesFrom (single : Bool) {start finish : ℕ} (order : start ≤ finish) (h : finish < plan.stages)
    (same : ∀ i < plan.length, slotStages plan tables w single start y i = slotStages plan tables w single start y' i) :
    ∀ i < plan.length, slotStages plan tables w single finish y i = slotStages plan tables w single finish y' i := by
  induction finish, order using Nat.le_induction with
  | base => exact same
  | succ finish _ ih =>
      rw [slotStagesSucc, slotStagesSucc]
      exact slotStageCongr single h (ih (Nat.lt_of_succ_lt h))

theorem StagePlan.lastInside : plan.last < plan.stages := Nat.sub_lt plan.nonempty one_pos

theorem slotValueCongr (single : Bool) (same : ∀ i < plan.length, y i = y' i) {c q : ℕ} (hc : c < plan.codelets plan.last) :
    slotValue plan tables w single y c q = slotValue plan tables w single y' c q := by
  rw [slotValue, slotValue, transformedCongr plan.lastInside hc (slotStagesCongr single plan.lastInside same)]

end Congruence

section Footprint

theorem slotFootprint (h : stage < plan.stages) (later : stage ≠ 0) : Footprint (slotStores plan tables w stage)
    fun group i => i / (plan.lanes stage * plan.radix stage) = group where
  same group m m' equal := by
    refine List.flatMap_congr fun digit _ => List.map_congr_left fun lane member => ?_
    have hl := List.mem_range.mp member
    have value : transformed plan tables w stage m' (plan.codelet stage lane group) digit =
        transformed plan tables w stage m (plan.codelet stage lane group) digit := by
      refine dftCongr fun t ht => ?_
      have block : plan.element stage (plan.codelet stage lane group) t / (plan.lanes stage * plan.radix stage) = group := by
        rw [plan.elementGroup h ht, StagePlan.codelet, laneGroupDiv hl]
      rw [operand, operand, if_neg later, if_neg later, equal _ block]
    rw [value]
  addresses group m m' := by
    simp only [slotStores, List.map_flatMap, List.map_map, Function.comp_def]

/- Stages whose groups keep to their blocks do not need a second buffer. -/
theorem slotStageSame (h : stage + 1 < plan.stages) (kept : stage ≠ 0 → NoOverwrite plan stage) :
    slotStage plan tables w true stage y = slotStage plan tables w false stage y := by
  have inside := Nat.lt_of_succ_lt h
  by_cases first : stage = 0
  · simp [slotStage, first]
  · simp only [slotStage, true_and, ne_eq, first, not_false_iff, if_true, Bool.false_eq_true, false_and, if_false]
    refine (slotFootprint inside first).ordered ?_
    refine List.pairwise_lt_range.imp_of_mem fun {group later} member _ below s stored here => ?_
    obtain ⟨digit, hd, lane, hl, rfl⟩ := memSlotStores.mp stored
    have block := kept first _ (plan.codeletInside inside hl (List.mem_range.mp member)) digit hd
    rw [here, StagePlan.codelet, laneGroupDiv hl] at block
    omega

theorem slotStagesSame (h : count < plan.stages) (kept : ∀ stage < count, stage ≠ 0 → NoOverwrite plan stage) (row : ℕ → K) :
    slotStages plan tables w true count row = slotStages plan tables w false count row := by
  induction count with
  | zero => rfl
  | succ count ih =>
      rw [slotStagesSucc, slotStagesSucc, ih (Nat.lt_of_succ_lt h) fun s below => kept s (Nat.lt_succ_of_lt below)]
      exact slotStageSame h (kept count (Nat.lt_succ_self count))

/- A cell that a group stores to before its block is loaded does not show in the result of the stage. -/
theorem slotStageForgets (h : stage + 1 < plan.stages) (later : stage ≠ 0) {c q : ℕ} (hc : c < plan.codelets stage)
    (hq : q < plan.radix stage)
    (beyond : c / plan.lanes stage < plan.route stage c q / (plan.lanes stage * plan.radix stage))
    (same : ∀ i, i ≠ plan.route stage c q → y' i = y i) :
    slotStage plan tables w true stage y' = slotStage plan tables w true stage y := by
  have inside := Nat.lt_of_succ_lt h
  obtain ⟨hl, hg, codelet⟩ := plan.codeletFound inside hc
  have order : List.range (plan.groups stage) = List.range (c / plan.lanes stage) ++
      c / plan.lanes stage :: List.range' (c / plan.lanes stage + 1) (plan.groups stage - (c / plan.lanes stage + 1)) := by
    have count : plan.groups stage = c / plan.lanes stage + (plan.groups stage - (c / plan.lanes stage + 1) + 1) := by omega
    rw [← List.range'_succ, List.range_eq_range', List.range_eq_range']
    conv_lhs => rw [count, ← List.range'_append_1, Nat.zero_add]
  simp only [slotStage, true_and, ne_eq, later, not_false_iff, if_true, order]
  refine (slotFootprint inside later).forgets (fun group member => ?_) beyond.ne' ⟨_, memSlotStores.mpr
    ⟨q, hq, _, hl, rfl⟩, ?_⟩ same
  · exact ((List.mem_range.mp member).trans beyond).ne'
  · rw [codelet]

end Footprint

section Bijection

/- The root of unity of a butterfly. -/
theorem radixRoot (primitive : IsPrimitiveRoot w plan.length) (h : stage < plan.stages) :
    IsPrimitiveRoot (w ^ (plan.length / plan.radix stage)) (plan.radix stage) := by
  have divides : plan.length = plan.length / plan.radix stage * plan.radix stage := by
    have positive : 0 < plan.radix stage := (productsPositive plan.positive h).2.1
    rw [plan.elements h, Nat.mul_div_cancel _ positive]
  exact primitive.pow plan.positive divides

theorem radixUnit [CharZero K] (h : stage < plan.stages) : (plan.radix stage : K) ≠ 0 :=
  Nat.cast_ne_zero.mpr (productsPositive plan.positive h).2.1.ne'

/- Any operands can be loaded. -/
theorem operandFound (units : TwiddleUnits plan tables) (h : stage < plan.stages) (v : ℕ → ℕ → K) :
    ∃ y, ∀ c < plan.codelets stage, ∀ t < plan.radix stage, operand plan tables stage y c t = v c t := by
  obtain ⟨positive, _⟩ := plan.share h
  by_cases first : stage = 0
  · subst first
    refine ⟨fun j => v (j % plan.codelets 0) (j / plan.codelets 0), fun c hc t ht => ?_⟩
    rw [operand, if_pos rfl, (inputInside hc ht).1, mulAddMod hc, mulAddDiv hc]
  · refine ⟨fun i => v (blockedCodelet (plan.lanes stage) (plan.radix stage) i) (blockedDigit (plan.lanes stage)
      (plan.radix stage) i) * (StagePlan.twiddle tables stage i)⁻¹, fun c hc t ht => ?_⟩
    have unit := units stage (Nat.pos_of_ne_zero first) h c hc t ht
    rw [operand, if_neg first, inv_mul_cancel_right₀ unit, StagePlan.element, blockedCodeletOf c positive ht,
      blockedDigitOf c positive ht]

/- Equal operands are loaded from equal cells. -/
theorem operandInj (units : TwiddleUnits plan tables) (h : stage < plan.stages)
    (same : ∀ c < plan.codelets stage, ∀ t < plan.radix stage, operand plan tables stage y c t = operand plan tables stage y' c t) :
    ∀ i < plan.length, y i = y' i := by
  intro i hi
  by_cases first : stage = 0
  · subst first
    rw [plan.elements h] at hi
    have codelets : 0 < plan.codelets 0 := Nat.pos_of_mul_pos_right (Nat.zero_lt_of_lt hi)
    have hc := Nat.mod_lt i codelets
    have ht : i / plan.codelets 0 < plan.radix 0 := Nat.div_lt_of_lt_mul hi
    have loaded := same _ hc _ ht
    rwa [operand, operand, if_pos rfl, if_pos rfl, (inputInside hc ht).1, Nat.mul_comm, Nat.div_add_mod] at loaded
  · obtain ⟨c, hc, t, ht, rfl⟩ := plan.elementFound h hi
    have loaded := same c hc t ht
    rw [operand, operand, if_neg first, if_neg first] at loaded
    exact mul_right_cancel₀ (units stage (Nat.pos_of_ne_zero first) h c hc t ht) loaded

theorem transformedInj [CharZero K] (primitive : IsPrimitiveRoot w plan.length) (units : TwiddleUnits plan tables)
    (h : stage < plan.stages) (same : ∀ c < plan.codelets stage, ∀ q < plan.radix stage,
      transformed plan tables w stage y c q = transformed plan tables w stage y' c q) :
    ∀ i < plan.length, y i = y' i :=
  operandInj units h fun c hc _ ht => dftInj (radixRoot primitive h) (radixUnit h) (same c hc) ht

theorem slotStageRoute (h : stage + 1 < plan.stages) {c q : ℕ} (hc : c < plan.codelets stage) (hq : q < plan.radix stage) :
    slotStage plan tables w false stage y (plan.route stage c q) = transformed plan tables w stage y c q := by
  rw [slotStage, if_neg (by simp)]
  exact stageValue h hc hq y

theorem slotStagesInj [CharZero K] (primitive : IsPrimitiveRoot w plan.length) (units : TwiddleUnits plan tables)
    (h : count < plan.stages) (same : ∀ i < plan.length,
      slotStages plan tables w false count y i = slotStages plan tables w false count y' i) :
    ∀ i < plan.length, y i = y' i := by
  induction count with
  | zero => exact same
  | succ count ih =>
      rw [slotStagesSucc, slotStagesSucc] at same
      refine ih (Nat.lt_of_succ_lt h) (transformedInj primitive units (Nat.lt_of_succ_lt h) fun c hc q hq => ?_)
      rw [← slotStageRoute h hc hq, ← slotStageRoute h hc hq]
      exact same _ (plan.routeLt h hc hq)

/- Any contents are reached by some row. -/
theorem slotStagesFound [CharZero K] (primitive : IsPrimitiveRoot w plan.length) (units : TwiddleUnits plan tables)
    (h : count < plan.stages) (target : ℕ → K) :
    ∃ row, ∀ i < plan.length, slotStages plan tables w false count row i = target i := by
  induction count generalizing target with
  | zero => exact ⟨target, fun _ _ => rfl⟩
  | succ count ih =>
      have inside := Nat.lt_of_succ_lt h
      obtain ⟨y, operands⟩ := operandFound units inside fun c t =>
        idft (plan.radix count) (w ^ (plan.length / plan.radix count)) (fun q => target (plan.route count c q)) t
      obtain ⟨row, reached⟩ := ih inside y
      refine ⟨row, fun i hi => ?_⟩
      obtain ⟨c, hc, q, hq, rfl⟩ := plan.routeFound h hi
      calc slotStages plan tables w false (count + 1) row (plan.route count c q)
          = slotStage plan tables w false count y (plan.route count c q) := by
            rw [slotStagesSucc]
            exact slotStageCongr false h reached _ hi
        _ = transformed plan tables w count y c q := slotStageRoute h hc hq
        _ = dft (plan.radix count) (w ^ (plan.length / plan.radix count))
              (idft (plan.radix count) (w ^ (plan.length / plan.radix count)) fun q => target (plan.route count c q)) q :=
            dftCongr (operands c hc)
        _ = target (plan.route count c q) := dftIdft (radixRoot primitive inside) (radixUnit inside) _ hq

end Bijection

section Linear

theorem transformedLinear (stage c q : ℕ) (k : K) (x y : ℕ → K) :
    transformed plan tables w stage (fun i => x i + k * y i) c q =
      transformed plan tables w stage x c q + k * transformed plan tables w stage y c q := by
  have split (t : ℕ) : operand plan tables stage (fun i => x i + k * y i) c t =
      operand plan tables stage x c t + k * operand plan tables stage y c t := by
    rw [operand, operand, operand]
    split <;> ring
  simp only [transformed, dft, split, Finset.mul_sum, ← Finset.sum_add_distrib]
  exact Finset.sum_congr rfl fun t _ => by ring

theorem slotStageLinear (single : Bool) (stage : ℕ) : Superposes (slotStage plan tables w single stage) := by
  let entries (group : ℕ) : List (ℕ × ((ℕ → K) → K)) := (List.range (plan.radix stage)).flatMap fun digit =>
    (List.range (plan.lanes stage)).map fun lane => (plan.route stage (plan.codelet stage lane group) digit,
      fun y => transformed plan tables w stage y (plan.codelet stage lane group) digit)
  have stores (group : ℕ) (y : ℕ → K) : slotStores plan tables w stage group y = (entries group).map fun e => ⟨e.1, e.2 y⟩ := by
    simp only [slotStores, entries, List.map_flatMap, List.map_map, Function.comp_def]
  have values (group : ℕ) : ∀ e ∈ entries group, ∀ (k : K) x y, e.2 (fun i => x i + k * y i) = e.2 x + k * e.2 y := by
    intro e member k x y
    simp only [entries, List.mem_flatMap, List.mem_map] at member
    obtain ⟨digit, _, lane, _, rfl⟩ := member
    exact transformedLinear stage _ digit k x y
  by_cases shared : single = true ∧ stage ≠ 0
  · have form : slotStage plan tables w single stage =
        fun y => runStores (slotStores plan tables w stage) (List.range (plan.groups stage)) y := by
      funext y
      rw [slotStage, if_pos shared]
    rw [form]
    generalize List.range (plan.groups stage) = order
    induction order with
    | nil => exact superposesId
    | cons group rest ih =>
        change Superposes fun y => runStores (slotStores plan tables w stage) rest (commitAll y (slotStores plan tables w stage group y))
        have now : Superposes fun y => commitAll y (slotStores plan tables w stage group y) := by
          simp only [stores]
          exact superposesId.commitAll (values group)
        exact ih.comp now
  · have form : slotStage plan tables w single stage = fun y => commitAll y
        (((List.range (plan.groups stage)).flatMap entries).map fun e => ⟨e.1, e.2 y⟩) := by
      funext y
      simp only [slotStage, if_neg shared, stores, List.map_flatMap]
    rw [form]
    refine superposesId.commitAll fun e member => ?_
    obtain ⟨group, _, here⟩ := List.mem_flatMap.mp member
    exact values group e here

theorem slotStagesLinear (single : Bool) : Superposes (slotStages plan tables w single count) := by
  induction count with
  | zero => exact superposesId
  | succ count ih =>
      have form : slotStages plan tables w single (count + 1) =
          fun row => slotStage plan tables w single count (slotStages plan tables w single count row) :=
        funext fun row => slotStagesSucc single row
      rw [form]
      exact (slotStageLinear single count).comp ih

/- How far the two programs are apart on a row. -/
def gap (plan : StagePlan) (tables : List (ℕ → K)) (w : K) (row : ℕ → K) (at_ : ℕ × ℕ) : K :=
  slotValue plan tables w true row at_.1 at_.2 - slotValue plan tables w false row at_.1 at_.2

theorem gapLinear : Superposes (gap plan tables w) := by
  intro k x y at_
  have split (single : Bool) : slotValue plan tables w single (fun i => x i + k * y i) at_.1 at_.2 =
      slotValue plan tables w single x at_.1 at_.2 + k * slotValue plan tables w single y at_.1 at_.2 := by
    rw [slotValue, funext (slotStagesLinear single k x y)]
    exact transformedLinear _ _ _ k _ _
  rw [gap, split, split, gap, gap]
  ring

end Linear

/- Whatever rows are loaded, pulses among them: one buffer is enough exactly when no stage between the first and the last
overwrites what it has yet to load. -/
theorem oneBufferIff [CharZero K] (primitive : IsPrimitiveRoot w plan.length) (units : TwiddleUnits plan tables)
    (loaded : Set K) (pulses : 0 ∈ loaded ∧ 1 ∈ loaded) :
    (∀ row : ℕ → K, (∀ i, row i ∈ loaded) → ∀ c < plan.codelets plan.last, ∀ q < plan.radix plan.last,
      slotValue plan tables w true row c q = slotValue plan tables w false row c q) ↔
    ∀ stage, 0 < stage → stage + 1 < plan.stages → NoOverwrite plan stage := by
  have succLast : plan.last + 1 = plan.stages := Nat.sub_add_cancel plan.nonempty
  constructor
  · intro same stage
    induction stage using Nat.strong_induction_on with
    | _ stage ih =>
    intro later inside
    by_contra bad
    simp only [NoOverwrite, not_forall, Nat.not_le] at bad
    obtain ⟨c, hc, q, hq, beyond⟩ := bad
    have here := Nat.lt_of_succ_lt inside
    have before (row : ℕ → K) : slotStages plan tables w true stage row = slotStages plan tables w false stage row :=
      slotStagesSame here (fun s below late => ih s below (Nat.pos_of_ne_zero late) (by omega)) row
    -- a row that reaches the stage as a pulse in the lost cell
    let pulse : ℕ → K := fun i => if i = plan.route stage c q then 1 else 0
    obtain ⟨row, reached⟩ := slotStagesFound primitive units here pulse
    have rest (i : ℕ) : slotStages plan tables w false stage (fun _ => 0) i = 0 := (slotStagesLinear false).zero i
    have lost : ∀ i < plan.length, slotStages plan tables w true (stage + 1) row i =
        slotStages plan tables w true (stage + 1) (fun _ => 0) i := by
      intro i hi
      rw [slotStagesSucc, slotStagesSucc, before, before, slotStageCongr true inside reached i hi,
        slotStageForgets inside later.ne' hc hq beyond (y := fun _ => 0) fun j other => if_neg other,
        slotStageCongr true inside (fun j _ => rest j) i hi]
    have hidden {c' : ℕ} (hc' : c' < plan.codelets plan.last) (q' : ℕ) :
        slotValue plan tables w true row c' q' = slotValue plan tables w true (fun _ => 0) c' q' := by
      have final := slotStagesFrom true (by omega) plan.lastInside lost
      rw [slotValue, slotValue, transformedCongr plan.lastInside hc' final]
    -- with two buffers the row shows
    obtain ⟨c', hc', q', hq', shown⟩ : ∃ c' < plan.codelets plan.last, ∃ q' < plan.radix plan.last,
        slotValue plan tables w false row c' q' ≠ slotValue plan tables w false (fun _ => 0) c' q' := by
      by_contra flat
      push Not at flat
      have equal : ∀ i < plan.length, row i = (fun _ => (0 : K)) i :=
        slotStagesInj primitive units plan.lastInside (transformedInj primitive units plan.lastInside flat)
      have cell : slotStages plan tables w false stage row (plan.route stage c q) =
          slotStages plan tables w false stage (fun _ => 0) (plan.route stage c q) :=
        slotStagesCongr false here equal _ (plan.routeLt inside hc hq)
      rw [reached _ (plan.routeLt inside hc hq), rest] at cell
      simp [pulse] at cell
    have apart : gap plan tables w row (c', q') ≠ 0 := by
      have zero : gap plan tables w (fun _ => 0) (c', q') = 0 := gapLinear.zero (c', q')
      rw [gap, sub_eq_zero] at zero
      rw [gap, hidden hc', zero, sub_ne_zero]
      exact shown.symm
    obtain ⟨i, _, differs⟩ := gapLinear.pulse (n := plan.length) (fun x y equal => by
      rw [gap, gap, slotValueCongr true equal hc', slotValueCongr false equal hc']) apart
    refine differs (sub_eq_zero.mpr (same _ (fun j => ?_) c' hc' q' hq'))
    split
    · exact pulses.2
    · exact pulses.1
  · intro kept row _ c _ q _
    rw [slotValue, slotValue, slotStagesSame plan.lastInside fun stage below later =>
      kept stage (Nat.pos_of_ne_zero later) (by omega)]

end FlagFft.Leaf.SharedStages
