import FlagFft.Leaf.Tables
import FlagFft.Leaf.Routing
import FlagFft.Library.InPlace
import FlagFft.Library.Inverse

/-! The stages of a leaf between shared buffers: two buffers that alternate, or one that every stage loads from and
stores to. All lanes of a group load, then all lanes store, then the next group of the stage runs. -/
namespace FlagFft.Leaf.SharedStages
open Library.Indexing Library.Stores Library.MixedRadix Library.Dft Library.InPlace Library.Inverse

structure StagePlan where
  factors : List ℕ
  lanes : ℕ → ℕ
  nonempty : 0 < factors.length
  positive : 0 < factors.prod
  lanesFit : ∀ stage < factors.length, LanesFit factors stage (lanes stage)

namespace StagePlan
variable (plan : StagePlan)

def length : ℕ := plan.factors.prod

def stages : ℕ := plan.factors.length

def last : ℕ := plan.stages - 1

def radix (stage : ℕ) : ℕ := radixAt plan.factors stage

def groups (stage : ℕ) : ℕ := groupCount plan.factors stage (plan.lanes stage)

def logicalPhys (stage lane group digit : ℕ) : ℕ := lane + plan.lanes stage * (group * plan.radix stage + digit)

def codelet (stage lane group : ℕ) : ℕ := lane + plan.lanes stage * group

end StagePlan

/- Where the shared memory of a block keeps element index of a slot. -/
structure SharedLayout (length : ℕ) where
  swizzleShift : Option ℕ
  bits : ℕ
  slotStride : ℕ
  fits : length ≤ 2 ^ bits
  apart : 2 ^ bits ≤ slotStride
  shifts : ∀ shift ∈ swizzleShift, 0 < shift

def swizzle (shift index : ℕ) : ℕ := index ^^^ (index >>> shift)

def SharedLayout.smemPhys {length : ℕ} (layout : SharedLayout length) (slot index : ℕ) : ℕ :=
  (match layout.swizzleShift with
    | some shift => swizzle shift index
    | none => index) + slot * layout.slotStride

inductive Shared where
  | smemA (index : ℕ)
  | smemB (index : ℕ)
  deriving DecidableEq, Repr

def sourceBuffer (single : Bool) (stage : ℕ) : ℕ → Shared :=
  if single ∨ stage % 2 = 1 then .smemB else .smemA

def destBuffer (single : Bool) (stage : ℕ) : ℕ → Shared :=
  if single ∨ stage % 2 = 0 then .smemB else .smemA

section Program

variable {K : Type*} [Field K] (plan : StagePlan) (layout : SharedLayout plan.length) (tables : List (ℕ → K)) (w : K)
  (single : Bool) (slots : List ℕ) (input : ℕ → ℕ → K)

def StagePlan.twiddle (stage index : ℕ) : K := tables.getD (stage - 1) (fun _ => 0) index

/- The first stage loads the input of its row, a later one what the stage before it stored. -/
def stageLoads (stage : ℕ) (m : Shared → K) (slot lane group digit : ℕ) : K :=
  if stage = 0 then input slot (inputIndex plan.factors (plan.codelet stage lane group) digit)
  else m (sourceBuffer single stage (layout.smemPhys slot (plan.logicalPhys stage lane group digit))) *
    StagePlan.twiddle tables stage (plan.logicalPhys stage lane group digit)

def stageOutput (stage : ℕ) (m : Shared → K) (slot lane group digit : ℕ) : K :=
  dft (plan.radix stage) (w ^ (plan.length / plan.radix stage))
    (stageLoads plan layout tables single input stage m slot lane group) digit

/- The threads whose lane mask holds. -/
def StagePlan.threads (stage : ℕ) : List (ℕ × ℕ) :=
  slots.flatMap fun slot => (List.range (plan.lanes stage)).map fun lane => (slot, lane)

def exchangeStores (stage group : ℕ) (m : Shared → K) : List (Store Shared K) :=
  (List.range (plan.radix stage)).flatMap fun digit => (plan.threads slots stage).map fun (slot, lane) =>
    ⟨destBuffer single stage (layout.smemPhys slot
        (routeIndex plan.factors stage (plan.codelet stage lane group) (plan.lanes (stage + 1)) digit)),
      stageOutput plan layout tables w single input stage m slot lane group digit⟩

def exchangeStage (stage : ℕ) (m : Shared → K) : Shared → K :=
  runStores (exchangeStores plan layout tables w single slots input stage) (List.range (plan.groups stage)) m

def exchangeStages (count : ℕ) (m : Shared → K) : Shared → K :=
  (List.range count).foldl (fun m stage => exchangeStage plan layout tables w single slots input stage m) m

/- What the last stage hands to the store of the mode: slot, output index, value. -/
def finalValues (shared : Shared → K) : List (ℕ × ℕ × K) :=
  let m := exchangeStages plan layout tables w single slots input plan.last shared
  (List.range (plan.groups plan.last)).flatMap fun group => (List.range (plan.radix plan.last)).flatMap fun digit =>
    (plan.threads slots plan.last).map fun (slot, lane) =>
      (slot, outputIndex plan.factors (plan.codelet plan.last lane group) digit,
        stageOutput plan layout tables w single input plan.last m slot lane group digit)

end Program

section Layout

variable {length : ℕ} {layout : SharedLayout length}

theorem swizzleInj {shift : ℕ} (positive : 0 < shift) {i j : ℕ} (same : swizzle shift i = swizzle shift j) : i = j := by
  have high {v k : ℕ} (above : v ≤ k) : v.testBit k = false :=
    Nat.testBit_lt_two_pow (Nat.lt_two_pow_self.trans_le (Nat.pow_le_pow_right two_pos above))
  refine Nat.eq_of_testBit_eq fun k => ?_
  -- a bit is read off the image once the bits above it agree
  induction distance : max i j - k using Nat.strong_induction_on generalizing k with
  | _ d ih =>
      by_cases above : max i j ≤ k
      · rw [high (le_max_left i j |>.trans above), high (le_max_right i j |>.trans above)]
      · have upper := ih (max i j - (shift + k)) (by omega) (shift + k) rfl
        have bit := congrArg (fun v => v.testBit k) same
        simp only [swizzle, Nat.testBit_xor, Nat.testBit_shiftRight, upper] at bit
        exact Bool.xor_left_inj.mp bit

theorem swizzleLt {shift bits i : ℕ} (inside : i < 2 ^ bits) : swizzle shift i < 2 ^ bits := by
  refine Nat.xor_lt_two_pow inside ?_
  exact (Nat.shiftRight_le i shift).trans_lt inside

/- No two elements of the slots share a cell. -/
theorem SharedLayout.smemPhysInj {slot slot' i j : ℕ} (hi : i < length) (hj : j < length)
    (same : layout.smemPhys slot i = layout.smemPhys slot' j) : slot = slot' ∧ i = j := by
  have bi := hi.trans_le layout.fits
  have bj := hj.trans_le layout.fits
  cases shifted : layout.swizzleShift with
  | none =>
      simp only [smemPhys, shifted] at same
      rw [Nat.add_comm, Nat.add_comm j] at same
      exact mulAddInj (bi.trans_le layout.apart) (bj.trans_le layout.apart) same
  | some shift =>
      simp only [smemPhys, shifted] at same
      rw [Nat.add_comm, Nat.add_comm (swizzle shift j)] at same
      obtain ⟨slots, images⟩ := mulAddInj ((swizzleLt bi).trans_le layout.apart) ((swizzleLt bj).trans_le layout.apart) same
      exact ⟨slots, swizzleInj (layout.shifts shift (by simp [shifted])) images⟩

end Layout

section Plan

variable {plan : StagePlan} {stage lane group c c' q q' : ℕ}

/- The codelets of a stage. -/
def StagePlan.codelets (plan : StagePlan) (stage : ℕ) : ℕ :=
  prefixProduct plan.factors stage * suffixProduct plan.factors (stage + 1)

theorem StagePlan.share (h : stage < plan.stages) :
    0 < plan.lanes stage ∧ plan.lanes stage * plan.groups stage = plan.codelets stage :=
  lanesMulGroups plan.positive h (plan.lanesFit stage h)

theorem StagePlan.elements (h : stage < plan.stages) : plan.length = plan.codelets stage * plan.radix stage := by
  rw [length, factorsProd h, codelets, Nat.mul_right_comm]
  rfl

theorem StagePlan.codeletInside (h : stage < plan.stages) (hl : lane < plan.lanes stage) (hg : group < plan.groups stage) :
    plan.codelet stage lane group < plan.codelets stage := by
  rw [← (plan.share h).2]
  exact laneGroupLt hl hg

theorem StagePlan.codeletFound (h : stage < plan.stages) (hc : c < plan.codelets stage) :
    c % plan.lanes stage < plan.lanes stage ∧ c / plan.lanes stage < plan.groups stage ∧
      plan.codelet stage (c % plan.lanes stage) (c / plan.lanes stage) = c := by
  obtain ⟨positive, share⟩ := plan.share h
  rw [← share] at hc
  exact ⟨Nat.mod_lt _ positive, Nat.div_lt_of_lt_mul hc, Nat.mod_add_div _ _⟩

def StagePlan.element (plan : StagePlan) (stage c q : ℕ) : ℕ := blocked (plan.lanes stage) (plan.radix stage) c q

theorem StagePlan.logicalPhysEq (hl : lane < plan.lanes stage) :
    plan.logicalPhys stage lane group q = plan.element stage (plan.codelet stage lane group) q := by
  rw [logicalPhys, element, blocked, codelet, laneGroupMod hl, laneGroupDiv hl]

theorem StagePlan.elementLt (h : stage < plan.stages) (hc : c < plan.codelets stage) (hq : q < plan.radix stage) :
    plan.element stage c q < plan.length := by
  obtain ⟨positive, share⟩ := plan.share h
  rw [plan.elements h, ← share]
  exact blockedLt positive (share ▸ hc) hq

theorem StagePlan.elementFound (h : stage < plan.stages) {i : ℕ} (hi : i < plan.length) :
    ∃ c < plan.codelets stage, ∃ q < plan.radix stage, plan.element stage c q = i := by
  obtain ⟨positive, share⟩ := plan.share h
  have radix := (productsPositive plan.positive h).2.1
  rw [plan.elements h, ← share] at hi
  have row : i / plan.lanes stage < plan.groups stage * plan.radix stage := by
    exact Nat.div_lt_of_lt_mul (by rwa [Nat.mul_assoc] at hi)
  have group : i / plan.lanes stage / plan.radix stage < plan.groups stage :=
    Nat.div_lt_of_lt_mul (by rwa [Nat.mul_comm] at row)
  refine ⟨i % plan.lanes stage + plan.lanes stage * (i / plan.lanes stage / plan.radix stage), ?_,
    i / plan.lanes stage % plan.radix stage, Nat.mod_lt _ radix, ?_⟩
  · rw [← share]
    exact laneGroupLt (Nat.mod_lt _ positive) group
  · rw [element, blocked, laneGroupMod (Nat.mod_lt _ positive), laneGroupDiv (Nat.mod_lt _ positive), Nat.mul_comm (_ / _ / _),
      Nat.div_add_mod, Nat.mod_add_div]

/- The group that loads an element. -/
theorem StagePlan.elementGroup (h : stage < plan.stages) (hq : q < plan.radix stage) :
    plan.element stage c q / (plan.lanes stage * plan.radix stage) = c / plan.lanes stage := by
  have positive := (plan.share h).1
  rw [← Nat.div_div_eq_div_mul, element, blocked, laneGroupDiv (Nat.mod_lt _ positive), mulAddDiv hq]

/- Where the next stage loads what this one stores. -/
def StagePlan.route (plan : StagePlan) (stage c q : ℕ) : ℕ :=
  plan.element (stage + 1) (nextCodelet plan.factors stage c q) (nextDigit plan.factors stage c)

theorem StagePlan.routeEq (h : stage + 1 < plan.stages) (hc : c < plan.codelets stage) (digit : ℕ) :
    routeIndex plan.factors stage c (plan.lanes (stage + 1)) digit = plan.route stage c digit :=
  routeIndexEq h hc _ _

theorem StagePlan.routeLt (h : stage + 1 < plan.stages) (hc : c < plan.codelets stage) (hq : q < plan.radix stage) :
    plan.route stage c q < plan.length := by
  obtain ⟨next, digit, _⟩ := nextInside plan.positive h hc hq
  exact plan.elementLt h next digit

theorem StagePlan.routeInj (h : stage + 1 < plan.stages) (hc : c < plan.codelets stage) (hc' : c' < plan.codelets stage)
    (hq : q < plan.radix stage) (hq' : q' < plan.radix stage) (same : plan.route stage c q = plan.route stage c' q') :
    c = c' ∧ q = q' := by
  have here : stage < plan.factors.length := Nat.lt_of_succ_lt h
  have positive := (productsPositive plan.positive here).1
  obtain ⟨next, digit, time⟩ := nextInside plan.positive h hc hq
  obtain ⟨next', digit', time'⟩ := nextInside plan.positive h hc' hq'
  obtain ⟨codelets, digits⟩ := blockedInj (plan.share h).1 digit digit' same
  obtain ⟨low, _⟩ := nextPrefix plan.positive here (c := c) hq
  obtain ⟨low', _⟩ := nextPrefix plan.positive here (c := c') hq'
  have times : c / prefixProduct plan.factors stage = c' / prefixProduct plan.factors stage := by
    rw [← time, ← time', codelets, digits]
  have lows := low.symm.trans ((congrArg (· % prefixProduct plan.factors (stage + 1)) codelets).trans low')
  have prefixes := congrArg (· % prefixProduct plan.factors stage) lows
  have outputs := congrArg (· / prefixProduct plan.factors stage) lows
  simp only [laneGroupMod (Nat.mod_lt _ positive)] at prefixes
  simp only [laneGroupDiv (Nat.mod_lt _ positive)] at outputs
  exact ⟨by rw [← Nat.mod_add_div c, ← Nat.mod_add_div c', prefixes, times], outputs⟩

theorem StagePlan.routeFound (h : stage + 1 < plan.stages) {i : ℕ} (hi : i < plan.length) :
    ∃ c < plan.codelets stage, ∃ q < plan.radix stage, plan.route stage c q = i := by
  obtain ⟨next, hnext, digit, hdigit, rfl⟩ := plan.elementFound h hi
  obtain ⟨c, q, hc, hq, codelet, rfl⟩ := nextSource plan.positive h hnext hdigit
  exact ⟨c, hc, q, hq, by rw [route, codelet]⟩

end Plan

section Slot

variable {K : Type*} [Field K] (plan : StagePlan) (tables : List (ℕ → K)) (w : K)

/- What a codelet loads from the row of the first stage, or from the contents of its slot. -/
def operand (stage : ℕ) (y : ℕ → K) (c t : ℕ) : K :=
  if stage = 0 then y (inputIndex plan.factors c t)
  else y (plan.element stage c t) * StagePlan.twiddle tables stage (plan.element stage c t)

def transformed (stage : ℕ) (y : ℕ → K) (c : ℕ) : ℕ → K :=
  dft (plan.radix stage) (w ^ (plan.length / plan.radix stage)) (operand plan tables stage y c)

/- The stores of one slot, on the contents of that slot. -/
def slotStores (stage group : ℕ) (y : ℕ → K) : List (Store ℕ K) :=
  (List.range (plan.radix stage)).flatMap fun digit => (List.range (plan.lanes stage)).map fun lane =>
    ⟨plan.route stage (plan.codelet stage lane group) digit,
      transformed plan tables w stage y (plan.codelet stage lane group) digit⟩

def slotStage (single : Bool) (stage : ℕ) (y : ℕ → K) : ℕ → K :=
  if single = true ∧ stage ≠ 0 then runStores (slotStores plan tables w stage) (List.range (plan.groups stage)) y
  else commitAll y ((List.range (plan.groups stage)).flatMap fun group => slotStores plan tables w stage group y)

def slotStages (single : Bool) (count : ℕ) (y : ℕ → K) : ℕ → K :=
  (List.range count).foldl (fun y stage => slotStage plan tables w single stage y) y

variable {plan tables w} {stage group c q : ℕ} {y y' : ℕ → K}

theorem inputInside (hc : c < plan.codelets 0) (hq : q < plan.radix 0) :
    inputIndex plan.factors c q = q * plan.codelets 0 + c ∧ inputIndex plan.factors c q < plan.length := by
  have codelets : plan.codelets 0 = suffixProduct plan.factors 1 := by
    rw [StagePlan.codelets, prefixProductZero, Nat.one_mul]
  rw [plan.elements plan.nonempty, inputIndexEq plan.nonempty (codelets ▸ hc), Nat.add_comm, codelets,
    Nat.mul_comm (suffixProduct _ _)]
  exact ⟨rfl, mulAddLt hq (codelets ▸ hc)⟩

theorem transformedCongr (h : stage < plan.stages) (hc : c < plan.codelets stage) (same : ∀ i < plan.length, y i = y' i) :
    transformed plan tables w stage y c = transformed plan tables w stage y' c := by
  funext digit
  refine dftCongr fun t ht => ?_
  rw [operand, operand]
  split
  · next first =>
      subst first
      exact same _ (inputInside hc ht).2
  · rw [same _ (plan.elementLt h hc ht)]

theorem slotStoresCongr (h : stage < plan.stages) (hg : group < plan.groups stage) (same : ∀ i < plan.length, y i = y' i) :
    slotStores plan tables w stage group y = slotStores plan tables w stage group y' := by
  refine List.flatMap_congr fun digit _ => List.map_congr_left fun lane member => ?_
  rw [transformedCongr h (plan.codeletInside h (List.mem_range.mp member) hg) same]

theorem memSlotStores {s : Store ℕ K} : s ∈ slotStores plan tables w stage group y ↔
    ∃ digit < plan.radix stage, ∃ lane < plan.lanes stage, s =
      ⟨plan.route stage (plan.codelet stage lane group) digit,
        transformed plan tables w stage y (plan.codelet stage lane group) digit⟩ := by
  simp only [slotStores, List.mem_flatMap, List.mem_map, List.mem_range, eq_comm]

/- A codelet is in the stage exactly when it is a lane of one of its groups. -/
theorem memStageStores (h : stage < plan.stages) {s : Store ℕ K} :
    s ∈ ((List.range (plan.groups stage)).flatMap fun group => slotStores plan tables w stage group y) ↔
      ∃ c < plan.codelets stage, ∃ q < plan.radix stage,
        s = ⟨plan.route stage c q, transformed plan tables w stage y c q⟩ := by
  simp only [List.mem_flatMap, List.mem_range, memSlotStores]
  constructor
  · rintro ⟨group, hg, digit, hd, lane, hl, rfl⟩
    exact ⟨_, plan.codeletInside h hl hg, digit, hd, rfl⟩
  · rintro ⟨c, hc, q, hq, rfl⟩
    obtain ⟨lane, group, codelet⟩ := plan.codeletFound h hc
    exact ⟨_, group, q, hq, _, lane, by rw [codelet]⟩

/- One stage on two buffers, element by element. -/
theorem stageValue (h : stage + 1 < plan.stages) (hc : c < plan.codelets stage) (hq : q < plan.radix stage) (base : ℕ → K) :
    commitAll base ((List.range (plan.groups stage)).flatMap fun group => slotStores plan tables w stage group y)
      (plan.route stage c q) = transformed plan tables w stage y c q := by
  have here := Nat.lt_of_succ_lt h
  refine commitAllWritten ⟨_, (memStageStores here).mpr ⟨c, hc, q, hq, rfl⟩, rfl⟩ fun s member same => ?_
  obtain ⟨c', hc', q', hq', rfl⟩ := (memStageStores here).mp member
  obtain ⟨rfl, rfl⟩ := plan.routeInj h hc' hc hq' hq same
  rfl

end Slot

section View

variable {K : Type*} [Field K] {plan : StagePlan} {layout : SharedLayout plan.length} {tables : List (ℕ → K)} {w : K}
  {single : Bool} {slots : List ℕ} {input : ℕ → ℕ → K} {stage group slot : ℕ} {m : Shared → K} {y : ℕ → K}

/- The contents of a slot. -/
def view (layout : SharedLayout plan.length) (buffer : ℕ → Shared) (slot : ℕ) (m : Shared → K) : ℕ → K := fun i =>
  m (buffer (layout.smemPhys slot i))

/- What a stage loads from: the row, or the contents the source buffer holds for the slot. -/
def Source (layout : SharedLayout plan.length) (single : Bool) (input : ℕ → ℕ → K) (stage slot : ℕ) (m : Shared → K)
    (y : ℕ → K) : Prop :=
  ∀ i < plan.length, (if stage = 0 then input slot i else view layout (sourceBuffer single stage) slot m i) = y i

theorem destInj {i j : ℕ} : destBuffer single stage i = destBuffer single stage j ↔ i = j := by
  rw [destBuffer]
  split <;> simp

theorem sourceNotDest {i j : ℕ} : sourceBuffer false stage i ≠ destBuffer false stage j := by
  rcases Nat.mod_two_eq_zero_or_one stage with even | odd
  · simp [sourceBuffer, destBuffer, even]
  · simp [sourceBuffer, destBuffer, odd]

theorem sourceSucc : sourceBuffer single (stage + 1) = destBuffer single stage := by
  have parity : ((stage + 1) % 2 = 1) = (stage % 2 = 0) := propext (by omega)
  simp only [sourceBuffer, destBuffer, parity]

theorem outputEq (h : stage < plan.stages) (source : Source layout single input stage slot m y) {lane : ℕ}
    (hl : lane < plan.lanes stage) (hg : group < plan.groups stage) (digit : ℕ) :
    stageOutput plan layout tables w single input stage m slot lane group digit =
      transformed plan tables w stage y (plan.codelet stage lane group) digit := by
  have hc := plan.codeletInside h hl hg
  refine dftCongr fun t ht => ?_
  rw [stageLoads, operand]
  split
  · next first =>
      subst first
      simpa using source _ (inputInside hc ht).2
  · next later =>
      have cell := source _ (plan.elementLt h hc ht)
      rw [if_neg later] at cell
      rw [plan.logicalPhysEq hl, ← cell]
      rfl

theorem memExchange {s : Store Shared K} : s ∈ exchangeStores plan layout tables w single slots input stage group m ↔
    ∃ slot ∈ slots, ∃ digit < plan.radix stage, ∃ lane < plan.lanes stage, s =
      ⟨destBuffer single stage (layout.smemPhys slot
          (routeIndex plan.factors stage (plan.codelet stage lane group) (plan.lanes (stage + 1)) digit)),
        stageOutput plan layout tables w single input stage m slot lane group digit⟩ := by
  simp only [exchangeStores, StagePlan.threads, List.mem_flatMap, List.mem_map, List.mem_range, Prod.exists]
  constructor
  · rintro ⟨digit, hd, slot, lane, ⟨_, member, _, hl, pair⟩, rfl⟩
    obtain ⟨rfl, rfl⟩ := Prod.mk.inj pair
    exact ⟨_, member, digit, hd, _, hl, rfl⟩
  · rintro ⟨slot, member, digit, hd, lane, hl, rfl⟩
    exact ⟨digit, hd, slot, lane, ⟨slot, member, lane, hl, rfl⟩, rfl⟩

/- One group, seen from a slot. -/
theorem viewCommit (h : stage + 1 < plan.stages) (hg : group < plan.groups stage) (active : slot ∈ slots)
    (here : Source layout single input stage slot m y) {base : Shared → K} {i : ℕ} (hi : i < plan.length) :
    view layout (destBuffer single stage) slot
        (commitAll base (exchangeStores plan layout tables w single slots input stage group m)) i =
      commitAll (view layout (destBuffer single stage) slot base) (slotStores plan tables w stage group y) i := by
  have inside := Nat.lt_of_succ_lt h
  have hc {lane : ℕ} (hl : lane < plan.lanes stage) := plan.codeletInside inside hl hg
  by_cases written : ∃ digit < plan.radix stage, ∃ lane < plan.lanes stage,
      plan.route stage (plan.codelet stage lane group) digit = i
  · obtain ⟨digit, hd, lane, hl, rfl⟩ := written
    have right : commitAll (view layout (destBuffer single stage) slot base) (slotStores plan tables w stage group y)
        (plan.route stage (plan.codelet stage lane group) digit) =
          transformed plan tables w stage y (plan.codelet stage lane group) digit := by
      refine commitAllWritten ⟨_, memSlotStores.mpr ⟨digit, hd, lane, hl, rfl⟩, rfl⟩ fun s member same => ?_
      obtain ⟨digit', hd', lane', hl', rfl⟩ := memSlotStores.mp member
      obtain ⟨codelets, rfl⟩ := plan.routeInj h (hc hl') (hc hl) hd' hd same
      rw [codelets]
    rw [right, view]
    refine commitAllWritten ⟨_, memExchange.mpr ⟨slot, active, digit, hd, lane, hl, rfl⟩, ?_⟩ fun s member same => ?_
    · rw [plan.routeEq h (hc hl)]
    · obtain ⟨slot', _, digit', hd', lane', hl', rfl⟩ := memExchange.mp member
      simp only [destInj, plan.routeEq h (hc hl')] at same
      obtain ⟨rfl, routes⟩ := layout.smemPhysInj (plan.routeLt h (hc hl') hd') hi same
      obtain ⟨codelets, rfl⟩ := plan.routeInj h (hc hl') (hc hl) hd' hd routes
      rw [← codelets]
      exact outputEq inside here hl' hg digit'
  · have left : commitAll base (exchangeStores plan layout tables w single slots input stage group m)
        (destBuffer single stage (layout.smemPhys slot i)) = base (destBuffer single stage (layout.smemPhys slot i)) := by
      refine commitAllUntouched fun s member same => ?_
      obtain ⟨slot', _, digit', hd', lane', hl', rfl⟩ := memExchange.mp member
      simp only [destInj, plan.routeEq h (hc hl')] at same
      exact written ⟨digit', hd', lane', hl', (layout.smemPhysInj (plan.routeLt h (hc hl') hd') hi same).2⟩
    rw [commitAllUntouched fun s member same => ?_]
    · exact left
    · obtain ⟨digit', hd', lane', hl', rfl⟩ := memSlotStores.mp member
      exact written ⟨digit', hd', lane', hl', same⟩

/- The groups of a stage that stores into the other buffer, or that loads the row. -/
theorem viewApart (h : stage + 1 < plan.stages) (apart : single = false ∨ stage = 0) (active : slot ∈ slots)
    (here : Source layout single input stage slot m y) {order : List ℕ} (inside : ∀ group ∈ order, group < plan.groups stage)
    {i : ℕ} (hi : i < plan.length) :
    view layout (destBuffer single stage) slot
        (runStores (exchangeStores plan layout tables w single slots input stage) order m) i =
      commitAll (view layout (destBuffer single stage) slot m)
        (order.flatMap fun group => slotStores plan tables w stage group y) i := by
  induction order generalizing m with
  | nil => rfl
  | cons group rest ih =>
      have hg := inside group List.mem_cons_self
      have kept : Source layout single input stage slot
          (commitAll m (exchangeStores plan layout tables w single slots input stage group m)) y := by
        intro j hj
        rw [← here j hj]
        rcases apart with rfl | first
        · by_cases first : stage = 0
          · simp [first]
          · rw [if_neg first, if_neg first]
            refine commitAllUntouched fun s member same => ?_
            obtain ⟨slot', _, digit, _, lane, _, rfl⟩ := memExchange.mp member
            exact sourceNotDest same.symm
        · simp [first]
      rw [List.flatMap_cons, commitAllAppend]
      change view layout _ slot (runStores _ rest (commitAll m _)) i = _
      rw [ih kept fun g member => inside g (List.mem_cons_of_mem group member)]
      exact commitAllAgree (viewCommit h hg active here hi)

/- The groups of a stage that stores where it loads. -/
theorem viewInPlace (h : stage + 1 < plan.stages) (later : stage ≠ 0) (active : slot ∈ slots)
    (here : Source layout true input stage slot m y) {order : List ℕ} (inside : ∀ group ∈ order, group < plan.groups stage)
    {i : ℕ} (hi : i < plan.length) :
    view layout (destBuffer true stage) slot
        (runStores (exchangeStores plan layout tables w true slots input stage) order m) i =
      runStores (slotStores plan tables w stage) order y i := by
  have same : sourceBuffer true stage = destBuffer true stage := by simp [sourceBuffer, destBuffer]
  induction order generalizing m y with
  | nil =>
      have cell := here i hi
      rwa [if_neg later, same] at cell
  | cons group rest ih =>
      have hg := inside group List.mem_cons_self
      refine ih (fun j hj => ?_) fun g member => inside g (List.mem_cons_of_mem group member)
      rw [if_neg later, same, viewCommit h hg active here hj]
      refine commitAllAgree ?_
      have cell := here j hj
      rwa [if_neg later, same] at cell

theorem stageCovers (h : stage + 1 < plan.stages) {i : ℕ} (hi : i < plan.length) :
    ∃ s ∈ (List.range (plan.groups stage)).flatMap fun group => slotStores plan tables w stage group y, s.address = i := by
  obtain ⟨c, hc, q, hq, rfl⟩ := plan.routeFound h hi
  exact ⟨_, (memStageStores (Nat.lt_of_succ_lt h)).mpr ⟨c, hc, q, hq, rfl⟩, rfl⟩

/- A stage of the kernel is a stage on the contents of every slot. -/
theorem viewStage (h : stage + 1 < plan.stages) (active : slot ∈ slots)
    (here : Source layout single input stage slot m y) :
    Source layout single input (stage + 1) slot (exchangeStage plan layout tables w single slots input stage m)
      (slotStage plan tables w single stage y) := by
  intro i hi
  have groups : ∀ group ∈ List.range (plan.groups stage), group < plan.groups stage := fun _ => List.mem_range.mp
  rw [if_neg stage.succ_ne_zero, sourceSucc, exchangeStage, slotStage]
  split
  · next shared =>
      obtain ⟨rfl, later⟩ := shared
      exact viewInPlace h later active here groups hi
  · next apart =>
      have two : single = false ∨ stage = 0 := by
        cases single
        · exact .inl rfl
        · exact .inr (by simpa using apart)
      rw [viewApart h two active here groups hi]
      exact commitAllBase (stageCovers h hi)

theorem viewStages {count : ℕ} (h : count < plan.stages) (active : slot ∈ slots) (shared : Shared → K) :
    Source layout single input count slot (exchangeStages plan layout tables w single slots input count shared)
      (slotStages plan tables w single count (input slot)) := by
  induction count with
  | zero => exact fun _ _ => rfl
  | succ count ih =>
      rw [exchangeStages, slotStages, List.range_succ, List.foldl_append, List.foldl_append]
      exact viewStage h active (ih (Nat.lt_of_succ_lt h))

/- What the last stage computes for a slot. -/
def slotValue (plan : StagePlan) (tables : List (ℕ → K)) (w : K) (single : Bool) (row : ℕ → K) (c q : ℕ) : K :=
  transformed plan tables w plan.last (slotStages plan tables w single plan.last row) c q

/- The two programs agree on what they hand over exactly when every active slot ends with the same values. -/
theorem finalValuesSame (shared : Shared → K) :
    finalValues plan layout tables w true slots input shared = finalValues plan layout tables w false slots input shared ↔
      ∀ slot ∈ slots, ∀ c < plan.codelets plan.last, ∀ q < plan.radix plan.last,
        slotValue plan tables w true (input slot) c q = slotValue plan tables w false (input slot) c q := by
  have inside : plan.last < plan.stages := Nat.sub_lt plan.nonempty one_pos
  have value (single : Bool) {slot lane group : ℕ} (active : slot ∈ slots) (hl : lane < plan.lanes plan.last)
      (hg : group < plan.groups plan.last) (digit : ℕ) :
      stageOutput plan layout tables w single input plan.last
          (exchangeStages plan layout tables w single slots input plan.last shared) slot lane group digit =
        slotValue plan tables w single (input slot) (plan.codelet plan.last lane group) digit :=
    outputEq inside (viewStages inside active shared) hl hg digit
  let handed : List (ℕ × ℕ × ℕ × ℕ) := (List.range (plan.groups plan.last)).flatMap fun group =>
    (List.range (plan.radix plan.last)).flatMap fun digit =>
      (plan.threads slots plan.last).map fun thread => (group, digit, thread)
  have memHanded (group digit slot lane : ℕ) : (group, digit, slot, lane) ∈ handed ↔
      group < plan.groups plan.last ∧ digit < plan.radix plan.last ∧ slot ∈ slots ∧ lane < plan.lanes plan.last := by
    simp [handed, StagePlan.threads]
  have spread (single : Bool) : finalValues plan layout tables w single slots input shared = handed.map
      fun (group, digit, slot, lane) => (slot, outputIndex plan.factors (plan.codelet plan.last lane group) digit,
        stageOutput plan layout tables w single input plan.last
          (exchangeStages plan layout tables w single slots input plan.last shared) slot lane group digit) := by
    simp only [handed, finalValues, List.map_flatMap, List.map_map]
    rfl
  rw [spread, spread, List.map_inj_left]
  constructor
  · intro same slot active c hc q hq
    obtain ⟨hl, hg, codelet⟩ := plan.codeletFound inside hc
    have entry := same _ ((memHanded _ _ _ _).mpr ⟨hg, hq, active, hl⟩)
    simpa only [Prod.mk.injEq, true_and, value true active hl hg, value false active hl hg, codelet] using entry
  · rintro same ⟨group, digit, slot, lane⟩ member
    obtain ⟨hg, hd, active, hl⟩ := (memHanded _ _ _ _).mp member
    simp only [value true active hl hg, value false active hl hg,
      same slot active _ (plan.codeletInside inside hl hg) digit hd]

end View

end FlagFft.Leaf.SharedStages
