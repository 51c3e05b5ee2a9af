import FlagFft.Leaf.Kernel
import FlagFft.Leaf.Routing

/-! A run of the leaf program for any mode: what the stores of a stage are, when a stage reads
only what it started with, and the invariant at every stage of the run. -/
namespace FlagFft.Leaf
open Library.Indexing Library.Stores Library.Dft Library.MixedRadix

section Plan
variable {plan : LeafPlan} {stage : ℕ}

theorem LeafPlan.share (h : stage < plan.stages) : 0 < plan.lanes stage ∧
    plan.lanes stage * plan.groups stage =
      prefixProduct plan.factors stage * suffixProduct plan.factors (stage + 1) :=
  lanesMulGroups plan.positive h (plan.lanesFit stage h)

theorem LeafPlan.elems (h : stage < plan.stages) :
    plan.length / plan.lanes stage = plan.groups stage * plan.radix stage :=
  elemsPerLane plan.positive h (plan.lanesFit stage h)

theorem LeafPlan.codeletInside (h : stage < plan.stages) {lane group : ℕ} (hl : lane < plan.lanes stage)
    (hg : group < plan.groups stage) : plan.codelet stage lane group <
      prefixProduct plan.factors stage * suffixProduct plan.factors (stage + 1) := by
  rw [← (plan.share h).2]; exact laneGroupLt hl hg

theorem LeafPlan.codeletFound (h : stage < plan.stages) {c : ℕ}
    (hc : c < prefixProduct plan.factors stage * suffixProduct plan.factors (stage + 1)) :
    ∃ lane group, lane < plan.lanes stage ∧ group < plan.groups stage ∧
      plan.codelet stage lane group = c := by
  rw [← (plan.share h).2] at hc
  exact ⟨c % plan.lanes stage, c / plan.lanes stage, Nat.mod_lt _ (plan.share h).1,
    Nat.div_lt_of_lt_mul hc, Nat.mod_add_div _ _⟩

theorem LeafPlan.logicalPhysEq {lane group digit : ℕ} (hl : lane < plan.lanes stage) :
    plan.logicalPhys stage lane group digit =
      blocked (plan.lanes stage) (plan.radix stage) (plan.codelet stage lane group) digit := by
  rw [logicalPhys, blocked, codelet, laneGroupMod hl, laneGroupDiv hl]

theorem LeafPlan.blockedInside (h : stage < plan.stages) {c t : ℕ}
    (hc : c < prefixProduct plan.factors stage * suffixProduct plan.factors (stage + 1))
    (ht : t < plan.radix stage) : blocked (plan.lanes stage) (plan.radix stage) c t < plan.length := by
  obtain ⟨positive, share⟩ := plan.share h
  rw [← share] at hc
  calc _ < plan.lanes stage * plan.groups stage * plan.radix stage := blockedLt positive hc ht
    _ = plan.length := by
      rw [share, length, factorsProd h, Nat.mul_right_comm]
      rfl

theorem foldrMaxLe {values : List ℕ} {v : ℕ} (member : v ∈ values) : v ≤ values.foldr max 0 := by
  induction values with
  | nil => simp at member
  | cons first rest ih =>
      rcases List.mem_cons.mp member with rfl | later
      · exact le_max_left _ _
      · exact (ih later).trans (le_max_right _ _)

theorem LeafPlan.lanesActive (h : stage < plan.stages) : plan.lanes stage ≤ plan.activeLanes := by
  have inside : stage < plan.stageLanes.length := by rw [plan.lanesLength]; exact h
  rw [lanes, List.getD_eq_getElem _ _ inside]
  exact foldrMaxLe (List.getElem_mem inside)

theorem LeafPlan.activeBlock : plan.activeLanes ≤ plan.laneBlock :=
  (leCeilPowerOfTwo _).trans (le_max_left _ _)

theorem LeafPlan.laneBlockPositive : 0 < plan.laneBlock :=
  Nat.lt_of_lt_of_le (Nat.two_pow_pos _) (le_max_left _ _)

theorem LeafPlan.memThreads {slot lane : ℕ} :
    (slot, lane) ∈ plan.threads ↔ slot < plan.batchPack ∧ lane < plan.laneBlock := by
  have positive := plan.laneBlockPositive
  have remainder : ∀ v, v - v / plan.laneBlock * plan.laneBlock = v % plan.laneBlock := fun v => by
    rw [Nat.mul_comm]; exact (Nat.mod_eq_sub_mul_div).symm
  simp only [threads, remainder, List.mem_map, List.mem_range, vectorBlock, Prod.mk.injEq]
  constructor
  · rintro ⟨v, hv, rfl, rfl⟩
    exact ⟨Nat.div_lt_of_lt_mul hv, Nat.mod_lt _ positive⟩
  · rintro ⟨hs, hl⟩
    refine ⟨slot * plan.laneBlock + lane, ?_, mulAddDiv hl, mulAddMod hl⟩
    rw [Nat.mul_comm plan.laneBlock]
    exact mulAddLt hs hl

theorem LeafPlan.threadsNodup : plan.threads.Nodup := by
  refine List.Nodup.map_on ?_ List.nodup_range
  intro v _ v' _ same
  obtain ⟨quotient, remainder⟩ := Prod.mk.inj same
  have below := Nat.div_mul_le_self v plan.laneBlock
  have below' := Nat.div_mul_le_self v' plan.laneBlock
  rw [← quotient] at below' remainder
  omega

theorem LeafPlan.lengthLeStride (several : 1 < plan.stages) : plan.length ≤ plan.smemSlotStride := by
  have size : plan.length ≤ plan.smemSize := by
    rw [smemSize, if_neg (by simpa [stages] using several)]; exact leCeilPowerOfTwo _
  rw [smemSlotStride]
  split <;> omega

theorem LeafPlan.sourceSucc : plan.sourceBuffer (stage + 1) = plan.destBuffer stage := by
  have parity : ((stage + 1) % 2 = 1) = (stage % 2 = 0) := by apply propext; omega
  simp only [sourceBuffer, destBuffer, parity]

theorem LeafPlan.destInj {i j : ℕ} : plan.destBuffer stage i = plan.destBuffer stage j ↔ i = j := by
  rw [destBuffer]; split <;> simp

theorem LeafPlan.destNotDevice {i : ℕ} {a : Address} : plan.destBuffer stage i ≠ .device a := by
  rw [destBuffer]; split <;> simp

theorem LeafPlan.sourceNotDevice {i : ℕ} {a : Address} : plan.sourceBuffer stage i ≠ .device a := by
  rw [sourceBuffer]; split <;> simp

theorem LeafPlan.sourceNotDest (pingPong : plan.singleSmemBuffer = false) {i j : ℕ} :
    plan.sourceBuffer stage i ≠ plan.destBuffer stage j := by
  rcases Nat.mod_two_eq_zero_or_one stage with even | odd
  · simp [sourceBuffer, destBuffer, pingPong, even]
  · simp [sourceBuffer, destBuffer, pingPong, odd]

theorem LeafPlan.routeEq (h : stage + 1 < plan.stages) {lane group digit : ℕ}
    (hl : lane < plan.lanes stage) (hg : group < plan.groups stage) :
    routeIndex plan.factors stage (plan.codelet stage lane group) (plan.lanes (stage + 1)) digit =
      blocked (plan.lanes (stage + 1)) (plan.radix (stage + 1))
        (nextCodelet plan.factors stage (plan.codelet stage lane group) digit)
        (nextDigit plan.factors stage (plan.codelet stage lane group)) :=
  routeIndexEq h (plan.codeletInside (by omega) hl hg) _ _

end Plan

section Tables
variable {R : Type*} [CommRing R] {plan : LeafPlan}

def TablesOk (plan : LeafPlan) (w : R) (tables : List (ℕ → R)) : Prop :=
  ∀ stage, 0 < stage → stage < plan.stages → ∀ c t,
    c < prefixProduct plan.factors stage * suffixProduct plan.factors (stage + 1) → t < plan.radix stage →
      tables.getD (stage - 1) (fun _ => 0) (blocked (plan.lanes stage) (plan.radix stage) c t) =
        w ^ (suffixProduct plan.factors (stage + 1) * (c % prefixProduct plan.factors stage * t))

theorem mapMOk {α β ε : Type*} {f : α → Except ε β} {P : α → β → Prop} (inputs : List α)
    (ok : ∀ x ∈ inputs, ∃ y, f x = .ok y ∧ P x y) :
    ∃ outputs, inputs.mapM f = .ok outputs ∧ List.Forall₂ P inputs outputs := by
  induction inputs with
  | nil => exact ⟨[], rfl, .nil⟩
  | cons x rest ih =>
      obtain ⟨y, run, holds⟩ := ok x List.mem_cons_self
      obtain ⟨ys, runs, all⟩ := ih (fun z hz => ok z (List.mem_cons_of_mem x hz))
      exact ⟨y :: ys, by rw [List.mapM_cons, run, runs]; rfl, .cons holds all⟩

theorem leafTablesOk (plan : LeafPlan) (w : R) :
    ∃ tables, leafTables plan w = .ok tables ∧ TablesOk plan w tables := by
  obtain ⟨tables, run, each⟩ := mapMOk (List.range' 1 (plan.stages - 1))
    (f := fun stage => buildStageTwiddles w plan.factors stage (plan.lanes stage))
    (P := fun stage table => ∀ c t,
      c < prefixProduct plan.factors stage * suffixProduct plan.factors (stage + 1) →
      t < plan.radix stage → table (blocked (plan.lanes stage) (plan.radix stage) c t) =
        w ^ (suffixProduct plan.factors (stage + 1) * (c % prefixProduct plan.factors stage * t)))
    (fun stage member => by
      have inside : stage < plan.factors.length := by
        have := List.mem_range'_1.mp member
        rw [LeafPlan.stages] at this
        omega
      exact buildStageTwiddlesOk w plan.positive inside (plan.lanesFit stage inside))
  refine ⟨tables, run, fun stage first inside c t hc ht => ?_⟩
  have size := each.length_eq
  rw [List.length_range'] at size
  have entry : stage - 1 < tables.length := by omega
  have at' := each.get (i := stage - 1) (by rw [List.length_range']; omega) entry
  simp only [List.get_eq_getElem, List.getElem_range', Nat.one_mul, Nat.add_sub_cancel' first] at at'
  rw [List.getD_eq_getElem _ _ entry]
  exact at' c t hc ht

end Tables

section Run
variable {R : Type*} [CommRing R] {plan : LeafPlan} {mode : LeafMode R} {tables : List (ℕ → R)}
  {codelets : ℕ → (ℕ → R) → ℕ → R} {pid nbatch stage : ℕ} {w : R}

/- The batch slots of a block that hold a row. -/
def Active (plan : LeafPlan) (pid nbatch slot : ℕ) : Prop :=
  slot < plan.batchPack ∧ plan.currentBatch pid slot < nbatch

def Butterflies (plan : LeafPlan) (codelets : ℕ → (ℕ → R) → ℕ → R) (w : R) : Prop :=
  ∀ f ∈ plan.factors, ∀ v q, q < f → codelets f v q = dft f (w ^ (plan.length / f)) v q

theorem memStageStores (h : stage < plan.stages) {group : ℕ} {m : Cell → R} {s : Store Cell R} :
    s ∈ stageStores plan mode tables codelets pid nbatch stage group m ↔
      ∃ slot lane digit, Active plan pid nbatch slot ∧ lane < plan.lanes stage ∧ digit < plan.radix stage ∧
        s ∈ elementStores plan mode tables codelets pid stage m slot lane group digit := by
  simp only [stageStores, List.mem_flatMap, List.mem_range]
  constructor
  · rintro ⟨digit, hd, ⟨slot, lane⟩, member, hs⟩
    obtain ⟨hslot, _⟩ := LeafPlan.memThreads.mp member
    by_cases mask : plan.laneMask pid nbatch stage slot lane
    · rw [if_pos mask] at hs
      exact ⟨slot, lane, digit, ⟨hslot, mask.2.1⟩, mask.2.2, hd, hs⟩
    · rw [if_neg mask] at hs
      simp at hs
  · rintro ⟨slot, lane, digit, active, hl, hd, hs⟩
    have hactive := hl.trans_le (LeafPlan.lanesActive h)
    refine ⟨digit, hd, (slot, lane), LeafPlan.memThreads.mpr
      ⟨active.1, hactive.trans_le LeafPlan.activeBlock⟩, ?_⟩
    have mask : plan.laneMask pid nbatch stage slot lane := ⟨hactive, active.2, hl⟩
    rwa [if_pos mask]

theorem memAllStores (h : stage < plan.stages) {m : Cell → R} {s : Store Cell R} :
    s ∈ allStores plan mode tables codelets pid nbatch stage m ↔
      ∃ slot lane group digit, Active plan pid nbatch slot ∧ lane < plan.lanes stage ∧
        group < plan.groups stage ∧ digit < plan.radix stage ∧
        s ∈ elementStores plan mode tables codelets pid stage m slot lane group digit := by
  simp only [allStores, List.mem_flatMap, List.mem_range, memStageStores h]
  exact ⟨fun ⟨g, hg, slot, lane, d, rest⟩ => ⟨slot, lane, g, d, rest.1, rest.2.1, hg, rest.2.2⟩,
    fun ⟨slot, lane, g, d, active, hl, hg, rest⟩ => ⟨g, hg, slot, lane, d, active, hl, rest⟩⟩

def Stable (plan : LeafPlan) (mode : LeafMode R) (tables : List (ℕ → R))
    (codelets : ℕ → (ℕ → R) → ℕ → R) (pid nbatch stage : ℕ) (m : Cell → R) : Prop :=
  runStage plan mode tables codelets pid nbatch stage m =
    commitAll m (allStores plan mode tables codelets pid nbatch stage m)

theorem stableSingle (one : plan.groups stage = 1) (m : Cell → R) :
    Stable plan mode tables codelets pid nbatch stage m := by
  simp [Stable, runStage, allStores, one, List.range_one]

/- A stage that loads nothing it stores to. -/
theorem stableApart {m : Cell → R} (readable : Cell → Prop) (h : stage < plan.stages)
    (loads : ∀ m', (∀ a, readable a → m' a = m a) → ∀ slot lane group digit,
      elementStores plan mode tables codelets pid stage m' slot lane group digit =
        elementStores plan mode tables codelets pid stage m slot lane group digit)
    (apart : ∀ slot lane group digit,
      ∀ s ∈ elementStores plan mode tables codelets pid stage m slot lane group digit,
        ¬ readable s.address) :
    Stable plan mode tables codelets pid nbatch stage m := by
  refine runStoresFlat readable (fun group _ m' same => ?_) (fun group _ s hs => ?_)
  · simp only [stageStores, loads m' same]
  · obtain ⟨slot, lane, digit, _, _, _, hs⟩ := (memStageStores h).mp hs
    exact apart slot lane group digit s hs

/- The invariant: before its butterfly, every loaded element is the twiddled partial transform. -/
def Ready (plan : LeafPlan) (mode : LeafMode R) (tables : List (ℕ → R)) (pid nbatch : ℕ) (w : R)
    (x : ℕ → ℕ → R) (stage : ℕ) (m : Cell → R) : Prop :=
  ∀ slot, Active plan pid nbatch slot → ∀ lane < plan.lanes stage, ∀ group < plan.groups stage,
    ∀ digit < plan.radix stage,
      stageLoad plan mode tables pid stage m slot lane group digit =
        partialDft plan.factors w stage (x slot)
            (plan.codelet stage lane group % prefixProduct plan.factors stage)
            (digit * suffixProduct plan.factors (stage + 1) +
              plan.codelet stage lane group / prefixProduct plan.factors stage) *
          w ^ (suffixProduct plan.factors (stage + 1) *
            (plan.codelet stage lane group % prefixProduct plan.factors stage * digit))

theorem readyStart {x : ℕ → ℕ → R} {m : Cell → R}
    (loads : ∀ slot, Active plan pid nbatch slot → ∀ i < plan.length,
      mode.load m (plan.currentBatch pid slot) (slot * plan.smemSlotStride) i = x slot i) :
    Ready plan mode tables pid nbatch w x 0 m := by
  intro slot active lane hl group hg digit hd
  have inside := plan.codeletInside plan.nonempty hl hg
  rw [prefixProductZero, Nat.one_mul] at inside
  have index : plan.codelet 0 lane group + digit * suffixProduct plan.factors 1 < plan.length := by
    rw [LeafPlan.length, ← prefixMulSuffix plan.factors 0, prefixProductZero, Nat.one_mul,
      suffixProductSucc plan.nonempty, Nat.add_comm]
    exact mulAddLt hd inside
  rw [stageLoad, if_pos rfl, inputIndexEq plan.nonempty inside, loads slot active _ index]
  simp only [prefixProductZero, Nat.mod_one, Nat.zero_mul, Nat.mul_zero, pow_zero, mul_one,
    partialDftStart, Nat.div_one, Nat.zero_add, Nat.add_comm]

/- One stage: the butterfly outputs are the partial transforms over one more factor. -/
theorem readyValue (root : w ^ plan.length = 1) (butterfly : Butterflies plan codelets w)
    (h : stage < plan.stages) {x : ℕ → ℕ → R} {m : Cell → R}
    (ready : Ready plan mode tables pid nbatch w x stage m) {slot lane group digit : ℕ}
    (active : Active plan pid nbatch slot) (hl : lane < plan.lanes stage) (hg : group < plan.groups stage)
    (hd : digit < plan.radix stage) :
    stageValue plan mode tables codelets pid stage m slot lane group digit =
      partialDft plan.factors w (stage + 1) (x slot)
        (plan.codelet stage lane group % prefixProduct plan.factors stage +
          prefixProduct plan.factors stage * digit)
        (plan.codelet stage lane group / prefixProduct plan.factors stage) := by
  have member : plan.radix stage ∈ plan.factors := by
    rw [LeafPlan.radix, radixAtEq h]; exact List.getElem_mem h
  have count : plan.length / plan.radix stage =
      prefixProduct plan.factors stage * suffixProduct plan.factors (stage + 1) :=
    codeletCount plan.positive h
  rw [stageValue, butterfly _ member _ _ hd, count, ← partialDftStep root h, dft]
  exact Finset.sum_congr rfl fun t ht => by
    rw [ready slot active lane hl group hg t (Finset.mem_range.mp ht)]

theorem readyStep (root : w ^ plan.length = 1) (butterfly : Butterflies plan codelets w)
    (twiddles : TablesOk plan w tables) (h : stage + 1 < plan.stages) {x : ℕ → ℕ → R} {m : Cell → R}
    (stable : Stable plan mode tables codelets pid nbatch stage m)
    (ready : Ready plan mode tables pid nbatch w x stage m) :
    Ready plan mode tables pid nbatch w x (stage + 1)
      (runStage plan mode tables codelets pid nbatch stage m) := by
  intro slot active lane hl group hg digit hd
  have here : stage < plan.stages := by omega
  have notLast : stage + 1 ≠ plan.stages := by omega
  have inside := plan.codeletInside h hl hg
  rw [stageLoad, if_neg (Nat.succ_ne_zero stage), plan.logicalPhysEq hl,
    twiddles (stage + 1) (Nat.succ_pos stage) h _ _ inside hd]
  congr 1
  rw [stable, plan.sourceSucc]
  obtain ⟨c, q, hc, hq, codelet', digit'⟩ := nextSource plan.positive h inside hd
  apply commitAllWritten
  · obtain ⟨lane₀, group₀, hl₀, hg₀, rfl⟩ := plan.codeletFound here hc
    refine ⟨⟨plan.destBuffer stage (routeIndex plan.factors stage (plan.codelet stage lane₀ group₀)
        (plan.lanes (stage + 1)) q + slot * plan.smemSlotStride),
        stageValue plan mode tables codelets pid stage m slot lane₀ group₀ q⟩,
      (memAllStores here).mpr ⟨slot, lane₀, group₀, q, active, hl₀, hg₀, hq, ?_⟩, ?_⟩
    · simp only [elementStores, if_neg notLast, List.mem_singleton]
    · rw [plan.routeEq h hl₀ hg₀, codelet', digit']
  · intro s hs same
    obtain ⟨slot₀, lane₀, group₀, q₀, active₀, hl₀, hg₀, hq₀, hs⟩ := (memAllStores here).mp hs
    simp only [elementStores, if_neg notLast, List.mem_singleton] at hs
    subst hs
    have inside₀ := plan.codeletInside here hl₀ hg₀
    obtain ⟨next, bound, time⟩ := nextInside plan.positive h inside₀ hq₀
    simp only [plan.destInj, plan.routeEq h hl₀ hg₀, Nat.add_comm _ (_ * plan.smemSlotStride)] at same
    have stride := plan.lengthLeStride (by omega)
    obtain ⟨rfl, place⟩ := mulAddInj ((plan.blockedInside h next bound).trans_le stride)
      ((plan.blockedInside h inside hd).trans_le stride) same
    obtain ⟨sameCodelet, sameDigit⟩ := blockedInj (plan.share h).1 bound hd place
    rw [readyValue root butterfly here ready active₀ hl₀ hg₀ hq₀, ← sameCodelet, ← sameDigit,
      (nextPrefix plan.positive here hq₀).1, time]

theorem runStageFrame (h : stage + 1 < plan.stages) {m : Cell → R}
    (stable : Stable plan mode tables codelets pid nbatch stage m) {a : Cell}
    (outside : ∀ i, a ≠ plan.destBuffer stage i) :
    runStage plan mode tables codelets pid nbatch stage m a = m a := by
  rw [stable]
  refine commitAllUntouched fun s hs => ?_
  obtain ⟨slot, lane, group, digit, _, _, _, _, hs⟩ := (memAllStores (by omega)).mp hs
  simp only [elementStores, if_neg (show stage + 1 ≠ plan.stages by omega), List.mem_singleton] at hs
  rw [hs]
  exact (outside _).symm

/- Between the first and the last stage the mode plays no part. -/
theorem stableMiddle (later : 0 < stage) (h : stage + 1 < plan.stages) (m : Cell → R) :
    Stable plan mode tables codelets pid nbatch stage m := by
  by_cases pingPong : plan.singleSmemBuffer = false
  · refine stableApart (fun a => ∀ i, a ≠ plan.destBuffer stage i) (by omega) ?_ ?_
    · intro m' same slot lane group digit
      have load : stageLoad plan mode tables pid stage m' slot lane group =
          stageLoad plan mode tables pid stage m slot lane group := by
        funext t
        simp only [stageLoad, if_neg later.ne', same _ (fun i => plan.sourceNotDest pingPong)]
      simp only [elementStores, if_neg (show stage + 1 ≠ plan.stages by omega), stageValue, load]
    · intro slot lane group digit s hs
      simp only [elementStores, if_neg (show stage + 1 ≠ plan.stages by omega), List.mem_singleton] at hs
      rw [hs]
      exact fun fresh => fresh _ rfl
  · exact stableSingle (plan.singleSafe (by simpa using pingPong) stage h) m

theorem readyBefore (root : w ^ plan.length = 1) (butterfly : Butterflies plan codelets w)
    (twiddles : TablesOk plan w tables) {x : ℕ → ℕ → R} {m : Cell → R}
    (first : 1 < plan.stages → Stable plan mode tables codelets pid nbatch 0 m)
    (ready : Ready plan mode tables pid nbatch w x 0 m) (h : stage < plan.stages) :
    Ready plan mode tables pid nbatch w x stage
        ((List.range stage).foldl (fun m s => runStage plan mode tables codelets pid nbatch s m) m) ∧
      ∀ a : Address, (List.range stage).foldl
        (fun m s => runStage plan mode tables codelets pid nbatch s m) m (.device a) = m (.device a) := by
  induction stage with
  | zero => exact ⟨ready, fun _ => rfl⟩
  | succ stage ih =>
      obtain ⟨before, frame⟩ := ih (by omega)
      have stable : Stable plan mode tables codelets pid nbatch stage
          ((List.range stage).foldl (fun m s => runStage plan mode tables codelets pid nbatch s m) m) := by
        rcases Nat.eq_zero_or_pos stage with rfl | later
        · exact first (by omega)
        · exact stableMiddle later h _
      rw [List.range_succ, List.foldl_append]
      refine ⟨readyStep root butterfly twiddles h stable before, fun a => ?_⟩
      rw [← frame a]
      exact runStageFrame h stable fun i same => plan.destNotDevice same.symm

/- When every element has one address, and no two share it, no address is stored twice. -/
theorem allStoresNodup {m : Cell → R} {address : ℕ → ℕ → ℕ → ℕ → Cell}
    (single : ∀ slot lane group digit,
      (elementStores plan mode tables codelets pid stage m slot lane group digit).map Store.address =
        [address slot lane group digit])
    (inj : ∀ slot slot' lane lane' group group' digit digit', lane < plan.lanes stage →
      lane' < plan.lanes stage → group < plan.groups stage → group' < plan.groups stage →
      digit < plan.radix stage → digit' < plan.radix stage →
      address slot lane group digit = address slot' lane' group' digit' →
      slot = slot' ∧ lane = lane' ∧ group = group' ∧ digit = digit') :
    ((allStores plan mode tables codelets pid nbatch stage m).map Store.address).Nodup := by
  simp only [allStores, stageStores, List.map_flatMap, apply_ite (List.map Store.address), single, List.map_nil]
  refine (flatMapAddresses _ (fun group a => ∃ digit ∈ List.range (plan.radix stage),
      ∃ p ∈ plan.threads, plan.laneMask pid nbatch stage p.1 p.2 ∧ a = address p.1 p.2 group digit)
    List.nodup_range ?_ fun group hg => ?_).1
  · rintro g hg g' hg' distinct a ⟨d, hd, p, _, mask, rfl⟩ ⟨d', hd', p', _, mask', same⟩
    exact distinct (inj _ _ _ _ _ _ _ _ mask.2.2 mask'.2.2 (List.mem_range.mp hg) (List.mem_range.mp hg')
      (List.mem_range.mp hd) (List.mem_range.mp hd') same).2.2.1
  rw [List.mem_range] at hg
  refine flatMapAddresses _ _ List.nodup_range ?_ fun digit hd => ?_
  · rintro d hd d' hd' distinct a ⟨p, _, mask, rfl⟩ ⟨p', _, mask', same⟩
    exact distinct (inj _ _ _ _ _ _ _ _ mask.2.2 mask'.2.2 hg hg (List.mem_range.mp hd)
      (List.mem_range.mp hd') same).2.2.2
  rw [List.mem_range] at hd
  refine flatMapAddresses _ _ plan.threadsNodup ?_ fun p _ => ?_
  · rintro p _ p' _ distinct a ⟨mask, rfl⟩ ⟨mask', same⟩
    obtain ⟨slots, lanes, _⟩ := inj _ _ _ _ _ _ _ _ mask.2.2 mask'.2.2 hg hg hd hd same
    exact distinct (Prod.ext slots lanes)
  · by_cases mask : plan.laneMask pid nbatch stage p.1 p.2
    · simp [mask]
    · simp [mask]

end Run

section Last
variable {R : Type*} [CommRing R] {plan : LeafPlan} {mode : LeafMode R} {tables : List (ℕ → R)}
  {codelets : ℕ → (ℕ → R) → ℕ → R} {pid nbatch : ℕ} {w : R}

theorem LeafPlan.lastInside : plan.last < plan.stages := Nat.sub_lt plan.nonempty one_pos

theorem LeafPlan.lastSucc : plan.last + 1 = plan.stages := Nat.sub_add_cancel plan.nonempty

theorem LeafPlan.lastSuffix : suffixProduct plan.factors (plan.last + 1) = 1 :=
  suffixProductEnd plan.lastSucc.ge

theorem LeafPlan.lengthLast : plan.length = plan.radix plan.last * prefixProduct plan.factors plan.last := by
  rw [length, factorsProd plan.lastInside, plan.lastSuffix, Nat.mul_one, Nat.mul_comm]
  rfl

theorem LeafPlan.lastCodelet {lane group : ℕ} (hl : lane < plan.lanes plan.last)
    (hg : group < plan.groups plan.last) :
    plan.codelet plan.last lane group < prefixProduct plan.factors plan.last := by
  have inside := plan.codeletInside plan.lastInside hl hg
  rwa [plan.lastSuffix, Nat.mul_one] at inside

theorem LeafPlan.outputEq {lane group : ℕ} (hl : lane < plan.lanes plan.last)
    (hg : group < plan.groups plan.last) (digit : ℕ) :
    outputIndex plan.factors (plan.codelet plan.last lane group) digit =
      digit * prefixProduct plan.factors plan.last + plan.codelet plan.last lane group := by
  rw [Nat.add_comm]; exact outputIndexEq (plan.lastCodelet hl hg) digit

theorem LeafPlan.outputInside {lane group digit : ℕ} (hl : lane < plan.lanes plan.last)
    (hg : group < plan.groups plan.last) (hd : digit < plan.radix plan.last) :
    outputIndex plan.factors (plan.codelet plan.last lane group) digit < plan.length := by
  rw [plan.outputEq hl hg, plan.lengthLast]
  exact mulAddLt hd (plan.lastCodelet hl hg)

theorem LeafPlan.outputFound {k : ℕ} (hk : k < plan.length) :
    ∃ lane group digit, lane < plan.lanes plan.last ∧ group < plan.groups plan.last ∧
      digit < plan.radix plan.last ∧ outputIndex plan.factors (plan.codelet plan.last lane group) digit = k := by
  have positive := (productsPositive plan.positive plan.lastInside).1
  have low : k % prefixProduct plan.factors plan.last < prefixProduct plan.factors plan.last *
      suffixProduct plan.factors (plan.last + 1) := by
    rw [plan.lastSuffix, Nat.mul_one]; exact Nat.mod_lt _ positive
  obtain ⟨lane, group, hl, hg, same⟩ := plan.codeletFound plan.lastInside low
  rw [plan.lengthLast, Nat.mul_comm] at hk
  refine ⟨lane, group, k / prefixProduct plan.factors plan.last, hl, hg, Nat.div_lt_of_lt_mul hk, ?_⟩
  rw [plan.outputEq hl hg, same, Nat.mul_comm, Nat.div_add_mod]

theorem LeafPlan.outputInj {lane group digit lane' group' digit' : ℕ} (hl : lane < plan.lanes plan.last)
    (hg : group < plan.groups plan.last) (hl' : lane' < plan.lanes plan.last)
    (hg' : group' < plan.groups plan.last)
    (same : outputIndex plan.factors (plan.codelet plan.last lane group) digit =
      outputIndex plan.factors (plan.codelet plan.last lane' group') digit') :
    lane = lane' ∧ group = group' ∧ digit = digit' := by
  rw [plan.outputEq hl hg, plan.outputEq hl' hg'] at same
  obtain ⟨digits, codelets⟩ := mulAddInj (plan.lastCodelet hl hg) (plan.lastCodelet hl' hg') same
  have lanes := congrArg (· % plan.lanes plan.last) codelets
  have groups := congrArg (· / plan.lanes plan.last) codelets
  simp only [LeafPlan.codelet, laneGroupMod hl, laneGroupMod hl'] at lanes
  simp only [LeafPlan.codelet, laneGroupDiv hl, laneGroupDiv hl'] at groups
  exact ⟨lanes, groups, digits⟩

theorem lastValue (root : w ^ plan.length = 1) (butterfly : Butterflies plan codelets w)
    {x : ℕ → ℕ → R} {m : Cell → R} (ready : Ready plan mode tables pid nbatch w x plan.last m)
    {slot lane group digit : ℕ} (active : Active plan pid nbatch slot) (hl : lane < plan.lanes plan.last)
    (hg : group < plan.groups plan.last) (hd : digit < plan.radix plan.last) :
    stageValue plan mode tables codelets pid plan.last m slot lane group digit =
      dft plan.length w (x slot) (outputIndex plan.factors (plan.codelet plan.last lane group) digit) := by
  rw [readyValue root butterfly plan.lastInside ready active hl hg hd, plan.outputEq hl hg,
    Nat.mod_eq_of_lt (plan.lastCodelet hl hg), Nat.div_eq_of_lt (plan.lastCodelet hl hg), plan.lastSucc,
    Nat.add_comm, Nat.mul_comm]
  exact partialDftEnd

/- The run up to the last stage leaves device memory alone and its shared memory ready. -/
theorem runStagesLast (mode : LeafMode R) (pid nbatch : ℕ) (root : w ^ plan.length = 1) (butterfly : Butterflies plan codelets w)
    (twiddles : TablesOk plan w tables) {x : ℕ → ℕ → R} {m : Cell → R}
    (first : 1 < plan.stages → Stable plan mode tables codelets pid nbatch 0 m)
    (last : ∀ m', (plan.stages = 1 → m' = m) → Stable plan mode tables codelets pid nbatch plan.last m')
    (ready : Ready plan mode tables pid nbatch w x 0 m) :
    ∃ m', (∀ a : Address, m' (.device a) = m (.device a)) ∧
      Ready plan mode tables pid nbatch w x plan.last m' ∧
      runStages plan mode tables codelets pid nbatch m =
        commitAll m' (allStores plan mode tables codelets pid nbatch plan.last m') := by
  obtain ⟨before, frame⟩ := readyBefore root butterfly twiddles first ready plan.lastInside
  refine ⟨_, frame, before, ?_⟩
  rw [runStages, ← plan.lastSucc, List.range_succ, List.foldl_append]
  refine last _ fun one => ?_
  rw [LeafPlan.last, one]
  rfl

end Last
end FlagFft.Leaf
