import FlagFft.Leaf.Run
import Mathlib.Data.ZMod.Basic

/-! The contiguous leaf: every row of a batch is replaced by its transform, by blocks that may run
in any order, in place or between two buffers. -/
namespace FlagFft.Leaf
open Library.Indexing Library.Stores Library.Dft Library.MixedRadix

/- Modes that load from device memory and whose stores go there without reading anything. -/
structure DeviceMode {R : Type*} (mode : LeafMode R) : Prop where
  load : ∀ m m' : Cell → R, (∀ a : Address, m' (.device a) = m (.device a)) → mode.load m' = mode.load m
  store : ∀ m m' : Cell → R, mode.store m' = mode.store m
  address : ∀ m batch offset index value, ∀ s ∈ mode.store m batch offset index value,
    ∃ a : Address, s.address = .device a

theorem contiguousDevice {R : Type*} (plan : LeafPlan) (src dst : Address) :
    DeviceMode (contiguousMode (R := R) plan src dst) where
  load m m' same := by funext batch offset index; exact same _
  store m m' := rfl
  address m batch offset index value s hs := by
    rw [List.mem_singleton.mp hs]; exact ⟨_, rfl⟩

section Modes
variable {R : Type*} [CommRing R] {plan : LeafPlan} {mode : LeafMode R} {tables : List (ℕ → R)}
  {codelets : ℕ → (ℕ → R) → ℕ → R} {pid nbatch : ℕ} {w : R}

theorem onlyStageSingle (one : plan.stages = 1) : plan.groups 0 = 1 := by
  obtain ⟨_, share⟩ := plan.share plan.nonempty
  rw [prefixProductZero, Nat.one_mul, suffixProductEnd (Nat.le_of_eq one)] at share
  exact Nat.eq_one_of_mul_eq_one_left share

theorem stableFirst (ok : DeviceMode mode) (several : 1 < plan.stages) (m : Cell → R) :
    Stable plan mode tables codelets pid nbatch 0 m := by
  have notLast : 0 + 1 ≠ plan.stages := several.ne
  refine stableApart (fun a => ∃ d : Address, a = .device d) (by omega) ?_ ?_
  · intro m' same slot lane group digit
    have load : stageLoad plan mode tables pid 0 m' slot lane group =
        stageLoad plan mode tables pid 0 m slot lane group := by
      funext t
      simp only [stageLoad, if_true, ok.load m m' (fun a => same _ ⟨a, rfl⟩)]
    simp only [elementStores, if_neg notLast, stageValue, load]
  · rintro slot lane group digit s hs ⟨a, device⟩
    simp only [elementStores, if_neg notLast, List.mem_singleton] at hs
    rw [hs] at device
    exact plan.destNotDevice device

theorem stableLast (ok : DeviceMode mode) (m : Cell → R) :
    Stable plan mode tables codelets pid nbatch plan.last m := by
  rcases Nat.eq_zero_or_pos plan.last with first | later
  · have one : plan.stages = 1 := by rw [← plan.lastSucc, first]
    rw [first]
    exact stableSingle (onlyStageSingle one) m
  · refine stableApart (fun a => ∀ d : Address, a ≠ .device d) plan.lastInside ?_ ?_
    · intro m' same slot lane group digit
      have load : stageLoad plan mode tables pid plan.last m' slot lane group =
          stageLoad plan mode tables pid plan.last m slot lane group := by
        funext t
        simp only [stageLoad, if_neg later.ne', same _ (fun d => plan.sourceNotDevice)]
      simp only [elementStores, if_pos plan.lastSucc, stageValue, load, ok.store m m']
    · intro slot lane group digit s hs shared
      simp only [elementStores, if_pos plan.lastSucc] at hs
      obtain ⟨a, device⟩ := ok.address _ _ _ _ _ s hs
      exact shared a device

end Modes

section Contiguous
variable {R : Type*} [CommRing R] {plan : LeafPlan} {tables : List (ℕ → R)}
  {codelets : ℕ → (ℕ → R) → ℕ → R} {pid nbatch : ℕ} {w : R} {src dst : Address}

/- The device cells of a block: the rows of its active batch slots. -/
def blockRows (plan : LeafPlan) (dst : Address) (nbatch pid : ℕ) (a : Address) : Prop :=
  ∃ slot, Active plan pid nbatch slot ∧ ∃ k < plan.length, a = dst.row plan.length (plan.currentBatch pid slot) k

theorem blockRowsApart {pid' : ℕ} (distinct : pid ≠ pid') {a : Address}
    (here : blockRows plan dst nbatch pid a) : ¬ blockRows plan dst nbatch pid' a := by
  rintro ⟨slot', active', k', hk', rfl⟩
  obtain ⟨slot, active, k, hk, same⟩ := here
  have batch := ((Address.rowInj hk' hk).mp same).1
  exact distinct (mulAddInj active'.1 active.1 batch).1.symm

theorem rowInBlock (plan : LeafPlan) {row : ℕ} (hrow : row < nbatch) :
    ∃ pid < leafGrid plan nbatch, ∃ slot, Active plan pid nbatch slot ∧ plan.currentBatch pid slot = row := by
  have batch : plan.currentBatch (row / plan.batchPack) (row % plan.batchPack) = row := by
    rw [LeafPlan.currentBatch, Nat.mul_comm, Nat.div_add_mod]
  refine ⟨row / plan.batchPack, ?_, row % plan.batchPack,
    ⟨Nat.mod_lt _ plan.packPositive, by rw [batch]; exact hrow⟩, batch⟩
  rw [leafGrid, ltCeilDiv plan.packPositive]
  exact (Nat.div_mul_le_self _ _).trans_lt hrow

theorem blockStarts {slot : ℕ} (active : Active plan pid nbatch slot) : pid * plan.batchPack < nbatch :=
  (Nat.le_add_right _ _).trans_lt active.2

theorem contiguousElement (plan : LeafPlan) (tables : List (ℕ → R)) (codelets : ℕ → (ℕ → R) → ℕ → R)
    (pid : ℕ) (src dst : Address) (m : Cell → R) (slot lane group digit : ℕ) :
    elementStores plan (contiguousMode plan src dst) tables codelets pid plan.last m slot lane group digit =
      [⟨.device (dst.row plan.length (plan.currentBatch pid slot)
          (outputIndex plan.factors (plan.codelet plan.last lane group) digit)),
        stageValue plan (contiguousMode plan src dst) tables codelets pid plan.last m slot lane group digit⟩] := by
  simp only [elementStores, if_pos plan.lastSucc]
  rfl

/- One block writes the transforms of its rows. -/
theorem leafBlockWrites (root : w ^ plan.length = 1) (butterfly : Butterflies plan codelets w)
    (twiddles : TablesOk plan w tables) (shared : Cell → R) {m : Memory R} {slot k : ℕ}
    (active : Active plan pid nbatch slot) (hk : k < plan.length) :
    leafKernel plan tables codelets src dst nbatch shared pid m
        (dst.row plan.length (plan.currentBatch pid slot) k) =
      dft plan.length w (fun j => m (src.row plan.length (plan.currentBatch pid slot) j)) k := by
  have ok := contiguousDevice (R := R) plan src dst
  have start := blockStarts active
  rw [leafKernel, if_neg (by omega)]
  obtain ⟨m', _, ready, run⟩ := runStagesLast (contiguousMode plan src dst) pid nbatch
    (x := fun slot j => m (src.row plan.length (plan.currentBatch pid slot) j)) (m := blockCells shared m)
    root butterfly twiddles (fun several => stableFirst ok several _) (fun m' _ => stableLast ok m')
    (readyStart fun _ _ _ _ => rfl)
  rw [run]
  obtain ⟨lane, group, digit, hl, hg, hd, rfl⟩ := plan.outputFound hk
  apply commitAllWritten
  · have element := contiguousElement plan tables codelets pid src dst m' slot lane group digit
    exact ⟨_, (memAllStores plan.lastInside).mpr ⟨slot, lane, group, digit, active, hl, hg, hd,
      element ▸ List.mem_singleton_self _⟩, rfl⟩
  · intro s hs same
    obtain ⟨slot₀, lane₀, group₀, digit₀, active₀, hl₀, hg₀, hd₀, hs⟩ := (memAllStores plan.lastInside).mp hs
    rw [contiguousElement, List.mem_singleton] at hs
    subst hs
    obtain ⟨batch, index⟩ := (Address.rowInj (plan.outputInside hl₀ hg₀ hd₀)
      (plan.outputInside hl hg hd)).mp (Cell.device.inj same)
    have slots : slot₀ = slot := (Nat.add_left_cancel batch)
    rw [lastValue root butterfly ready active₀ hl₀ hg₀ hd₀, index, slots]

theorem leafBlockFrame (root : w ^ plan.length = 1) (butterfly : Butterflies plan codelets w)
    (twiddles : TablesOk plan w tables) (shared : Cell → R) {m : Memory R} {a : Address}
    (outside : ¬ blockRows plan dst nbatch pid a) :
    leafKernel plan tables codelets src dst nbatch shared pid m a = m a := by
  rw [leafKernel]
  split
  · rfl
  · have ok := contiguousDevice (R := R) plan src dst
    obtain ⟨m', frame, _, run⟩ := runStagesLast (contiguousMode plan src dst) pid nbatch
      (x := fun slot j => m (src.row plan.length (plan.currentBatch pid slot) j)) (m := blockCells shared m)
      root butterfly twiddles (fun several => stableFirst ok several _) (fun m' _ => stableLast ok m')
      (readyStart fun _ _ _ _ => rfl)
    rw [run]
    refine (commitAllUntouched fun s hs same => ?_).trans (frame a)
    · obtain ⟨slot, lane, group, digit, active, hl, hg, hd, hs⟩ := (memAllStores plan.lastInside).mp hs
      rw [contiguousElement, List.mem_singleton] at hs
      subst hs
      exact outside ⟨slot, active, _, plan.outputInside hl hg hd, (Cell.device.inj same).symm⟩

/- Any order of the blocks: they write disjoint rows and each reads only its own. -/
theorem leafIndependent (root : w ^ plan.length = 1) (butterfly : Butterflies plan codelets w)
    (twiddles : TablesOk plan w tables) (shared : Cell → R) (m : Memory R) (compatible : Compatible src dst)
    {order : List ℕ} (nodup : order.Nodup) :
    Independent (leafKernel plan tables codelets src dst nbatch shared) order m
      (fun _ => False) (blockRows plan dst nbatch) (fun a v => ∀ row k, k < plan.length → a = dst.row plan.length row k →
        v = dft plan.length w (fun j => m (src.row plan.length row j)) k) where
  nodup := nodup
  apart p _ q _ distinct a here := blockRowsApart distinct here
  kept _ _ _ _ := not_false
  frame p _ m' a _ outside := leafBlockFrame root butterfly twiddles shared outside
  writes p _ m' same a inside row k hk place := by
    obtain ⟨slot, active, k', hk', rfl⟩ := inside
    obtain ⟨rfl, rfl⟩ := (Address.rowInj hk' hk).mp place
    rw [leafBlockWrites root butterfly twiddles shared active hk']
    refine dftCongr fun j hj => same _ not_false ?_
    rintro q _ distinct ⟨slot', active', i, hi, clash⟩
    refine compatible.rowApart hj hi (fun batch => distinct ?_) clash
    exact (mulAddInj active.1 active'.1 batch).1.symm

theorem outputAddresses (tables : List (ℕ → R)) (codelets : ℕ → (ℕ → R) → ℕ → R) (pid : ℕ)
    (src : Address) (st : Cell → R) :
    ((leafOutputStores plan tables codelets src dst nbatch pid st).map Store.address).Nodup ∧
      ∀ a, a ∈ (leafOutputStores plan tables codelets src dst nbatch pid st).map Store.address ↔
        ∃ d, blockRows plan dst nbatch pid d ∧ a = .device d := by
  rw [leafOutputStores]
  split
  next done =>
    refine ⟨List.nodup_nil, fun a => ⟨fun absent => by simp at absent, ?_⟩⟩
    rintro ⟨d, ⟨slot, active, _⟩, _⟩
    exact absurd (blockStarts active) (by omega)
  next running =>
    constructor
    · refine allStoresNodup (fun _ _ _ _ => by rw [contiguousElement]; rfl) ?_
      intro slot slot' lane lane' group group' digit digit' hl hl' hg hg' hd hd' same
      obtain ⟨batch, index⟩ := (Address.rowInj (plan.outputInside hl hg hd)
        (plan.outputInside hl' hg' hd')).mp (Cell.device.inj same)
      exact ⟨Nat.add_left_cancel batch, plan.outputInj hl hg hl' hg' index⟩
    · intro a
      simp only [List.mem_map, memAllStores plan.lastInside, contiguousElement, List.mem_singleton]
      constructor
      · rintro ⟨s, ⟨slot, lane, group, digit, active, hl, hg, hd, rfl⟩, rfl⟩
        exact ⟨_, ⟨slot, active, _, plan.outputInside hl hg hd, rfl⟩, rfl⟩
      · rintro ⟨_, ⟨slot, active, k, hk, rfl⟩, rfl⟩
        obtain ⟨lane, group, digit, hl, hg, hd, rfl⟩ := plan.outputFound hk
        exact ⟨_, ⟨slot, lane, group, digit, active, hl, hg, hd, rfl⟩, rfl⟩

/- What a launch of the leaf kernel does to device memory. -/
theorem leafLaunch (root : w ^ plan.length = 1) (butterfly : Butterflies plan codelets w)
    (twiddles : TablesOk plan w tables) (shared : Cell → R) (m : Memory R) (compatible : Compatible src dst)
    {order : List ℕ} (grid : order.Perm (List.range (leafGrid plan nbatch))) :
    (∀ row < nbatch, ∀ k < plan.length,
      launch (leafKernel plan tables codelets src dst nbatch shared) order m (dst.row plan.length row k) =
        dft plan.length w (fun j => m (src.row plan.length row j)) k) ∧
    ∀ a, (∀ row < nbatch, ∀ k < plan.length, a ≠ dst.row plan.length row k) →
      launch (leafKernel plan tables codelets src dst nbatch shared) order m a = m a := by
  have nodup : order.Nodup := grid.nodup_iff.mpr List.nodup_range
  constructor
  · intro row hrow k hk
    obtain ⟨pid, hpid, slot, active, rfl⟩ := rowInBlock plan hrow
    exact launchWrites (leafIndependent root butterfly twiddles shared m compatible nodup)
      (grid.mem_iff.mpr (List.mem_range.mpr hpid)) ⟨slot, active, k, hk, rfl⟩ _ k hk rfl
  · intro a outside
    refine launchFrame (fun _ => False) (blockRows plan dst nbatch)
      (fun p _ m' a _ away => leafBlockFrame root butterfly twiddles shared away) not_false ?_
    rintro p _ ⟨slot, active, k, hk, rfl⟩
    exact outside _ active.2 k hk rfl

/- Over the whole grid every output element is stored exactly once. -/
theorem leafStoresOnce (st : ℕ → Cell → R) {order : List ℕ}
    (grid : order.Perm (List.range (leafGrid plan nbatch))) :
    (order.flatMap fun pid =>
      (leafOutputStores plan tables codelets src dst nbatch pid (st pid)).map Store.address).Nodup ∧
    ∀ a, a ∈ (order.flatMap fun pid =>
      (leafOutputStores plan tables codelets src dst nbatch pid (st pid)).map Store.address) ↔
        ∃ row < nbatch, ∃ k < plan.length, a = .device (dst.row plan.length row k) := by
  obtain ⟨nodup, member⟩ := flatMapAddresses _ (fun pid a =>
      ∃ d, blockRows plan dst nbatch pid d ∧ a = Cell.device d) (grid.nodup_iff.mpr List.nodup_range)
    (fun p _ q _ distinct a => by
      rintro ⟨d, here, rfl⟩ ⟨d', there, same⟩
      exact blockRowsApart distinct here (Cell.device.inj same ▸ there))
    (fun pid _ => outputAddresses tables codelets pid src (st pid))
  refine ⟨nodup, fun a => (member a).trans ⟨?_, ?_⟩⟩
  · rintro ⟨pid, _, _, ⟨slot, active, k, hk, rfl⟩, rfl⟩
    exact ⟨_, active.2, k, hk, rfl⟩
  · rintro ⟨row, hrow, k, hk, rfl⟩
    obtain ⟨pid, hpid, slot, active, rfl⟩ := rowInBlock plan hrow
    exact ⟨pid, grid.mem_iff.mpr (List.mem_range.mpr hpid), _, ⟨slot, active, k, hk, rfl⟩, rfl⟩

end Contiguous

theorem stageDecodes (plan : LeafPlan) {stage lane elem : ℕ} (h : stage < plan.stages)
    (hl : lane < plan.lanes stage) (he : elem < plan.length / plan.lanes stage) :
    ∃ digits, decodeStageCodelet (lane + plan.lanes stage * (elem / plan.radix stage)) plan.factors stage =
      .ok digits := by
  rw [plan.elems h] at he
  have inside := plan.codeletInside h hl (Nat.div_lt_of_lt_mul (by rwa [Nat.mul_comm] at he))
  obtain ⟨prevFreq, futureTime, decoded, _⟩ := decodeOk h inside
  exact ⟨_, decoded⟩

/- The leaf program with its generated tables, for every plan, direction, batch and block order. -/
theorem leafComputesDft {R : Type*} [CommRing R] (plan : LeafPlan) (direction : Direction) (w : Rˣ)
    (root : w ^ plan.length = 1) (codelets : ℕ → (ℕ → R) → ℕ → R)
    (butterfly : Butterflies plan codelets (direction.root w)) :
    (∀ stage < plan.stages, ∀ lane < plan.lanes stage, ∀ elem < plan.length / plan.lanes stage,
      ∃ digits, decodeStageCodelet (lane + plan.lanes stage * (elem / plan.radix stage)) plan.factors stage =
        .ok digits) ∧
    ∃ tables, leafTables plan (direction.root w) = .ok tables ∧
      ∀ (nbatch : ℕ) (src dst : Address) (shared : Cell → R) (m : Memory R) (order : List ℕ),
        Compatible src dst → order.Perm (List.range (leafGrid plan nbatch)) →
        (∀ row < nbatch, ∀ k < plan.length,
          launch (leafKernel plan tables codelets src dst nbatch shared) order m (dst.row plan.length row k) =
            dft plan.length (direction.root w) (fun j => m (src.row plan.length row j)) k) ∧
        (∀ a, (∀ row < nbatch, ∀ k < plan.length, a ≠ dst.row plan.length row k) →
          launch (leafKernel plan tables codelets src dst nbatch shared) order m a = m a) ∧
        ∀ st : ℕ → Cell → R,
          (order.flatMap fun pid =>
            (leafOutputStores plan tables codelets src dst nbatch pid (st pid)).map Store.address).Nodup ∧
          ∀ a, a ∈ (order.flatMap fun pid =>
            (leafOutputStores plan tables codelets src dst nbatch pid (st pid)).map Store.address) ↔
              ∃ row < nbatch, ∃ k < plan.length, a = .device (dst.row plan.length row k) := by
  refine ⟨fun stage h lane hl elem he => stageDecodes plan h hl he, ?_⟩
  obtain ⟨tables, built, twiddles⟩ := leafTablesOk plan (direction.root w)
  refine ⟨tables, built, fun nbatch src dst shared m order compatible grid => ?_⟩
  obtain ⟨writes, frame⟩ := leafLaunch (direction.rootPow root) butterfly twiddles shared m compatible grid
  exact ⟨writes, frame, fun st => leafStoresOnce st grid⟩

/- Length six as two times three: three lanes, then one lane with two groups; two rows per block. -/
def twoByThree : LeafPlan where
  factors := [2, 3]
  stageLanes := [3, 1]
  batchPack := 2
  laneFloor := 1
  singleSmemBuffer := false
  nonempty := by decide
  positive := by decide
  lanesLength := rfl
  lanesFit := by decide
  packPositive := by decide
  singleSafe := nofun

theorem leafComputesDftTwoByThree : ∃ tables, leafTables twoByThree (3 : ZMod 7) = .ok tables ∧
    ∀ (shared : Cell → ZMod 7) (m : Memory (ZMod 7)),
      launch (leafKernel twoByThree tables (fun f => dft f (3 ^ (6 / f))) ⟨0, 0⟩ ⟨1, 0⟩ 3 shared) [1, 0] m
          ((⟨1, 0⟩ : Address).row 6 2 5) =
        dft 6 3 (fun j => m ((⟨0, 0⟩ : Address).row 6 2 j)) 5 := by
  obtain ⟨_, tables, built, run⟩ := leafComputesDft twoByThree .forward (⟨3, 5, by decide, by decide⟩ : (ZMod 7)ˣ)
    (by decide) (fun f => dft f (3 ^ (6 / f))) (fun _ _ _ _ _ => rfl)
  refine ⟨tables, built, fun shared m => ?_⟩
  exact (run 3 ⟨0, 0⟩ ⟨1, 0⟩ shared m [1, 0] (.inr (by decide)) (List.Perm.swap 0 1 [])).1 2 (by decide) 5 (by decide)

end FlagFft.Leaf
