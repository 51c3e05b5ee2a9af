import FlagFft.ThreeDim.Stores
import FlagFft.Leaf.Run
import Mathlib.Data.List.ProdSigma

/-! A launched leaf whose last stage also permutes axes: the rows each program owns and the addresses it stores.
The host launches one program for each `batchPack` rows of the batch, whatever rows a program owns. -/
namespace FlagFft.ThreeDim
open Library.Indexing FlagFft.Leaf

inductive PermForm where
  | outer
  | inner
  deriving DecidableEq, Repr

structure PermutedLeaf where
  plan : LeafPlan
  form : PermForm
  span : ℕ
  packPower : ∃ e, plan.batchPack = 2 ^ e
  spanPositive : 0 < span

/- One element written by a launch: where, and which frequency of which loaded row. -/
structure Stored where
  address : ℕ
  row : ℕ
  frequency : ℕ
  deriving DecidableEq, Repr

namespace PermutedLeaf
variable (leaf : PermutedLeaf)

def length : ℕ := leaf.plan.length

def pack : ℕ := leaf.plan.batchPack

/- The rows of a program of the inner form are `span` apart. -/
def permBase (pid : ℕ) : ℕ :=
  if leaf.pack = 1 then pid * leaf.pack
  else pid / leaf.span * leaf.pack * leaf.span + pid % leaf.span

/- The row a slot loads. -/
def currentBatch (pid slot : ℕ) : ℕ :=
  if leaf.pack = 1 then pid * leaf.pack
  else match leaf.form with
    | .outer => pid * leaf.pack + slot
    | .inner => leaf.permBase pid + slot * leaf.span

/- The row whose place a slot stores to. -/
def permBatch (pid slot : ℕ) : ℕ :=
  match leaf.form with
  | .outer => pid * leaf.pack + slot
  | .inner => leaf.permBase pid + slot * leaf.span

def permGbase (nbatch pid slot : ℕ) : ℕ :=
  let permI0 := leaf.permBatch pid slot / leaf.span
  let permI1 := leaf.permBatch pid slot - permI0 * leaf.span
  match leaf.form with
  | .outer => permI0 * (leaf.length * leaf.span) + permI1
  | .inner => permI1 * (nbatch / leaf.span) + permI0

def permKStride (nbatch : ℕ) : ℕ :=
  match leaf.form with
  | .outer => leaf.span
  | .inner => nbatch

def outputBase (group digit lane : ℕ) : ℕ :=
  outputIndex leaf.plan.factors (leaf.plan.codelet leaf.plan.last lane group) digit

/- A single slot has no batch mask of its own and relies on the early return. -/
def slotMask (nbatch pid slot : ℕ) : Prop := leaf.pack = 1 ∨ leaf.permBatch pid slot < nbatch

instance {nbatch pid slot} : Decidable (leaf.slotMask nbatch pid slot) := inferInstanceAs (Decidable (_ ∨ _))

/- group, digit, lane and batch slot of every register of the last stage -/
def registers : List (ℕ × ℕ × ℕ × ℕ) :=
  List.range (leaf.plan.groups leaf.plan.last) ×ˢ List.range (leaf.plan.radix leaf.plan.last) ×ˢ
    List.range leaf.plan.laneBlock ×ˢ List.range leaf.pack

def stored (nbatch pid : ℕ) : ℕ × ℕ × ℕ × ℕ → Stored
  | (group, digit, lane, slot) =>
    { address := leaf.outputBase group digit lane * leaf.permKStride nbatch + leaf.permGbase nbatch pid slot
      row := leaf.currentBatch pid slot
      frequency := leaf.outputBase group digit lane }

/- The rows a program transforms, after its early return and under its mask. -/
def rows (nbatch pid : ℕ) : List ℕ :=
  if pid * leaf.pack ≥ nbatch then []
  else ((List.range leaf.pack).filter fun slot => leaf.slotMask nbatch pid slot).map (leaf.currentBatch pid)

def stores (nbatch pid : ℕ) : List Stored :=
  if pid * leaf.pack ≥ nbatch then []
  else (leaf.registers.filter fun (_, _, lane, slot) =>
    lane < leaf.plan.lanes leaf.plan.last ∧ leaf.slotMask nbatch pid slot).map (leaf.stored nbatch pid)

def grid (nbatch : ℕ) : ℕ := ceilDiv nbatch leaf.pack

def launchedRows (nbatch : ℕ) : List ℕ := (List.range (leaf.grid nbatch)).flatMap (leaf.rows nbatch)

def launchedStores (nbatch : ℕ) : List Stored := (List.range (leaf.grid nbatch)).flatMap (leaf.stores nbatch)

/- Where frequency `k` of a row belongs. -/
def place (nbatch row k : ℕ) : ℕ :=
  match leaf.form with
  | .outer => outerForm leaf.length leaf.span row k
  | .inner => innerForm nbatch leaf.span row k

def expected (nbatch : ℕ) : List Stored :=
  (List.range nbatch ×ˢ List.range leaf.length).map fun (row, k) => ⟨leaf.place nbatch row k, row, k⟩

/- Every row once, each of its frequencies at its place, and the output a permutation. -/
structure Covers (nbatch : ℕ) : Prop where
  rows : (leaf.launchedRows nbatch).Perm (List.range nbatch)
  stores : (leaf.launchedStores nbatch).Perm (leaf.expected nbatch)
  addresses : ((leaf.launchedStores nbatch).map Stored.address).Perm (List.range (nbatch * leaf.length))

/- The last program of each column of blocks is launched. -/
def GridSuffices (blocks : ℕ) : Prop :=
  leaf.form = .outer ∨ leaf.pack ∣ blocks ∨ (leaf.pack - blocks % leaf.pack) * leaf.span < leaf.pack

/- The program and the slot that own a row. -/
def owner (row : ℕ) : ℕ × ℕ :=
  match leaf.form with
  | .outer => (row / leaf.pack, row % leaf.pack)
  | .inner => (row / leaf.span / leaf.pack * leaf.span + row % leaf.span, row / leaf.span % leaf.pack)

variable {leaf} {nbatch pid pid' slot slot' row k blocks : ℕ}

theorem packPositive (leaf : PermutedLeaf) : 0 < leaf.pack := leaf.plan.packPositive

theorem permBaseEq (leaf : PermutedLeaf) (pid : ℕ) :
    leaf.permBase pid = pid / leaf.span * leaf.pack * leaf.span + pid % leaf.span := by
  unfold permBase
  split
  next one => rw [one, Nat.mul_one, Nat.mul_one, Nat.div_add_mod']
  next => rfl

theorem permBatchInner (inner : leaf.form = .inner) (pid slot : ℕ) :
    leaf.permBatch pid slot = (pid / leaf.span * leaf.pack + slot) * leaf.span + pid % leaf.span := by
  simp only [permBatch, inner, permBaseEq]
  ring

/- The row a slot stores is the row it loaded. -/
theorem currentBatchEq (inside : slot < leaf.pack) : leaf.currentBatch pid slot = leaf.permBatch pid slot := by
  unfold currentBatch
  split
  next one =>
      have first : slot = 0 := by omega
      cases form : leaf.form with
      | outer => simp [permBatch, form, first]
      | inner => simp [permBatch, form, first, permBase, one]
  next => rfl

theorem ownerInside (leaf : PermutedLeaf) (row : ℕ) : (leaf.owner row).2 < leaf.pack := by
  unfold owner
  cases leaf.form <;> exact Nat.mod_lt _ leaf.packPositive

theorem permBatchOwner (leaf : PermutedLeaf) (row : ℕ) :
    leaf.permBatch (leaf.owner row).1 (leaf.owner row).2 = row := by
  cases form : leaf.form with
  | outer =>
      simp only [permBatch, owner, form]
      exact Nat.div_add_mod' row leaf.pack
  | inner =>
      have column := Nat.mod_lt row leaf.spanPositive
      rw [permBatchInner form]
      simp only [owner, form, mulAddDiv column, mulAddMod column]
      rw [Nat.div_add_mod', Nat.div_add_mod']

theorem ownerPermBatch (inside : slot < leaf.pack) : leaf.owner (leaf.permBatch pid slot) = (pid, slot) := by
  cases form : leaf.form with
  | outer => simp only [owner, permBatch, form, mulAddDiv inside, mulAddMod inside]
  | inner =>
      have column := Nat.mod_lt pid leaf.spanPositive
      rw [permBatchInner form]
      simp only [owner, form, mulAddDiv column, mulAddMod column, mulAddDiv inside, mulAddMod inside]
      rw [Nat.div_add_mod']

theorem started (inGrid : pid < leaf.grid nbatch) : ¬ pid * leaf.pack ≥ nbatch :=
  Nat.not_le.mpr ((ltCeilDiv leaf.packPositive).mp inGrid)

theorem slotMaskIff (inGrid : pid < leaf.grid nbatch) (inside : slot < leaf.pack) :
    leaf.slotMask nbatch pid slot ↔ leaf.permBatch pid slot < nbatch := by
  refine ⟨fun mask => mask.elim (fun one => ?_) id, .inr⟩
  have start := started inGrid
  rw [← currentBatchEq inside, currentBatch, if_pos one]
  omega

theorem memRows (inGrid : pid < leaf.grid nbatch) :
    row ∈ leaf.rows nbatch pid ↔ row < nbatch ∧ (leaf.owner row).1 = pid := by
  simp only [rows, if_neg (started inGrid), List.mem_map, List.mem_filter, List.mem_range, decide_eq_true_eq]
  constructor
  · rintro ⟨slot, ⟨inside, mask⟩, rfl⟩
    rw [currentBatchEq inside, ownerPermBatch inside]
    exact ⟨(slotMaskIff inGrid inside).mp mask, rfl⟩
  · rintro ⟨bound, rfl⟩
    have same := permBatchOwner leaf row
    refine ⟨(leaf.owner row).2, ⟨ownerInside leaf row, ?_⟩, (currentBatchEq (ownerInside leaf row)).trans same⟩
    exact (slotMaskIff inGrid (ownerInside leaf row)).mpr (same.symm ▸ bound)

theorem memLaunchedRows :
    row ∈ leaf.launchedRows nbatch ↔ row < nbatch ∧ (leaf.owner row).1 < leaf.grid nbatch := by
  simp only [launchedRows, List.mem_flatMap, List.mem_range]
  constructor
  · rintro ⟨pid, inGrid, member⟩
    obtain ⟨bound, rfl⟩ := (memRows inGrid).mp member
    exact ⟨bound, inGrid⟩
  · rintro ⟨bound, inGrid⟩
    exact ⟨_, inGrid, (memRows inGrid).mpr ⟨bound, rfl⟩⟩

theorem rowsNodup (leaf : PermutedLeaf) (nbatch pid : ℕ) : (leaf.rows nbatch pid).Nodup := by
  unfold rows
  split
  next => exact List.nodup_nil
  next =>
      refine List.Nodup.map_on (fun slot inside slot' inside' same => ?_) (List.nodup_range.filter _)
      have bound := List.mem_range.mp (List.mem_of_mem_filter inside)
      have bound' := List.mem_range.mp (List.mem_of_mem_filter inside')
      rw [currentBatchEq bound, currentBatchEq bound'] at same
      have owners := congrArg leaf.owner same
      rw [ownerPermBatch bound, ownerPermBatch bound'] at owners
      exact (Prod.mk.inj owners).2

theorem launchedRowsNodup (leaf : PermutedLeaf) (nbatch : ℕ) : (leaf.launchedRows nbatch).Nodup := by
  rw [launchedRows, List.nodup_flatMap]
  refine ⟨fun pid _ => rowsNodup leaf nbatch pid, List.nodup_range.imp_of_mem ?_⟩
  intro pid pid' inGrid inGrid' distinct row here there
  rw [memRows (List.mem_range.mp inGrid)] at here
  rw [memRows (List.mem_range.mp inGrid')] at there
  exact distinct (here.2.symm.trans there.2)

theorem launchedRowsPerm (leaf : PermutedLeaf) (nbatch : ℕ) :
    (leaf.launchedRows nbatch).Perm (List.range nbatch) ↔ ∀ row < nbatch, (leaf.owner row).1 < leaf.grid nbatch := by
  rw [List.perm_ext_iff_of_nodup (launchedRowsNodup leaf nbatch) List.nodup_range]
  simp only [memLaunchedRows, List.mem_range]
  exact ⟨fun all row bound => ((all row).mpr bound).2, fun all row => ⟨And.left, fun bound => ⟨bound, all row bound⟩⟩⟩

theorem memRegisters {group digit lane slot : ℕ} :
    (group, digit, lane, slot) ∈ leaf.registers ↔ group < leaf.plan.groups leaf.plan.last ∧
      digit < leaf.plan.radix leaf.plan.last ∧ lane < leaf.plan.laneBlock ∧ slot < leaf.pack := by
  simp only [registers, List.mem_product, List.mem_range]

theorem storedEq (inside : slot < leaf.pack) (group digit lane : ℕ) :
    leaf.stored nbatch pid (group, digit, lane, slot) =
      ⟨leaf.place nbatch (leaf.permBatch pid slot) (leaf.outputBase group digit lane), leaf.permBatch pid slot,
        leaf.outputBase group digit lane⟩ := by
  have column : leaf.permBatch pid slot - leaf.permBatch pid slot / leaf.span * leaf.span =
      leaf.permBatch pid slot % leaf.span := by
    rw [Nat.mod_eq_sub, Nat.mul_comm]
  simp only [stored, currentBatchEq inside, permGbase, column, permKStride, place, outerForm, innerForm]
  cases leaf.form with
  | outer => simp only [Stored.mk.injEq, and_true]; ring
  | inner => simp only [Stored.mk.injEq, and_true]; ring

theorem memStores (inGrid : pid < leaf.grid nbatch) {s : Stored} :
    s ∈ leaf.stores nbatch pid ↔ s.row < nbatch ∧ (leaf.owner s.row).1 = pid ∧ s.frequency < leaf.length ∧
      s.address = leaf.place nbatch s.row s.frequency := by
  simp only [stores, if_neg (started inGrid), List.mem_map, List.mem_filter, decide_eq_true_eq, Prod.exists,
    memRegisters]
  constructor
  · rintro ⟨group, digit, lane, slot, ⟨⟨hg, hd, _, inside⟩, hl, mask⟩, rfl⟩
    rw [storedEq inside]
    have owned : (leaf.owner (leaf.permBatch pid slot)).1 = pid := congrArg Prod.fst (ownerPermBatch inside)
    exact ⟨(slotMaskIff inGrid inside).mp mask, owned, leaf.plan.outputInside hl hg hd, rfl⟩
  · rintro ⟨bound, rfl, hk, address⟩
    obtain ⟨lane, group, digit, hl, hg, hd, found⟩ := leaf.plan.outputFound hk
    have inside := ownerInside leaf s.row
    have same := permBatchOwner leaf s.row
    have block : lane < leaf.plan.laneBlock :=
      hl.trans_le ((leaf.plan.lanesActive leaf.plan.lastInside).trans leaf.plan.activeBlock)
    refine ⟨group, digit, lane, _, ⟨⟨hg, hd, block, inside⟩, hl, ?_⟩, ?_⟩
    · exact (slotMaskIff inGrid inside).mpr (same.symm ▸ bound)
    · have frequency : leaf.outputBase group digit lane = s.frequency := found
      rw [storedEq inside, same, frequency, ← address]

theorem storesNodup (inGrid : pid < leaf.grid nbatch) : (leaf.stores nbatch pid).Nodup := by
  have registersNodup : leaf.registers.Nodup :=
    List.nodup_range.product (List.nodup_range.product (List.nodup_range.product List.nodup_range))
  rw [stores, if_neg (started inGrid)]
  refine List.Nodup.map_on ?_ (registersNodup.filter _)
  rintro ⟨group, digit, lane, slot⟩ member ⟨group', digit', lane', slot'⟩ member' same
  simp only [List.mem_filter, decide_eq_true_eq, memRegisters] at member member'
  obtain ⟨⟨hg, hd, _, inside⟩, hl, _⟩ := member
  obtain ⟨⟨hg', hd', _, inside'⟩, hl', _⟩ := member'
  rw [storedEq inside, storedEq inside', Stored.mk.injEq] at same
  obtain ⟨rfl, rfl, rfl⟩ := leaf.plan.outputInj hl hg hl' hg' same.2.2
  have owners := congrArg leaf.owner same.2.1
  rw [ownerPermBatch inside, ownerPermBatch inside'] at owners
  exact congrArg (fun slot => (group, digit, lane, slot)) (Prod.mk.inj owners).2

theorem launchedStoresNodup (leaf : PermutedLeaf) (nbatch : ℕ) : (leaf.launchedStores nbatch).Nodup := by
  rw [launchedStores, List.nodup_flatMap]
  refine ⟨fun pid inGrid => storesNodup (List.mem_range.mp inGrid), List.nodup_range.imp_of_mem ?_⟩
  intro pid pid' inGrid inGrid' distinct s here there
  rw [memStores (List.mem_range.mp inGrid)] at here
  rw [memStores (List.mem_range.mp inGrid')] at there
  exact distinct (here.2.1.symm.trans there.2.1)

theorem expectedNodup (leaf : PermutedLeaf) (nbatch : ℕ) : (leaf.expected nbatch).Nodup := by
  refine List.Nodup.map_on ?_ (List.nodup_range.product List.nodup_range)
  rintro ⟨row, k⟩ _ ⟨row', k'⟩ _ same
  simp only [Stored.mk.injEq] at same
  exact Prod.ext same.2.1 same.2.2

theorem launchedStoresPerm (covered : ∀ row < nbatch, (leaf.owner row).1 < leaf.grid nbatch) :
    (leaf.launchedStores nbatch).Perm (leaf.expected nbatch) := by
  rw [List.perm_ext_iff_of_nodup (launchedStoresNodup leaf nbatch) (expectedNodup leaf nbatch)]
  intro s
  simp only [launchedStores, expected, List.mem_flatMap, List.mem_map, Prod.exists, List.mem_product,
    List.mem_range]
  constructor
  · rintro ⟨pid, inGrid, member⟩
    obtain ⟨bound, _, hk, address⟩ := (memStores inGrid).mp member
    exact ⟨s.row, s.frequency, ⟨bound, hk⟩, by rw [← address]⟩
  · rintro ⟨row, k, ⟨bound, hk⟩, rfl⟩
    exact ⟨_, covered row bound, (memStores (covered row bound)).mpr ⟨bound, rfl, hk, rfl⟩⟩

theorem placeLt (bound : row < blocks * leaf.span) (hk : k < leaf.length) :
    leaf.place (blocks * leaf.span) row k < blocks * leaf.span * leaf.length := by
  have column := Nat.mod_lt row leaf.spanPositive
  have block : row / leaf.span < blocks := Nat.div_lt_of_lt_mul (by rwa [Nat.mul_comm] at bound)
  unfold place
  cases leaf.form with
  | outer =>
      calc outerForm leaf.length leaf.span row k
          = row / leaf.span * (leaf.length * leaf.span) + (k * leaf.span + row % leaf.span) := Nat.add_assoc _ _ _
        _ < blocks * (leaf.length * leaf.span) := mulAddLt block (mulAddLt hk column)
        _ = blocks * leaf.span * leaf.length := by ring
  | inner =>
      have inside : row % leaf.span * blocks + row / leaf.span < blocks * leaf.span := by
        rw [Nat.mul_comm blocks]
        exact mulAddLt column block
      calc innerForm (blocks * leaf.span) leaf.span row k
          = k * (blocks * leaf.span) + (row % leaf.span * blocks + row / leaf.span) := by
            rw [innerForm, Nat.mul_div_cancel _ leaf.spanPositive, Nat.add_assoc]
        _ < leaf.length * (blocks * leaf.span) := mulAddLt hk inside
        _ = blocks * leaf.span * leaf.length := by ring

theorem placeInj {row' k' : ℕ} (bound : row < blocks * leaf.span) (bound' : row' < blocks * leaf.span)
    (hk : k < leaf.length) (hk' : k' < leaf.length)
    (same : leaf.place (blocks * leaf.span) row k = leaf.place (blocks * leaf.span) row' k') :
    row = row' ∧ k = k' := by
  unfold place at same
  cases form : leaf.form with
  | outer =>
      rw [form] at same
      exact outerFormInj leaf.spanPositive hk hk' same
  | inner =>
      rw [form] at same
      exact innerFormInj leaf.spanPositive bound bound' same

theorem expectedAddresses (leaf : PermutedLeaf) (blocks : ℕ) :
    ((leaf.expected (blocks * leaf.span)).map Stored.address).Perm
      (List.range (blocks * leaf.span * leaf.length)) := by
  have pairs : (List.range (blocks * leaf.span) ×ˢ List.range leaf.length).Nodup :=
    List.nodup_range.product List.nodup_range
  have nodup : ((leaf.expected (blocks * leaf.span)).map Stored.address).Nodup := by
    rw [expected, List.map_map]
    refine List.Nodup.map_on ?_ pairs
    rintro ⟨row, k⟩ member ⟨row', k'⟩ member' same
    simp only [List.mem_product, List.mem_range] at member member'
    obtain ⟨rfl, rfl⟩ := placeInj member.1 member'.1 member.2 member'.2 same
    rfl
  have inside : (leaf.expected (blocks * leaf.span)).map Stored.address ⊆
      List.range (blocks * leaf.span * leaf.length) := by
    intro address member
    simp only [expected, List.map_map, List.mem_map, Prod.exists, List.mem_product, List.mem_range] at member
    obtain ⟨row, k, ⟨bound, hk⟩, rfl⟩ := member
    exact List.mem_range.mpr (placeLt bound hk)
  refine (List.subperm_of_subset nodup inside).perm_of_length_le ?_
  simp [expected, List.length_product]

/- The last slot of the last program a column of blocks needs, against the rows of the batch. -/
theorem columnStarts {pack span r q : ℕ} :
    (q * span + (span - 1)) * pack < (q * pack + r) * span ↔ (span - 1) * pack < r * span := by
  have split : (q * span + (span - 1)) * pack = q * pack * span + (span - 1) * pack := by ring
  have split' : (q * pack + r) * span = q * pack * span + r * span := by ring
  rw [split, split']
  exact Nat.add_lt_add_iff_left

theorem shortColumn {pack span r : ℕ} (positive : 0 < span) (short : r ≤ pack) :
    (span - 1) * pack < r * span ↔ (pack - r) * span < pack := by
  obtain ⟨rest, rfl⟩ := Nat.exists_eq_add_of_le short
  obtain ⟨before, rfl⟩ := Nat.exists_eq_add_of_lt positive
  have left : (0 + before + 1 - 1) * (r + rest) = before * r + before * rest := by
    rw [Nat.add_sub_cancel, Nat.zero_add]
    ring
  have right : r * (0 + before + 1) = before * r + r := by ring
  have remaining : (r + rest - r) * (0 + before + 1) = before * rest + rest := by
    rw [Nat.add_sub_cancel_left]
    ring
  rw [left, right, remaining]
  omega

/- A block of a column lies in no later program than the last block does. -/
theorem ownerStarts {pack span i0 i1 : ℕ} (positive : 0 < pack) (block : i0 < blocks) (column : i1 < span)
    (last : pack ∣ blocks ∨ (span - 1) * pack < blocks % pack * span) :
    (i0 / pack * span + i1) * pack < blocks * span := by
  have count := Nat.div_add_mod' blocks pack
  have bound : i1 * pack ≤ (span - 1) * pack := Nat.mul_le_mul_right _ (by omega)
  have inside : i0 / pack * pack * span ≤ blocks / pack * pack * span :=
    Nat.mul_le_mul_right _ (Nat.mul_le_mul_right _ (Nat.div_le_div_right block.le))
  have whole : blocks * span = blocks / pack * pack * span + blocks % pack * span := by
    rw [← Nat.add_mul, count]
  have split : (i0 / pack * span + i1) * pack = i0 / pack * pack * span + i1 * pack := by ring
  rcases last with even | room
  · have full : i0 / pack < blocks / pack := Nat.div_lt_div_of_lt_of_dvd even block
    have next : (i0 / pack + 1) * pack * span ≤ blocks / pack * pack * span :=
      Nat.mul_le_mul_right _ (Nat.mul_le_mul_right _ full)
    have step : (i0 / pack + 1) * pack * span = i0 / pack * pack * span + span * pack := by ring
    have strict : i1 * pack < span * pack := Nat.mul_lt_mul_of_pos_right column positive
    omega
  · omega

theorem gridSufficesIff (leaf : PermutedLeaf) (blocks : ℕ) :
    (∀ row < blocks * leaf.span, (leaf.owner row).1 < leaf.grid (blocks * leaf.span)) ↔ leaf.GridSuffices blocks := by
  have positive := leaf.packPositive
  have columns := leaf.spanPositive
  simp only [grid, ltCeilDiv positive, GridSuffices, owner]
  cases form : leaf.form with
  | outer =>
      refine ⟨fun _ => .inl rfl, fun _ row bound => ?_⟩
      exact (Nat.div_mul_le_self row leaf.pack).trans_lt bound
  | inner =>
      have short : blocks % leaf.pack ≤ leaf.pack := (Nat.mod_lt blocks positive).le
      simp only [reduceCtorEq, false_or, ← shortColumn columns short]
      constructor
      · intro all
        by_cases even : leaf.pack ∣ blocks
        · exact .inl even
        · have rest : 0 < blocks % leaf.pack := Nat.emod_pos_of_not_dvd even
          have count := Nat.div_add_mod' blocks leaf.pack
          -- the last column of the first block of the last, partial program
          have column : leaf.span - 1 < leaf.span := Nat.sub_lt columns one_pos
          have block : blocks / leaf.pack * leaf.pack < blocks := by omega
          have start := all (blocks / leaf.pack * leaf.pack * leaf.span + (leaf.span - 1)) (mulAddLt block column)
          simp only [mulAddDiv column, mulAddMod column, Nat.mul_div_cancel _ positive] at start
          have reached : (blocks / leaf.pack * leaf.span + (leaf.span - 1)) * leaf.pack <
              (blocks / leaf.pack * leaf.pack + blocks % leaf.pack) * leaf.span := by rwa [count]
          exact .inr (columnStarts.mp reached)
      · intro last row bound
        have block : row / leaf.span < blocks := Nat.div_lt_of_lt_mul (by rwa [Nat.mul_comm] at bound)
        exact ownerStarts positive block (Nat.mod_lt row columns) last

/- A launch over whole blocks of rows covers the batch exactly when its grid reaches every column. -/
theorem permutedLeafCovers (leaf : PermutedLeaf) (blocks : ℕ) :
    leaf.Covers (blocks * leaf.span) ↔ leaf.GridSuffices blocks := by
  rw [← gridSufficesIff]
  constructor
  · intro covers
    exact (launchedRowsPerm leaf _).mp covers.rows
  · intro covered
    have stores := launchedStoresPerm covered
    exact ⟨(launchedRowsPerm leaf _).mpr covered, stores, (stores.map _).trans (expectedAddresses leaf blocks)⟩

theorem fourSlots : 0 < 4 := by decide

theorem spanOfRows : 0 < 64 := by decide

/- The middle axis of 150 x 32 x 64 single precision values on MUSA: four slots, rows 64 apart, 150 blocks. -/
def middleAxis : PermutedLeaf where
  plan :=
    { factors := [4, 8]
      stageLanes := [4, 4]
      batchPack := 4
      laneFloor := 1
      singleSmemBuffer := false
      nonempty := by decide
      positive := by decide
      lanesLength := rfl
      lanesFit := by decide
      packPositive := fourSlots
      singleSafe := nofun }
  form := .inner
  span := 64
  packPower := ⟨2, rfl⟩
  spanPositive := spanOfRows

/- Row 149 * 64 + 63 belongs to program 2431, and 2400 are launched. -/
theorem middleAxisDropsRows : ¬ middleAxis.Covers (150 * middleAxis.span) := by
  intro covers
  have owned := (launchedRowsPerm middleAxis _).mp covers.rows (149 * 64 + 63) (by decide)
  exact absurd owned (by decide)

end PermutedLeaf
end FlagFft.ThreeDim
