import FlagFft.Npu.StockhamTiles

/-! What a vector Stockham stage stores. The tables place the accumulators of a tile where the generic kernel stores its
butterflies, whether they leave in one piece or value by value, and the chunks of a launch cover all transforms. -/
namespace FlagFft.Npu.StockhamStage
open Library.Indexing Library.Stores Library.Filling Library.Dft Library.MixedRadix FlagFft.Stockham
open FlagFft.Real (part)

section Positions
variable {node : StockhamStage} {groups batch : ℕ} {tile : Tile}

/- Where a lane of a tile is stored, from the base of its transform. -/
theorem outputBaseAt (divides : node.Divides groups) (ok : node.TileOk batch tile) {t u s l q : ℕ}
    (split : tile.jStart + u = s * node.span + l) (low : l < node.span) :
    (tile.batchIndex + t) * node.length + stagePosition node.radix node.span (tile.kStart + u) q + tile.jStart =
      node.outputBase tile t + (s * node.radix + q) * node.span + l := by
  obtain ⟨g, start⟩ := ok.start
  obtain ⟨predecessor, succ⟩ : ∃ r, node.radix = r + 1 := ⟨node.radix - 1, by have := divides.radixLow; omega⟩
  have butterfly : tile.kStart + u = (g + s) * node.span + l := by rw [start, Nat.add_assoc, split, Nat.add_mul, Nat.add_assoc]
  have base : node.outputBase tile t = (tile.batchIndex + t) * node.length + g * node.radix * node.span + tile.jStart := by
    have expand : (tile.batchIndex + t) * node.length + (predecessor + 1) * (g * node.span + tile.jStart) =
        (tile.batchIndex + t) * node.length + g * (predecessor + 1) * node.span + tile.jStart + predecessor * tile.jStart := by ring
    rw [outputBase, start, succ, Nat.add_sub_cancel, expand, Nat.add_sub_cancel]
  rw [stagePosition, butterfly, mulAddDiv low, mulAddMod low, base]
  ring

end Positions

section Entries
variable {node : StockhamStage} {groups batch : ℕ} {tile : Tile}

theorem outputComplexLt {q lane : ℕ} (hq : q < node.radix) (hl : lane < node.hostStoreLanes) :
    node.outputComplex q lane < node.radix * node.hostStoreLanes := by
  unfold outputComplex
  split
  · rw [Nat.mul_comm node.radix]
    exact mulAddLt hl hq
  · exact mulAddLt hq hl

theorem outputComplexInj {q q' lane lane' : ℕ} (hq : q < node.radix) (hq' : q' < node.radix) (hl : lane < node.hostStoreLanes)
    (hl' : lane' < node.hostStoreLanes) (same : node.outputComplex q lane = node.outputComplex q' lane') : q = q' ∧ lane = lane' := by
  unfold outputComplex at same
  split at same
  · exact (mulAddInj hq hq' same).symm
  · exact mulAddInj hl hl' same

/- The entry of one part of an output of a transform. -/
def storeEntry (node : StockhamStage) (transform q lane index : ℕ) : Store ℕ ℕ :=
  ⟨transform * node.hostStoreIndexStride + (2 * node.outputComplex q lane + index),
    (index * (node.radix * kTile) + (q * kTile + (transform * node.hostStoreLanes + lane))) * floatBytes⟩

theorem memStoreEntries {entry : Store ℕ ℕ} : entry ∈ node.storeEntries ↔
    ∃ transform < node.batchGroup, ∃ q < node.radix, ∃ lane < node.hostStoreLanes, ∃ index < 2,
      entry = node.storeEntry transform q lane index := by
  have binary (P : ℕ → Prop) : (∃ index < 2, P index) ↔ P 0 ∨ P 1 := by
    constructor
    · rintro ⟨index, small, here⟩
      obtain rfl | rfl : index = 0 ∨ index = 1 := by omega
      · exact .inl here
      · exact .inr here
    · rintro (here | here)
      · exact ⟨0, by decide, here⟩
      · exact ⟨1, by decide, here⟩
  simp only [storeEntries, List.mem_flatMap, List.mem_range, List.mem_cons, List.not_mem_nil, or_false, binary, storeEntry,
    Nat.add_zero, Nat.zero_mul, Nat.zero_add, Nat.one_mul, Nat.add_assoc]

theorem storeIndicesAt {transform q lane index : ℕ} (ht : transform < node.batchGroup) (hq : q < node.radix)
    (hl : lane < node.hostStoreLanes) (binary : index < 2) :
    commitAll (fun _ => 0) node.storeEntries (transform * node.hostStoreIndexStride + (2 * node.outputComplex q lane + index)) =
      (index * (node.radix * kTile) + (q * kTile + (transform * node.hostStoreLanes + lane))) * floatBytes := by
  have inRow {q lane index : ℕ} (hq : q < node.radix) (hl : lane < node.hostStoreLanes) (binary : index < 2) :
      2 * node.outputComplex q lane + index < node.hostStoreIndexStride := by
    have inside := outputComplexLt hq hl
    unfold hostStoreIndexStride
    rw [Nat.mul_assoc]
    omega
  refine commitAllWritten ⟨node.storeEntry transform q lane index, memStoreEntries.mpr ⟨_, ht, _, hq, _, hl, _, binary, rfl⟩, rfl⟩ ?_
  intro entry member same
  obtain ⟨transform', ht', q', hq', lane', hl', index', binary', rfl⟩ := memStoreEntries.mp member
  obtain ⟨rfl, row⟩ := mulAddInj (inRow hq' hl' binary') (inRow hq hl binary) same
  obtain ⟨rfl, rfl⟩ := outputComplexInj hq' hq hl' hl (by omega)
  obtain rfl : index' = index := by omega
  rfl

end Entries

section Contiguous
variable {node : StockhamStage} {groups batch : ℕ} {tile : Tile} (divides : node.Divides groups) (ok : node.TileOk batch tile)
  (narrow : node.span ≤ kTile) (single : node.packedGroupsPerTile = 1)
include divides ok narrow single

omit divides in
/- A transform whose outputs leave in one piece uses the first lanes of its row of the table. -/
theorem contiguousLanes {t : ℕ} (ht : t < tile.groupedBatchCount) :
    tile.valid ≤ node.hostStoreLanes ∧ node.storeIndexStride = node.hostStoreIndexStride ∧
      t * node.hostStoreLanes = t * node.batchLaneExtent := by
  have group := ok.group
  have short := ok.short
  have butterflies := ok.butterflies
  by_cases unit : node.span = 1
  · have lanes : node.hostStoreLanes = min node.ndiv kTile := if_pos unit
    have extent : node.batchLaneExtent = node.ndiv := if_pos unit
    refine ⟨by omega, ?_, ?_⟩
    · rw [storeIndexStride, hostStoreIndexStride, if_pos unit, lanes]
    · by_cases shared : node.batchGroup = 1
      · rw [show t = 0 by omega, Nat.zero_mul, Nat.zero_mul]
      · have small := (batchGroupFits shared).1
        rw [lanes, extent, min_eq_left (by omega)]
  · have lanes : node.hostStoreLanes = node.span := if_neg unit
    have extent : node.batchLaneExtent = node.span := (if_neg unit).trans (min_eq_left narrow)
    have valid := (ok.narrow unit narrow single).2
    refine ⟨by omega, ?_, ?_⟩
    · rw [storeIndexStride, hostStoreIndexStride, if_neg unit, lanes, extent]
    · rw [lanes, extent]

theorem contiguousPlace {t u q : ℕ} (hu : u < tile.valid) :
    (tile.batchIndex + t) * node.length + stagePosition node.radix node.span (tile.kStart + u) q =
      node.outputBase tile t + node.outputComplex q u := by
  by_cases unit : node.span = 1
  · have start := ok.first unit
    have place := @outputBaseAt node groups batch tile divides ok t u u 0 q (by rw [start, unit]; omega) (by omega)
    rw [start] at place
    rw [outputComplex, if_pos unit]
    rw [unit] at place ⊢
    omega
  · obtain ⟨start, valid⟩ := ok.narrow unit narrow single
    have place := @outputBaseAt node groups batch tile divides ok t u 0 u q (by rw [start]; ring) (by omega)
    rw [start, Nat.zero_mul, Nat.zero_add, Nat.add_zero, Nat.add_assoc (node.outputBase tile t)] at place
    rw [outputComplex, if_neg unit, hostStoreLanes, if_neg unit]
    exact place

/- The outputs of the lanes are the first ones. -/
theorem contiguousOutputs (o : ℕ) :
    o < node.radix * tile.valid ↔ ∃ u < tile.valid, ∃ q < node.radix, node.outputComplex q u = o := by
  have radix := divides.radixLow
  unfold outputComplex
  by_cases unit : node.span = 1
  · simp only [if_pos unit]
    constructor
    · intro inside
      exact ⟨o / node.radix, Nat.div_lt_of_lt_mul inside, o % node.radix, Nat.mod_lt _ (by omega), Nat.div_add_mod' _ _⟩
    · rintro ⟨u, hu, q, hq, rfl⟩
      rw [Nat.mul_comm node.radix]
      exact mulAddLt hu hq
  · have valid := (ok.narrow unit narrow single).2
    simp only [if_neg unit, hostStoreLanes, valid]
    constructor
    · intro inside
      exact ⟨o % node.span, Nat.mod_lt _ divides.span, o / node.span, Nat.div_lt_of_lt_mul (by rwa [Nat.mul_comm]),
        Nat.div_add_mod' _ _⟩
    · rintro ⟨u, hu, q, hq, rfl⟩
      exact mulAddLt hq hu

end Contiguous

section Stores
variable {S : Type*} {node : StockhamStage} {groups batch : ℕ} {tile : Tile} {tables : Tables S} {acc : ℕ → S} {input output : Address} {want m : Memory S}

theorem groupLane (divides : node.Divides groups) (ok : node.TileOk batch tile) {slot lane : ℕ} (hs : slot < node.groupsToStore tile)
    (hl : lane < node.groupValid tile) : node.groupOffset slot + lane < tile.valid := by
  unfold groupsToStore groupValid groupOffset at *
  have some_ := packedPositive divides
  by_cases single : node.packedGroupsPerTile = 1
  · rw [if_neg (by omega)] at hl ⊢
    omega
  · obtain ⟨_, perGroup, valid⟩ := ok.packed single
    rw [if_pos (by omega)] at hs hl ⊢
    rw [valid]
    exact mulAddLt hs (perGroup ▸ hl)

theorem groupFound (divides : node.Divides groups) (ok : node.TileOk batch tile) {u : ℕ} (hu : u < tile.valid) :
    ∃ slot < node.groupsToStore tile, ∃ lane < node.groupValid tile, node.groupOffset slot + lane = u := by
  unfold groupsToStore groupValid groupOffset at *
  have some_ := packedPositive divides
  by_cases single : node.packedGroupsPerTile = 1
  · simp only [single, lt_irrefl, if_false]
    exact ⟨0, Nat.one_pos, u, hu, Nat.zero_add u⟩
  · obtain ⟨_, perGroup, valid⟩ := ok.packed single
    simp only [show 1 < node.packedGroupsPerTile by omega, if_true, perGroup]
    exact ⟨u / node.span, Nat.div_lt_of_lt_mul (by rwa [Nat.mul_comm, ← valid]), u % node.span, Nat.mod_lt _ divides.span,
      Nat.div_add_mod' _ _⟩

def laneStep (node : StockhamStage) : ℕ := if node.span = 1 then node.radix else 1

theorem groupPlace (divides : node.Divides groups) (ok : node.TileOk batch tile) {t q slot lane : ℕ}
    (hl : lane < node.groupValid tile) :
    (tile.batchIndex + t) * node.length + stagePosition node.radix node.span (tile.kStart + (node.groupOffset slot + lane)) q =
      node.groupBase tile q t slot + lane * node.laneStep := by
  have some_ := packedPositive divides
  unfold groupValid at hl
  unfold groupOffset groupBase laneStep
  by_cases single : node.packedGroupsPerTile = 1
  · rw [if_neg (by omega)] at hl ⊢
    by_cases unit : node.span = 1
    · have start := ok.first unit
      have place := @outputBaseAt node groups batch tile divides ok t lane lane 0 q (by rw [start, unit]; omega) (by omega)
      simp only [start, unit, single, Nat.zero_add, if_true, lt_irrefl, if_false, Nat.mul_one, Nat.add_zero, Nat.add_mul] at place ⊢
      rw [place]
      ring
    · have inGroup := ok.inGroup unit single
      have place := @outputBaseAt node groups batch tile divides ok t lane 0 (tile.jStart + lane) q (by ring) (by omega)
      simp only [single, unit, lt_irrefl, if_false, Nat.zero_mul, Nat.zero_add, Nat.mul_one, Nat.add_zero] at place ⊢
      omega
  · obtain ⟨wide, _⟩ := packedFits single
    obtain ⟨start, perGroup, _⟩ := ok.packed single
    rw [if_pos (by omega)] at hl ⊢
    have place := @outputBaseAt node groups batch tile divides ok t (slot * node.span + lane) slot lane q
      (by rw [start, Nat.zero_add]) (perGroup ▸ hl)
    rw [start, Nat.add_zero] at place
    rw [if_pos (by omega), if_neg (by omega), place]
    ring

/- One part of output q of a lane. -/
def cell (node : StockhamStage) (output : Address) (tile : Tile) (t u q index : ℕ) : Address :=
  output.at (2 * ((tile.batchIndex + t) * node.length + stagePosition node.radix node.span (tile.kStart + u) q) + index)

/- The accumulators hold what is wanted of every lane. -/
def AccOk (node : StockhamStage) (output : Address) (want : Memory S) (tile : Tile) (acc : ℕ → S) : Prop :=
  ∀ t < tile.groupedBatchCount, ∀ u < tile.valid, ∀ q < node.radix, ∀ index < 2,
    acc (index * (node.radix * kTile) + (q * kTile + (t * node.batchLaneExtent + u))) = want (node.cell output tile t u q index)

variable (divides : node.Divides groups) (ok : node.TileOk batch tile) (holds : node.AccOk output want tile acc)
  (apart : input.buffer ≠ output.buffer) {t : ℕ} (ht : t < tile.groupedBatchCount)
include divides ok holds apart ht

theorem storeContiguousFills (narrow : node.span ≤ kTile) (single : node.packedGroupsPerTile = 1) :
    Fills id (Reads input m) want m (fun a => ∃ u < tile.valid, ∃ q < node.radix, ∃ index < 2, node.cell output tile t u q index = a)
      (node.storeContiguous output (commitAll (fun _ => 0) node.storeEntries) tile acc · t) := by
  intro m' done reads filled
  obtain ⟨lanes, stride, rows⟩ := contiguousLanes ok narrow single ht
  have group := ok.group
  let store := gather acc (fun i => commitAll (fun _ => 0) node.storeEntries (t * node.storeIndexStride + i)) 0
  have wanted : ∀ i < 2 * (node.radix * tile.valid), store i = want (output.at (2 * node.outputBase tile t + i)) := by
    intro i inside
    obtain ⟨u, hu, q, hq, here⟩ := (contiguousOutputs divides ok narrow single (i / 2)).mp (by omega)
    have whole : 2 * node.outputComplex q u + i % 2 = i := by omega
    have entry := @storeIndicesAt node t q u (i % 2) (by omega) hq (by omega) (by omega)
    have place := @contiguousPlace node groups batch tile divides ok narrow single t u q hu
    rw [whole, ← stride] at entry
    simp only [store, gather]
    rw [entry, Nat.zero_add, Nat.mul_div_cancel _ (by decide), rows, holds t ht u hu q hq _ (by omega), cell, place]
    congr 2
    omega
  have region : ∀ a, (∃ i < 2 * (node.radix * tile.valid), output.at (2 * node.outputBase tile t + i) = a) ↔
      ∃ u < tile.valid, ∃ q < node.radix, ∃ index < 2, node.cell output tile t u q index = a := by
    intro a
    constructor
    · rintro ⟨i, inside, rfl⟩
      obtain ⟨u, hu, q, hq, here⟩ := (contiguousOutputs divides ok narrow single (i / 2)).mp (by omega)
      refine ⟨u, hu, q, hq, i % 2, by omega, ?_⟩
      rw [cell, contiguousPlace divides ok narrow single hu]
      congr 1
      omega
    · rintro ⟨u, hu, q, hq, index, binary, rfl⟩
      have inside := (contiguousOutputs divides ok narrow single _).mpr ⟨u, hu, q, hq, rfl⟩
      refine ⟨2 * node.outputComplex q u + index, by omega, ?_⟩
      rw [cell, contiguousPlace divides ok narrow single hu]
      congr 1
      omega
  have bytes : node.radix * tile.valid * complexBytes / floatBytes = 2 * (node.radix * tile.valid) := by
    unfold complexBytes floatBytes
    omega
  have stored : node.storeContiguous output (commitAll (fun _ => 0) node.storeEntries) tile acc m' t =
      copy (fun i => output.at (2 * node.outputBase tile t + i)) (2 * (node.radix * tile.valid)) store m' := by
    simp only [storeContiguous, copyPadOutOne, bytes, ite_self, store]
  dsimp only [id]
  rw [stored]
  exact ⟨readsCopy apart reads, (filled.copy wanted).congr fun a => or_congr_right (region a)⟩

omit divides ok holds apart ht in
theorem packedAt (standard : tables.indices = aivIndices) {q lane index : ℕ} (small : lane < kTile) (binary : index < 2) :
    gather (fun i => if i < kTile then acc (q * kTile + i) else acc (node.radix * kTile + q * kTile + (i - kTile)))
        (fun i => tables.indices (2 * kTile + i)) 0 (2 * lane + index) =
      acc (index * (node.radix * kTile) + (q * kTile + lane)) := by
  have half : (2 * lane + index) / 2 = lane := by omega
  have rest : (2 * lane + index) % 2 = index := by omega
  rw [standard, gatherMerged (by omega), half, rest]
  obtain rfl | rfl : index = 0 ∨ index = 1 := by omega
  · rw [Nat.zero_mul, Nat.zero_add, if_pos small, Nat.zero_mul, Nat.zero_add]
  · rw [Nat.one_mul, if_neg (by omega), Nat.add_sub_cancel_left, Nat.one_mul, Nat.add_assoc]

omit divides ok holds apart ht in
theorem spreadAt [CommRing S] {count lane index : ℕ} {packed : ℕ → S} (inside : lane < count) (binary : index < 2) :
    spread count packed (8 * lane + index) = packed (2 * lane + index) := by
  have sets (store : ℕ → S) :
      Function.update (Function.update store (8 * lane) (packed (2 * lane))) (8 * lane + 1) (packed (2 * lane + 1)) (8 * lane + index) =
        packed (2 * lane + index) := by
    obtain rfl | rfl : index = 0 ∨ index = 1 := by omega
    · simp only [Nat.add_zero]
      rw [Function.update_of_ne (by omega), Function.update_self]
    · rw [Function.update_self]
  unfold spread
  refine foldlSettles (Q := fun store : ℕ → S => store (8 * lane + index) = packed (2 * lane + index))
    (List.mem_range.mpr inside) sets ?_ _
  intro other _ store here
  by_cases same : other = lane
  · exact same ▸ sets store
  · rw [Function.update_of_ne (by omega), Function.update_of_ne (by omega)]
    exact here

/- One output of a group, whichever way it leaves. -/
theorem storeGroupFills [CommRing S] (standard : tables.indices = aivIndices) {q slot : ℕ} (hq : q < node.radix)
    (hs : slot < node.groupsToStore tile) :
    Fills id (Reads input m) want m
      (fun a => ∃ lane < node.groupValid tile, ∃ index < 2, node.cell output tile t (node.groupOffset slot + lane) q index = a)
      (node.storeGroup tables output tile acc q t · slot) := by
  have lanes {lane : ℕ} (hl : lane < node.groupValid tile) := groupLane divides ok hs hl
  have place {lane index : ℕ} (hl : lane < node.groupValid tile) :
      node.cell output tile t (node.groupOffset slot + lane) q index =
        output.at (2 * node.groupBase tile q t slot + (lane * (2 * node.laneStep) + index)) := by
    rw [cell, groupPlace divides ok hl]
    congr 1
    ring
  let packed := gather (fun i => if i < kTile then acc (q * kTile + i) else acc (node.radix * kTile + q * kTile + (i - kTile)))
    (fun i => tables.indices (2 * kTile + i)) 0
  have value {lane index : ℕ} (hl : lane < node.groupValid tile) (binary : index < 2) :
      packed (2 * (t * node.batchLaneExtent + node.groupOffset slot) + (2 * lane + index)) =
        want (node.cell output tile t (node.groupOffset slot + lane) q index) := by
    have lane' := laneSmall ok ht (lanes hl)
    have offset : 2 * (t * node.batchLaneExtent + node.groupOffset slot) + (2 * lane + index) =
        2 * (t * node.batchLaneExtent + (node.groupOffset slot + lane)) + index := by ring
    rw [offset]
    exact (packedAt standard lane' binary).trans (holds t ht _ (lanes hl) q hq index binary)
  intro m' done reads filled
  simp only [storeGroup]
  split
  case isTrue whole =>
    have step : node.laneStep = 1 := if_neg (by omega)
    refine ⟨readsCopy apart reads, (filled.copy fun i small => ?_).congr fun a => or_congr_right ?_⟩
    · have half : i / 2 < node.groupValid tile := by omega
      have binary : i % 2 < 2 := Nat.mod_lt i (by decide)
      have wanted := value half binary
      rw [place half, step, Nat.mul_one, Nat.div_add_mod, Nat.div_add_mod'] at wanted
      exact wanted
    · constructor
      · rintro ⟨i, small, rfl⟩
        have half : i / 2 < node.groupValid tile := by omega
        refine ⟨i / 2, half, i % 2, Nat.mod_lt i (by decide), ?_⟩
        rw [place half, step, Nat.mul_one, Nat.div_add_mod']
      · rintro ⟨lane, hl, index, binary, rfl⟩
        refine ⟨2 * lane + index, by omega, ?_⟩
        rw [place hl, step, Nat.mul_one, Nat.mul_comm lane]
  case isFalse =>
    have pitch : globalPitch complexBytes (if node.span = 1 then (node.radix - 1) * complexBytes else 0) = 2 * node.laneStep := by
      have radix := divides.radixLow
      unfold globalPitch laneStep complexBytes floatBytes
      split <;> omega
    have blocks : localPitch complexBytes 0 = 8 := rfl
    have floats : complexBytes / floatBytes = 2 := rfl
    have fills := @copyPadOutFills S input output m (node.groupValid tile) complexBytes 0
      (if node.span = 1 then (node.radix - 1) * complexBytes else 0)
      (spread (node.groupValid tile) fun i => packed (2 * (t * node.batchLaneExtent + node.groupOffset slot) + i)) want
      (2 * node.groupBase tile q t slot) apart fun lane hl index binary => by
        rw [floats] at binary
        rw [blocks, pitch, Nat.mul_comm lane 8, spreadAt hl binary, value hl binary, place hl]
    obtain ⟨reads', filled'⟩ := fills m' done reads filled
    refine ⟨reads', filled'.congr fun a => or_congr_right ?_⟩
    simp only [List.mem_range, floats, pitch]
    constructor
    · rintro ⟨lane, hl, index, binary, rfl⟩
      exact ⟨lane, hl, index, binary, place hl⟩
    · rintro ⟨lane, hl, index, binary, rfl⟩
      exact ⟨lane, hl, index, binary, (place hl).symm⟩

end Stores

section Tile
variable {S : Type*} [CommRing S] {node : StockhamStage} {groups batch : ℕ} {tile : Tile} {tables : Tables S} {acc : ℕ → S}
  {input output : Address} {want m : Memory S}

def TileRegion (node : StockhamStage) (output : Address) (tile : Tile) (a : Address) : Prop :=
  ∃ t < tile.groupedBatchCount, ∃ u < tile.valid, ∃ q < node.radix, ∃ index < 2, node.cell output tile t u q index = a

variable (divides : node.Divides groups) (ok : node.TileOk batch tile) (holds : node.AccOk output want tile acc)
  (apart : input.buffer ≠ output.buffer)
include divides ok holds apart

theorem storeScatteredFills (standard : tables.indices = aivIndices) :
    Fills id (Reads input m) want m (node.TileRegion output tile) (node.storeScattered tables output tile acc) := by
  have groupRows : Fills id (Reads input m) want m
      (fun a => ∃ q ∈ List.range node.radix, ∃ t ∈ List.range tile.groupedBatchCount, ∃ slot ∈ List.range (node.groupsToStore tile),
        ∃ lane < node.groupValid tile, ∃ index < 2, node.cell output tile t (node.groupOffset slot + lane) q index = a)
      (node.storeScattered tables output tile acc) :=
    Fills.loop fun q hq => Fills.loop fun t ht => Fills.loop fun slot hs => storeGroupFills divides ok holds apart
      (List.mem_range.mp ht) standard (List.mem_range.mp hq) (List.mem_range.mp hs)
  refine groupRows.congr fun a => ?_
  simp only [List.mem_range]
  constructor
  · rintro ⟨q, hq, t, ht, slot, hs, lane, hl, index, binary, rfl⟩
    exact ⟨t, ht, _, groupLane divides ok hs hl, q, hq, index, binary, rfl⟩
  · rintro ⟨t, ht, u, hu, q, hq, index, binary, rfl⟩
    obtain ⟨slot, hs, lane, hl, rfl⟩ := groupFound divides ok hu
    exact ⟨q, hq, t, ht, slot, hs, lane, hl, index, binary, rfl⟩

omit [CommRing S] in
theorem storeRowsFills (narrow : node.span ≤ kTile) (single : node.packedGroupsPerTile = 1) :
    Fills id (Reads input m) want m (node.TileRegion output tile) ((List.range tile.groupedBatchCount).foldl
      (node.storeContiguous output (commitAll (fun _ => 0) node.storeEntries) tile acc)) := by
  have rows : Fills id (Reads input m) want m
      (fun a => ∃ t ∈ List.range tile.groupedBatchCount, ∃ u < tile.valid, ∃ q < node.radix, ∃ index < 2,
        node.cell output tile t u q index = a)
      ((List.range tile.groupedBatchCount).foldl
        (node.storeContiguous output (commitAll (fun _ => 0) node.storeEntries) tile acc)) :=
    Fills.loop fun t ht => storeContiguousFills divides ok holds apart (List.mem_range.mp ht) narrow single
  exact rows.congr fun a => by simp only [List.mem_range, TileRegion]

end Tile

section Process
variable {node : StockhamStage} {groups block batch : ℕ} {direction : Direction} {input output : Address} {m : Memory ℝ}
  (divides : node.Divides groups) (some_ : 0 < block) (apart : input.buffer ≠ output.buffer) (pad : ℝ) (schedule : Schedule)

/- The float memory that a launch of the generic kernel leaves. -/
noncomputable def wanted (node : StockhamStage) (direction : Direction) (input output : Address) (block batch : ℕ)
    (schedule : Schedule) (m : Memory ℝ) : Memory ℝ :=
  floatView (node.genericLaunch direction input output block batch schedule (complexView m))

include divides some_ apart

theorem accWanted {tile : Tile} (ok : node.TileOk batch tile) {m' : Memory ℝ} (reads : Reads (floatAddress input) m m') :
    node.AccOk (floatAddress output) (node.wanted direction input output block batch schedule m) tile
      (node.qAcc (node.buildTables direction) (node.loadDigit (node.buildTables direction) pad (floatAddress input) tile m')) := by
  intro t ht u hu q hq index binary
  have row : tile.batchIndex + t < batch := by
    have := ok.rows
    omega
  have butterfly : tile.kStart + u < node.ndiv := by
    have := ok.butterflies
    omega
  have same (i : ℕ) : complexView m' (input.at i) = complexView m (input.at i) := by
    rw [complexViewAt, complexViewAt, reads, reads]
  have lane := laneSmall ok ht hu
  rw [qAccAt hq lane, wanted, cell, floatViewAt _ _ _ binary, genericAt divides some_ apart schedule _ row butterfly hq]
  have value := @accumulateAt node groups direction divides
    (node.loadDigit (node.buildTables direction) pad (floatAddress input) tile m') q (t * node.batchLaneExtent + u) hq
  have digits : naturalOrderCodelet direction node.radix (fun digit =>
      ⟨(node.loadDigit (node.buildTables direction) pad (floatAddress input) tile m' digit).1 (t * node.batchLaneExtent + u),
        (node.loadDigit (node.buildTables direction) pad (floatAddress input) tile m' digit).2 (t * node.batchLaneExtent + u)⟩) q =
      naturalOrderCodelet direction node.radix (stageLoad (node.kernel block) (stageTwiddle direction node.length) input node.span
        (complexView m) (tile.batchIndex + t) (tile.kStart + u) ((tile.kStart + u) % node.span)) q := by
    rw [codeletDft, codeletDft]
    refine dftCongr fun digit hd => ?_
    rw [@loadDigitAt node groups block batch direction input tile divides ok pad m' t u digit ht hu hd]
    simp only [stageLoad, same]
  rw [← digits, ← value]

theorem processTileFills {tileId : ℕ} (inside : tileId < node.totalTiles batch) :
    Fills id (Reads (floatAddress input) m) (node.wanted direction input output block batch schedule m) m
      (node.TileRegion (floatAddress output) (node.tile batch tileId))
      (node.processTile (node.buildTables direction) pad (floatAddress input) (floatAddress output) batch · tileId) := by
  intro m' done reads filled
  have ok := tileOk divides inside
  have holds := @accWanted node groups block batch direction input output m divides some_ apart pad schedule _ ok m' reads
  have floatApart : (floatAddress input).buffer ≠ (floatAddress output).buffer := apart
  have scattered := @storeScatteredFills ℝ _ node groups batch _ (node.buildTables direction) _ (floatAddress input)
    (floatAddress output) _ m divides ok holds floatApart rfl m' done reads filled
  by_cases table : node.span ≤ kTile ∧ node.packedGroupsPerTile = 1
  · have entries : (node.buildTables direction).storeIndices = some (commitAll (fun _ => 0) node.storeEntries) := if_pos table
    simp only [processTile, entries, table, and_self, true_and]
    split
    case isTrue =>
      exact storeRowsFills divides ok holds floatApart table.1 table.2 m' done reads filled
    case isFalse => exact scattered
  · have entries : (node.buildTables direction).storeIndices = none := if_neg table
    simp only [processTile, entries]
    exact scattered

omit some_ apart in
/- The tiles of the blocks of a launch are the butterflies of all transforms. -/
theorem blocksCover {blocks : ℕ} (positive : 0 < blocks) (a : Address) :
    (∃ b ∈ schedule.order blocks, ∃ tileId ∈ strided b (node.totalTiles batch) blocks,
      node.TileRegion output (node.tile batch tileId) a) ↔
    ∃ row < batch, ∃ k < node.ndiv, ∃ q < node.radix, ∃ index < 2,
      output.at (2 * (row * node.length + stagePosition node.radix node.span k q) + index) = a := by
  constructor
  · rintro ⟨b, _, tileId, inBlock, t, ht, u, hu, q, hq, index, binary, rfl⟩
    obtain ⟨_, _, inside⟩ := (memStrided positive).mp inBlock
    have ok := tileOk divides inside
    have rows := ok.rows
    have butterflies := ok.butterflies
    exact ⟨_, by omega, _, by omega, q, hq, index, binary, rfl⟩
  · rintro ⟨row, rowInside, k, kInside, q, hq, index, binary, rfl⟩
    obtain ⟨tileId, inside, t, ht, u, hu, rfl, rfl⟩ := tileCovers divides rowInside kInside
    exact ⟨tileId % blocks, schedule.mem.mpr (Nat.mod_lt _ positive), tileId,
      (memStrided positive).mpr ⟨tileId / blocks, (Nat.mod_add_div' _ _).symm, inside⟩, t, ht, u, hu, q, hq, index, binary, rfl⟩

/- Any launch leaves what a launch of the generic kernel leaves. -/
theorem launchMatches (transforms : 0 < batch) (schedule' : Schedule) (m : Memory ℝ) :
    complexView (node.launch (node.buildTables direction) pad (floatAddress input) (floatAddress output) batch schedule' m) =
      node.genericLaunch direction input output block batch schedule (complexView m) := by
  have blocksPositive : 0 < min (node.totalTiles batch) kMaxGrid := by
    have batches : 0 < node.batchGroups batch := (ltCeilDiv batchGroupPositive).mpr (by omega)
    exact lt_min (Nat.mul_pos batches (tilesPositive divides)) (by decide)
  have fills : Fills id (Reads (floatAddress input) m) (node.wanted direction input output block batch schedule m) m
      (fun a => ∃ b ∈ schedule'.order (min (node.totalTiles batch) kMaxGrid),
        ∃ tileId ∈ strided b (node.totalTiles batch) (min (node.totalTiles batch) kMaxGrid),
          node.TileRegion (floatAddress output) (node.tile batch tileId) a)
      (node.launch (node.buildTables direction) pad (floatAddress input) (floatAddress output) batch schedule') := by
    refine Fills.loop fun b _ => ?_
    simp only [process, if_neg blocksPositive.ne']
    refine Fills.loop fun tileId inBlock => ?_
    obtain ⟨_, _, inside⟩ := (memStrided blocksPositive).mp inBlock
    exact processTileFills divides some_ apart pad schedule inside
  have ends := (fills.run (s := m) (fun _ => rfl) rfl).congr fun a => blocksCover divides schedule' blocksPositive a
  have same : node.launch (node.buildTables direction) pad (floatAddress input) (floatAddress output) batch schedule' m =
      node.wanted direction input output block batch schedule m := by
    refine ends.unique ⟨fun _ _ => rfl, fun a outside => ?_⟩
    rw [wanted, floatView, genericFrame divides some_ apart]
    · exact congrFun (floatComplex m) a
    · intro row rowInside k kInside q hq here
      refine outside ⟨row, rowInside, k, kInside, q, hq, a.offset % 2, Nat.mod_lt _ (by decide), ?_⟩
      have buffer := congrArg Address.buffer here
      have offset := congrArg Address.offset here
      obtain ⟨_, offset'⟩ := a
      simp only [Address.at, floatAddress] at buffer offset ⊢
      rw [buffer]
      congr 1
      omega
  rw [same, wanted, complexFloat]

end Process

section Execute
variable {node : StockhamStage} {groups planBatch : ℕ} {npu2dAivStockham : Bool} {direction : Direction} {current dst : Address}

theorem selectedDivides (selected : node.UseAivStage npu2dAivStockham planBatch) :
    ∃ groups, node.Divides groups ∧ node.length < uint32Size ∧ node.span ≤ node.length := by
  obtain ⟨_, length, narrow, low, high, span, _, _, whole, _⟩ := selected
  have period : 0 < node.radix * node.span := Nat.mul_pos (by omega) span
  obtain ⟨groups, product⟩ := Nat.dvd_of_mod_eq_zero whole
  have some_ : 0 < groups := Nat.pos_of_ne_zero fun none_ => by simp [product, none_] at length
  refine ⟨groups, ⟨low, high, span, some_, by rw [product]; ring⟩, narrow, ?_⟩
  calc node.span = 1 * node.span * 1 := by ring
    _ ≤ node.radix * node.span * groups := Nat.mul_le_mul (Nat.mul_le_mul (by omega) le_rfl) some_
    _ = node.length := product.symm

theorem launchAccepted (divides : node.Divides groups) {S : Type*} [CommRing S] {tables : Tables S} {pad : S}
    {input output : Address} {batch : ℕ} (transforms : 0 < batch) (schedule : Schedule) (m : Memory S) :
    node.launchAscendcStockhamStage tables pad input output batch schedule m =
      .ok (node.launch tables pad input output batch schedule m) := by
  have length := divides.lengthPositive
  have low := divides.radixLow
  have high := divides.radixHigh
  have span := divides.span
  have byRadix : node.length % node.radix = 0 := by
    rw [divides.length, Nat.mul_right_comm, Nat.mul_mod_left]
  have byPeriod : node.length % (node.radix * node.span) = 0 := by
    rw [divides.length, Nat.mul_assoc, Nat.mul_mod_left]
  have tiles := tilesPositive divides
  have batches : 0 < node.batchGroups batch := (ltCeilDiv batchGroupPositive).mpr (by omega)
  have total : 0 < node.totalTiles batch := Nat.mul_pos batches tiles
  unfold launchAscendcStockhamStage
  rw [if_neg (by omega), if_neg (by omega)]

/- Chunk by chunk the generic kernel does what one launch of it does. -/
theorem genericChunked (divides : node.Divides groups) (apart : current.buffer ≠ dst.buffer) {block block' batch chunk : ℕ}
    (some_ : 0 < block) (some' : 0 < block') (positive : 0 < batch → 0 < chunk) (schedule schedule' : Schedule) (z : Memory ℂ) :
    chunkLoop (fun offset count => node.genericLaunch direction (current.at (offset * node.length))
        (dst.at (offset * node.length)) block count schedule) batch chunk z =
      node.genericLaunch direction current dst block' batch schedule' z := by
  have product : [node.span, node.radix, groups].prod = node.length := by
    simp only [List.prod_cons, List.prod_nil, divides.length]
    ring
  have rowLocal : RowLocal node.length node.length
      (stageRow [node.span, node.radix, groups] (directionRoot direction node.length) 1) := by
    have inside : 1 < [node.span, node.radix, groups].length := by simp only [List.length_cons, List.length_nil]; omega
    have whole := @stageRowLocal ℂ _ [node.span, node.radix, groups] 1 (directionRoot direction node.length)
      (by rw [product]; exact divides.lengthPositive) inside
    rwa [product] at whole
  have chunked : RowMap (chunkLoop (fun offset count => node.genericLaunch direction (current.at (offset * node.length))
      (dst.at (offset * node.length)) block count schedule) batch chunk) (fun _ => False) current dst node.length node.length
      batch (stageRow [node.span, node.radix, groups] (directionRoot direction node.length) 1) := by
    refine chunkedRowMap positive rowLocal (.inr apart) (fun _ => not_false) (fun _ => not_false) fun offset count _ => ?_
    exact @genericMap node groups block count direction (current.at (offset * node.length)) (dst.at (offset * node.length)) divides
      some_ apart schedule _
  exact chunked.unique (genericMap divides some' apart schedule' _) z

theorem batchChunkCount {batch chunk : ℕ} {piece : ℕ × ℕ} (member : piece ∈ batchChunks batch chunk) :
    0 < piece.2 ∧ piece.2 ≤ chunk := by
  obtain ⟨i, inside, rfl⟩ := List.mem_map.mp member
  have small := List.mem_range.mp inside
  have positive := chunkPositive small
  have start := (ltCeilDiv positive).mp small
  exact ⟨lt_min positive (by omega), min_le_left _ _⟩

theorem executeRuns (divides : node.Divides groups) (narrow : node.length < uint32Size) (short : node.span ≤ node.length)
    (apart : current.buffer ≠ dst.buffer) (batch : ℕ) (pad : ℝ) (schedule : Schedule) (m : Memory ℝ) :
    ∃ m', node.execute (node.buildTables direction) pad current dst batch schedule m = .ok m' ∧
      ∀ block schedule', 0 < block →
        complexView m' = node.genericLaunch direction current dst block batch schedule' (complexView m) := by
  have high := divides.radixHigh
  have most : kMaxRadix = 19 := rfl
  have size : uint32Size = 4294967296 := rfl
  have narrowed : (⟨node.length % uint32Size, node.radix % uint32Size, node.span % uint32Size⟩ : StockhamStage) = node := by
    rw [Nat.mod_eq_of_lt narrow, Nat.mod_eq_of_lt (by omega), Nat.mod_eq_of_lt (by omega)]
  have bounded : ∃ limit < uint32Size, 0 < limit ∧ max 1 ((uint32Size - 1) / max 1 (if node.span = 1 then ceilDiv node.ndiv kTile else
      node.ndiv / node.span * ceilDiv node.span kTile)) = limit := by
    refine ⟨_, ?_, lt_max_of_lt_left Nat.one_pos, rfl⟩
    exact max_lt (by decide) ((Nat.div_le_self _ _).trans_lt (by decide))
  obtain ⟨limit, fits, limitPositive, maxBatch⟩ := bounded
  simp only [execute, narrowed, chunkLoopM, maxBatch]
  obtain ⟨m', ran, seen⟩ := @foldlMSimulates (ℕ × ℕ) Failure (Memory ℝ) (Memory ℂ) complexView
    (fun m piece => node.launchAscendcStockhamStage (node.buildTables direction) pad
      (floatAddress (current.at (piece.1 * node.length))) (floatAddress (dst.at (piece.1 * node.length))) (piece.2 % uint32Size)
      schedule m)
    (fun z piece => node.genericLaunch direction (current.at (piece.1 * node.length)) (dst.at (piece.1 * node.length)) 1 piece.2
      ascending z)
    (batchChunks batch (min batch limit)) (fun piece member m => by
      obtain ⟨some_, small⟩ := batchChunkCount member
      rw [Nat.mod_eq_of_lt (by omega), launchAccepted divides some_]
      exact ⟨_, rfl, @launchMatches node groups 1 piece.2 direction (current.at (piece.1 * node.length))
        (dst.at (piece.1 * node.length)) divides Nat.one_pos apart pad ascending some_ schedule m⟩) m
  refine ⟨m', ran, fun block schedule' some_ => ?_⟩
  rw [seen]
  exact genericChunked divides apart Nat.one_pos some_ (fun transforms => lt_min transforms limitPositive) ascending schedule' _

end Execute

/- A stage for which the compiler takes the vector kernel leaves what the generic kernel leaves. -/
theorem aivStageMatchesGeneric (node : StockhamStage) (npu2dAivStockham : Bool) (planBatch : ℕ)
    (selected : node.UseAivStage npu2dAivStockham planBatch) (direction : Direction) (current dst : Address)
    (apart : current.buffer ≠ dst.buffer) (batch : ℕ) (pad : ℝ) (schedule : Schedule) (m : Memory ℝ) :
    ∃ m', node.execute (node.buildTables direction) pad current dst batch schedule m = .ok m' ∧
      (∀ block schedule', 0 < block →
        complexView m' = node.genericLaunch direction current dst block batch schedule' (complexView m)) ∧
      ∀ row < batch, ∀ k < node.ndiv, ∀ q < node.radix,
        complexView m' (dst.at (row * node.length + node.radix * k - (node.radix - 1) * (k % node.span) + q * node.span)) =
          naturalOrderCodelet direction node.radix (fun d =>
            complexView m (current.at (row * node.length + k + d * node.ndiv)) *
              stageTwiddle direction node.length (d * (k % node.span) * (node.length / (node.radix * node.span)))) q := by
  obtain ⟨groups, divides, narrow, short⟩ := selectedDivides selected
  obtain ⟨m', ran, same⟩ := @executeRuns node groups direction current dst divides narrow short apart batch pad schedule m
  refine ⟨m', ran, same, fun row hrow k hk q hq => ?_⟩
  rw [same 1 ascending Nat.one_pos, stageOffset (by have := divides.radixLow; omega),
    genericAt divides Nat.one_pos apart ascending _ hrow hk hq, codeletDft, codeletDft]
  refine dftCongr fun d hd => ?_
  have span : (node.kernel 1).span node.span = node.span := if_neg divides.span.ne'
  unfold stageLoad
  rw [span]
  split
  case isTrue unit =>
    have trivial : d * (k % node.span) = 0 := by
      rcases unit with rfl | unit
      · exact Nat.zero_mul _
      · rw [show node.span = 1 from unit, Nat.mod_one, Nat.mul_zero]
    rw [trivial, Nat.zero_mul, stageTwiddle, if_pos divides.lengthPositive, pow_zero, mul_one]
    rfl
  case isFalse => rfl

/- Eleven transforms, eight to a tile. -/
theorem aivStageMatchesGenericOf720 :
    (⟨720, 5, 16⟩ : StockhamStage).UseAivStage true 11 ∧ (⟨0, 0⟩ : Address).buffer ≠ (⟨1, 0⟩ : Address).buffer ∧
    ∃ m', (⟨720, 5, 16⟩ : StockhamStage).execute (buildTables ⟨720, 5, 16⟩ .inverse) 0 ⟨0, 0⟩ ⟨1, 0⟩ 11 ascending (fun _ => 1) = .ok m' ∧
      complexView m' =
        genericLaunch ⟨720, 5, 16⟩ .inverse ⟨0, 0⟩ ⟨1, 0⟩ 128 11 ascending (complexView fun _ => 1) := by
  have selected : (⟨720, 5, 16⟩ : StockhamStage).UseAivStage true 11 := by
    unfold UseAivStage
    decide
  obtain ⟨m', ran, same, _⟩ := aivStageMatchesGeneric ⟨720, 5, 16⟩ true 11 selected .inverse ⟨0, 0⟩ ⟨1, 0⟩ (by decide) 11 0 ascending
    (fun _ => 1)
  exact ⟨selected, by decide, m', ran, same 128 ascending (by decide)⟩

end FlagFft.Npu.StockhamStage
