import FlagFft.Npu.StockhamStage

/-! The tiles of a Stockham stage on the vector cores cover the butterflies of every transform, and each of their lanes
computes and stores what the generic kernel computes for that butterfly. -/
namespace FlagFft.Npu.StockhamStage
open Library.Indexing Library.Stores Library.Filling Library.Dft Library.MixedRadix FlagFft.Stockham
open FlagFft.Real (part)

section Shape
variable {node : StockhamStage} {groups : ℕ}

/- What the launch checks. -/
structure Divides (node : StockhamStage) (groups : ℕ) : Prop where
  radixLow : 2 ≤ node.radix
  radixHigh : node.radix ≤ kMaxRadix
  span : 0 < node.span
  some : 0 < groups
  length : node.length = groups * node.radix * node.span

theorem Divides.ndiv (ok : node.Divides groups) : node.ndiv = groups * node.span := by
  have radix := ok.radixLow
  unfold StockhamStage.ndiv
  rw [ok.length, Nat.mul_right_comm, Nat.mul_div_cancel _ (by omega)]

theorem Divides.lengthPositive (ok : node.Divides groups) : 0 < node.length := by
  have radix := ok.radixLow
  rw [ok.length]
  exact Nat.mul_pos (Nat.mul_pos ok.some (by omega)) ok.span

theorem Divides.ndivPositive (ok : node.Divides groups) : 0 < node.ndiv := ok.ndiv ▸ Nat.mul_pos ok.some ok.span

theorem Divides.groupsPerTransform (ok : node.Divides groups) (wide : node.span ≠ 1) : node.groupsPerTransform = groups := by
  unfold StockhamStage.groupsPerTransform
  rw [if_neg wide, ok.ndiv, Nat.mul_div_cancel _ ok.span]

theorem extentPositive (ok : node.Divides groups) : 0 < node.batchLaneExtent := by
  unfold batchLaneExtent
  split
  · exact ok.ndivPositive
  · exact lt_min ok.span (by decide)

theorem batchGroupPositive : 0 < node.batchGroup := by
  unfold batchGroup stockhamBatchGroup
  split
  case isTrue short => exact Nat.div_pos (by omega) short.1
  case isFalse => exact Nat.one_pos

/- Transforms that share a tile start at a whole block each and fit together. -/
theorem batchGroupFits (shared : node.batchGroup ≠ 1) :
    node.batchLaneExtent < kTile ∧ node.batchLaneExtent % 4 = 0 ∧ node.batchGroup * node.batchLaneExtent ≤ kTile := by
  unfold batchGroup stockhamBatchGroup at shared ⊢
  split at shared
  case isTrue short =>
    rw [if_pos short]
    exact ⟨short.2.1, short.2.2, Nat.div_mul_le_self _ _⟩
  case isFalse => exact absurd rfl shared

theorem packedPositive (ok : node.Divides groups) : 0 < node.packedGroupsPerTile := by
  unfold packedGroupsPerTile
  split
  case isTrue short => exact Nat.div_pos (by omega) ok.span
  case isFalse => exact Nat.one_pos

/- Groups share a tile only where transforms do not. -/
theorem packedFits (packed : node.packedGroupsPerTile ≠ 1) :
    1 < node.span ∧ node.span < kTile ∧ node.batchGroup = 1 ∧ node.packedGroupsPerTile * node.span ≤ kTile := by
  unfold packedGroupsPerTile at packed ⊢
  split at packed
  case isTrue short =>
    rw [if_pos short]
    exact ⟨short.1, short.2.1, short.2.2, Nat.div_mul_le_self _ _⟩
  case isFalse => exact absurd rfl packed

theorem tilesPerGroupOne {span : ℕ} (some_ : 0 < span) (narrow : span ≤ kTile) : ceilDiv span kTile = 1 := by
  unfold ceilDiv kTile at *
  omega

theorem tilesPositive (ok : node.Divides groups) : 0 < node.tilesPerTransform := by
  have ndiv := ok.ndivPositive
  unfold tilesPerTransform
  split
  case isTrue => exact (ltCeilDiv (by decide)).mpr (by omega)
  case isFalse wide =>
    have some_ : 0 < node.tilesPerGroup := by
      unfold tilesPerGroup
      rw [if_neg wide]
      exact (ltCeilDiv (by decide)).mpr (by rw [Nat.zero_mul]; exact ok.span)
    refine Nat.mul_pos ((ltCeilDiv (packedPositive ok)).mpr ?_) some_
    rw [ok.groupsPerTransform wide, Nat.zero_mul]
    exact ok.some

end Shape

section Tiles
variable {node : StockhamStage} {groups batch tileId : ℕ} {tile : Tile}

/- A tile of `batch` transforms: where its butterflies are, and how its lanes are divided. -/
structure TileOk (node : StockhamStage) (batch : ℕ) (tile : Tile) : Prop where
  rows : tile.batchIndex + tile.groupedBatchCount ≤ batch
  group : tile.groupedBatchCount ≤ node.batchGroup
  whole : node.batchGroup ≠ 1 → tile.valid = node.batchLaneExtent
  short : tile.valid ≤ kTile
  butterflies : tile.kStart + tile.valid ≤ node.ndiv
  start : ∃ g, tile.kStart = g * node.span + tile.jStart
  first : node.span = 1 → tile.jStart = 0
  inGroup : node.span ≠ 1 → node.packedGroupsPerTile = 1 → tile.jStart + tile.valid ≤ node.span
  narrow : node.span ≠ 1 → node.span ≤ kTile → node.packedGroupsPerTile = 1 → tile.jStart = 0 ∧ tile.valid = node.span
  packed : node.packedGroupsPerTile ≠ 1 → tile.jStart = 0 ∧ tile.validPerGroup = node.span ∧
    tile.valid = tile.groupsInTile * node.span

theorem tileOk (ok : node.Divides groups) (inside : tileId < node.totalTiles batch) : node.TileOk batch (node.tile batch tileId) := by
  have tiles := tilesPositive ok
  have batchGroup := @batchGroupPositive node
  have ndiv := ok.ndiv
  have span := ok.span
  have index : tileId / node.tilesPerTransform < ceilDiv batch node.batchGroup := Nat.div_lt_of_lt_mul (by rwa [Nat.mul_comm])
  have row := (ltCeilDiv batchGroup).mp index
  have local_ : tileId % node.tilesPerTransform < node.tilesPerTransform := Nat.mod_lt _ tiles
  by_cases unit : node.span = 1
  · have small : tileId % node.tilesPerTransform < ceilDiv node.ndiv kTile := by
      rwa [show node.tilesPerTransform = ceilDiv node.ndiv kTile from if_pos unit] at local_ ⊢
    have inTransform := (ltCeilDiv (by decide)).mp small
    have extent : node.batchLaneExtent = node.ndiv := if_pos unit
    have packed : node.packedGroupsPerTile = 1 := if_neg (by omega)
    have position : node.tile batch tileId = ⟨_, _, _, _, _, _, _⟩ := if_pos unit
    rw [position]
    constructor
    case whole =>
      intro shared
      have fits := (batchGroupFits shared).1
      rw [extent] at fits ⊢
      dsimp only
      unfold kTile at *
      omega
    case start => exact ⟨_, by rw [unit, Nat.mul_one]; rfl⟩
    case first => exact fun _ => rfl
    case inGroup => exact fun wide => absurd unit wide
    case narrow => exact fun wide => absurd unit wide
    case packed => exact fun several => absurd packed several
    all_goals dsimp only
    all_goals omega
  · have wide : 1 < node.span := by omega
    have split : node.tilesPerTransform = ceilDiv groups node.packedGroupsPerTile * node.tilesPerGroup := by
      rw [tilesPerTransform, if_neg unit, ok.groupsPerTransform unit]
    have pieces : node.tilesPerGroup = ceilDiv node.span kTile := if_neg unit
    have some_ : 0 < node.tilesPerGroup := pieces ▸ (ltCeilDiv (by decide)).mpr (by omega)
    have packed := packedPositive ok
    have groupTile : tileId % node.tilesPerTransform / node.tilesPerGroup * node.packedGroupsPerTile < groups :=
      (ltCeilDiv packed).mp (Nat.div_lt_of_lt_mul (by rwa [Nat.mul_comm, ← split]))
    have piece : tileId % node.tilesPerTransform % node.tilesPerGroup * kTile < node.span :=
      (ltCeilDiv (by decide)).mp (pieces ▸ Nat.mod_lt _ some_)
    have position : node.tile batch tileId = ⟨_, _, _, _, _, _, _⟩ := if_neg unit
    rw [position, ok.groupsPerTransform unit]
    generalize tileId % node.tilesPerTransform / node.tilesPerGroup * node.packedGroupsPerTile = g at groupTile ⊢
    have start : node.span ≤ kTile → tileId % node.tilesPerTransform % node.tilesPerGroup * kTile = 0 := fun narrow => by
      rw [pieces, tilesPerGroupOne ok.span narrow, Nat.mod_one, Nat.zero_mul]
    generalize tileId % node.tilesPerTransform % node.tilesPerGroup * kTile = j at piece start ⊢
    have extent : node.batchLaneExtent = min node.span kTile := if_neg unit
    by_cases several : node.packedGroupsPerTile = 1
    · have last := Nat.mul_le_mul_right node.span (show g + 1 ≤ groups by omega)
      rw [Nat.succ_mul] at last
      rw [several]
      constructor
      case whole =>
        intro shared
        have fits := (batchGroupFits shared).1
        rw [extent] at fits
        have zero := start (by omega)
        simp only [lt_irrefl, if_false, extent, zero, Nat.sub_zero]
      case start => exact ⟨g, rfl⟩
      case first => exact fun unit' => absurd unit' unit
      case narrow =>
        intro _ narrow _
        simp only [lt_irrefl, if_false, start narrow, Nat.sub_zero, min_eq_left narrow, and_self]
      case packed => exact fun other => absurd several other
      all_goals simp only [lt_irrefl, if_false]
      all_goals omega
    · obtain ⟨_, narrow, alone, fits⟩ := packedFits several
      have zero := start narrow.le
      have taken := Nat.mul_le_mul_right node.span (min_le_right (groups - g) node.packedGroupsPerTile)
      have last := Nat.mul_le_mul_right node.span (show g + min (groups - g) node.packedGroupsPerTile ≤ groups by omega)
      rw [Nat.add_mul] at last
      have valid : min (node.span - j) kTile = node.span := by omega
      rw [if_pos (show 1 < node.packedGroupsPerTile by omega), valid, zero]
      constructor
      case whole => exact fun shared => absurd alone shared
      case start => exact ⟨g, rfl⟩
      case first => exact fun _ => rfl
      case narrow => exact fun _ _ single => absurd single several
      case packed => exact fun _ => ⟨rfl, rfl, rfl⟩
      all_goals dsimp only
      all_goals omega

/- The lane of every butterfly. -/
theorem tileCovers (ok : node.Divides groups) {row k : ℕ} (rowInside : row < batch) (inside : k < node.ndiv) :
    ∃ tileId < node.totalTiles batch, ∃ t < (node.tile batch tileId).groupedBatchCount, ∃ u < (node.tile batch tileId).valid,
      (node.tile batch tileId).batchIndex + t = row ∧ (node.tile batch tileId).kStart + u = k := by
  have batchGroup := @batchGroupPositive node
  have span := ok.span
  have rowSplit := Nat.div_add_mod' row node.batchGroup
  have rowLow := Nat.mod_lt row batchGroup
  have index : row / node.batchGroup < node.batchGroups batch := (ltCeilDiv batchGroup).mpr (by omega)
  by_cases unit : node.span = 1
  · have tiles : node.tilesPerTransform = ceilDiv node.ndiv kTile := if_pos unit
    have kSplit := Nat.div_add_mod' k kTile
    have kLow := Nat.mod_lt k (show 0 < kTile by decide)
    have small : k / kTile < node.tilesPerTransform := tiles ▸ (ltCeilDiv (by decide)).mpr (by omega)
    have position : node.tile batch (row / node.batchGroup * node.tilesPerTransform + k / kTile) = ⟨_, _, _, _, _, _, _⟩ := if_pos unit
    refine ⟨_, mulAddLt index small, ?_⟩
    rw [position, mulAddDiv small, mulAddMod small]
    exact ⟨row % node.batchGroup, lt_min (by omega) rowLow, k % kTile, lt_min (by omega) kLow, rowSplit, kSplit⟩
  · have packed := packedPositive ok
    have pieces : node.tilesPerGroup = ceilDiv node.span kTile := if_neg unit
    have kSplit := Nat.div_add_mod' k node.span
    have kLow := Nat.mod_lt k span
    have group : k / node.span < groups := Nat.div_lt_of_lt_mul (by rwa [Nat.mul_comm, ← ok.ndiv])
    have groupSplit := Nat.div_add_mod' (k / node.span) node.packedGroupsPerTile
    have groupLow := Nat.mod_lt (k / node.span) packed
    have pieceSplit := Nat.div_add_mod' (k % node.span) kTile
    have pieceLow := Nat.mod_lt (k % node.span) (show 0 < kTile by decide)
    have piece : k % node.span / kTile < node.tilesPerGroup := pieces ▸ (ltCeilDiv (by decide)).mpr (by omega)
    have small : k / node.span / node.packedGroupsPerTile * node.tilesPerGroup + k % node.span / kTile < node.tilesPerTransform := by
      rw [tilesPerTransform, if_neg unit, ok.groupsPerTransform unit]
      exact mulAddLt ((ltCeilDiv packed).mpr (by omega)) piece
    have position : node.tile batch (row / node.batchGroup * node.tilesPerTransform +
        (k / node.span / node.packedGroupsPerTile * node.tilesPerGroup + k % node.span / kTile)) = ⟨_, _, _, _, _, _, _⟩ := if_neg unit
    refine ⟨_, mulAddLt index small, ?_⟩
    rw [position, mulAddDiv small, mulAddMod small, mulAddDiv piece, mulAddMod piece, ok.groupsPerTransform unit]
    refine ⟨row % node.batchGroup, lt_min (by omega) rowLow, ?_⟩
    by_cases several : node.packedGroupsPerTile = 1
    · rw [several, Nat.mod_one] at groupSplit
      refine ⟨k % node.span % kTile, ?_, rowSplit, ?_⟩
      · simp only [several, lt_irrefl, if_false]
        omega
      · simp only [several]
        rw [Nat.div_one, Nat.mul_one]
        omega
    · obtain ⟨_, narrow, _, _⟩ := packedFits several
      have zero : k % node.span / kTile = 0 := Nat.div_eq_of_lt (by omega)
      refine ⟨k / node.span % node.packedGroupsPerTile * node.span + k % node.span, ?_, rowSplit, ?_⟩
      · simp only [zero, Nat.zero_mul, Nat.sub_zero, show 1 < node.packedGroupsPerTile by omega, if_true, min_eq_left narrow.le]
        exact mulAddLt (lt_min (by omega) groupLow) kLow
      · simp only [zero, Nat.zero_mul, Nat.add_zero]
        rw [← Nat.add_assoc, ← Nat.add_mul, groupSplit, kSplit]

end Tiles

section Views

def floatView (z : Memory ℂ) : Memory ℝ := fun a =>
  part ((z ⟨a.buffer, a.offset / 2⟩).re, (z ⟨a.buffer, a.offset / 2⟩).im) (a.offset % 2)

theorem floatViewAt (z : Memory ℂ) (p : Address) (o : ℕ) {index : ℕ} (binary : index < 2) :
    floatView z ((floatAddress p).at (2 * o + index)) = part ((z (p.at o)).re, (z (p.at o)).im) index := by
  have half : (2 * p.offset + (2 * o + index)) / 2 = p.offset + o := by omega
  have rest : (2 * p.offset + (2 * o + index)) % 2 = index := by omega
  simp only [floatView, floatAddress, Address.at, half, rest]

theorem complexFloat (z : Memory ℂ) : complexView (floatView z) = z := by
  funext a
  have half : (2 * a.offset + 1) / 2 = a.offset := by omega
  have rest : (2 * a.offset + 1) % 2 = 1 := by omega
  simp only [complexView, floatView, half, rest, Nat.mul_div_cancel_left _ (show 0 < 2 by decide), Nat.mul_mod_right]
  rfl

theorem floatComplex (m : Memory ℝ) : floatView (complexView m) = m := by
  funext a
  have split := Nat.div_add_mod a.offset 2
  simp only [floatView, complexView, part]
  split
  case isTrue even => rw [show 2 * (a.offset / 2) = a.offset by omega]
  case isFalse odd => rw [show 2 * (a.offset / 2) + 1 = a.offset by omega]

theorem complexViewAt (m : Memory ℝ) (p : Address) (o : ℕ) :
    complexView m (p.at o) = ⟨m ((floatAddress p).at (2 * o)), m ((floatAddress p).at (2 * o + 1))⟩ := by
  simp only [complexView, floatAddress, Address.at, Nat.mul_add, Nat.add_assoc]

end Views

section Generic
variable {node : StockhamStage} {groups block batch : ℕ} {direction : Direction} {input output : Address}

def kernel (node : StockhamStage) (block : ℕ) : StageKernel := ⟨node.length, node.radix, node.span, block⟩

/- The kernel of build_stockham_stage, in the form it has for the radix. -/
noncomputable def genericLaunch (node : StockhamStage) (direction : Direction) (input output : Address) (block batch : ℕ)
    (schedule : Schedule) : Memory ℂ → Memory ℂ :=
  if node.radix = 13 ∨ node.radix = 17 ∨ node.radix = 19 then
    pairedLaunch (node.kernel block) (stageTwiddle direction node.length) input output node.span batch schedule
  else
    stageLaunch (node.kernel block) (naturalOrderCodelet direction node.radix) (stageTwiddle direction node.length) input output
      node.span batch schedule

theorem genericScalar (ok : node.Divides groups) (some_ : 0 < block) (schedule : Schedule) :
    node.genericLaunch direction input output block batch schedule =
      stageLaunch (node.kernel block) (naturalOrderCodelet direction node.radix) (stageTwiddle direction node.length) input output
        node.span batch schedule := by
  unfold genericLaunch
  split
  case isFalse => rfl
  case isTrue vector =>
    have span : (node.kernel block).span node.span = node.span := if_neg ok.span.ne'
    have accepts : (node.kernel block).Accepts node.span := by
      refine ⟨?_, ?_, ?_, ?_, some_⟩
      · rcases vector with radix | radix | radix <;> simp only [kernel, radix]
      · exact ok.lengthPositive
      · exact span.symm ▸ ok.span
      · rw [span]
        exact ⟨groups, by simp only [kernel, ok.length]; ring⟩
    funext m
    exact pairedLaunchSame accepts schedule m

/- A transform whose second stage is this one. -/
def stageNode (ok : node.Divides groups) (some_ : 0 < block) : Stockham.Node where
  factors := [node.span, node.radix, groups]
  butterfliesPerBlock := [block, block, block]
  first := ⟨0, 0⟩
  second := ⟨1, 0⟩
  positive := by
    have radix := ok.radixLow
    simp only [List.prod_cons, List.prod_nil, Nat.mul_one]
    exact Nat.mul_pos ok.span (Nat.mul_pos (by omega) ok.some)
  blocksPositive := by simp only [List.mem_cons, List.not_mem_nil, or_false, or_self, forall_eq, some_]
  scratchApart := Nat.zero_ne_one

theorem stageNodeLength (ok : node.Divides groups) (some_ : 0 < block) : (stageNode ok some_).length = node.length := by
  simp only [Stockham.Node.length, stageNode, List.prod_cons, List.prod_nil, ok.length]
  ring

theorem stageNodeKernel (ok : node.Divides groups) (some_ : 0 < block) : (stageNode ok some_).kernel 1 = node.kernel block := by
  rw [Stockham.Node.kernel, stageNodeLength]
  simp [kernel, stageNode, radixAt, prefixProduct]

theorem stageNodeAt (ok : node.Divides groups) (some_ : 0 < block) :
    radixAt (stageNode ok some_).factors 1 = node.radix ∧ prefixProduct (stageNode ok some_).factors 1 = node.span ∧
      prefixProduct (stageNode ok some_).factors 2 = node.span * node.radix ∧
      suffixProduct (stageNode ok some_).factors 2 = groups := by
  simp [stageNode, radixAt, prefixProduct, suffixProduct]

theorem stageNodePosition (ok : node.Divides groups) (some_ : 0 < block) (k q : ℕ) :
    position (stageNode ok some_).factors 1 k q = stagePosition node.radix node.span k q := by
  obtain ⟨_, low, next, _⟩ := stageNodeAt ok some_
  rw [position, low, next, stagePosition]
  ring

theorem stageNodeTwiddle (ok : node.Divides groups) (some_ : 0 < block) :
    (stageNode ok some_).twiddle (directionRoot direction node.length) = stageTwiddle direction node.length := by
  funext i
  rw [Stockham.Node.twiddle, stageNodeLength, stageTwiddle]

theorem stageNodeButterfly (ok : node.Divides groups) (some_ : 0 < block) (v : ℕ → ℂ) (q : ℕ) :
    naturalOrderCodelet direction node.radix v q = dft (radixAt (stageNode ok some_).factors 1)
      (directionRoot direction node.length ^ ((stageNode ok some_).length / radixAt (stageNode ok some_).factors 1)) v q := by
  have divides : node.radix ∣ node.length := ⟨groups * node.span, by rw [ok.length]; ring⟩
  rw [(stageNodeAt ok some_).1, stageNodeLength, directionRootDivides divides ok.lengthPositive, codeletDft]

section Launch
variable (ok : node.Divides groups) (some_ : 0 < block) (apart : input.buffer ≠ output.buffer) (schedule : Schedule)
include ok some_ apart

theorem genericMap (scratch : Address → Prop) :
    RowMap (node.genericLaunch direction input output block batch schedule) scratch input output node.length node.length batch
      (stageRow [node.span, node.radix, groups] (directionRoot direction node.length) 1) := by
  have map := @stageLaunchRow ℂ _ (stageNode ok some_) 1 (directionRoot direction node.length)
    (naturalOrderCodelet direction node.radix) input output node.span batch (show 1 < 3 by decide) (blockPositive 1)
    (fun v q _ => stageNodeButterfly ok some_ v q) apart schedule scratch
  rw [stageNodeKernel, stageNodeLength, stageNodeTwiddle] at map
  rw [genericScalar ok some_]
  exact map

/- Output q of butterfly k of a row. -/
theorem genericAt (z : Memory ℂ) {row k q : ℕ} (hrow : row < batch) (hk : k < node.ndiv) (hq : q < node.radix) :
    node.genericLaunch direction input output block batch schedule z
        (output.at (row * node.length + stagePosition node.radix node.span k q)) =
      naturalOrderCodelet direction node.radix
        (stageLoad (node.kernel block) (stageTwiddle direction node.length) input node.span z row k (k % node.span)) q := by
  have inside : stagePosition node.radix node.span k q < node.length :=
    (stagePositionLt ok.span (ok.ndiv ▸ hk) hq).trans_eq ok.length.symm
  have value := @butterflyRow ℂ _ (stageNode ok some_) 1 (directionRoot direction node.length)
    (naturalOrderCodelet direction node.radix) input node.span (show 1 < 3 by decide)
    (fun v q _ => stageNodeButterfly ok some_ v q) z row k q ((stageNodeAt ok some_).1.symm ▸ hq)
  rw [stageNodeKernel, stageNodeTwiddle, (stageNodeAt ok some_).2.1, stageNodePosition, stageNodeLength] at value
  rw [value]
  exact (genericMap ok some_ apart schedule fun _ => False).writes z row hrow _ inside

theorem genericFrame (z : Memory ℂ) {a : Address} (outside : ∀ row < batch, ∀ k < node.ndiv, ∀ q < node.radix,
    a ≠ output.at (row * node.length + stagePosition node.radix node.span k q)) :
    node.genericLaunch direction input output block batch schedule z a = z a := by
  refine (genericMap ok some_ apart schedule fun _ => False).frame z a not_false fun row hrow o inside same => ?_
  have digit : positionDigit node.radix node.span o < node.radix := Nat.mod_lt _ (by have := ok.radixLow; omega)
  refine outside row hrow (positionButterfly node.radix node.span o) ?_ _ digit ?_
  · rw [ok.ndiv]
    exact positionButterflyLt ok.span (inside.trans_eq ok.length)
  · rw [positionOfButterfly o ok.span]
    exact same

end Launch

end Generic

section Lanes
variable {node : StockhamStage} {groups block batch : ℕ} {direction : Direction} {input output : Address} {tile : Tile}

/- The lanes of different transforms do not meet, nor does what fills up their last block. -/
theorem loadTileAt {S : Type*} [CommRing S] {pad : S} {source : ℕ → ℕ → S} (ok : node.TileOk batch tile) {t i : ℕ}
    (ht : t < tile.groupedBatchCount) (hi : i < 2 * tile.valid) :
    node.loadTile pad tile source (2 * (t * node.batchLaneExtent) + i) = source t i := by
  have sets (local_ : ℕ → S) :
      (if tile.valid = kTile ∧ node.batchGroup = 1 then
          copy (2 * (t * node.batchLaneExtent) + ·) (2 * kTile) (source t) local_
        else copyPadIn pad 1 (tile.valid * complexBytes) 0 0 (source t) (2 * (t * node.batchLaneExtent)) local_)
      (2 * (t * node.batchLaneExtent) + i) = source t i := by
    split
    case isTrue full => exact copyThere (add_right_injective _) (by omega)
    case isFalse =>
      have floats : tile.valid * complexBytes / floatBytes = 2 * tile.valid := by
        unfold complexBytes floatBytes
        omega
      rw [copyPadInOne, copyThere (add_right_injective _) ((floats ▸ hi).trans_le (bytesPadded _)), if_pos (floats ▸ hi)]
  unfold loadTile
  refine foldlSettles (Q := fun local_ : ℕ → S => local_ (2 * (t * node.batchLaneExtent) + i) = source t i)
    (List.mem_range.mpr ht) ?_ ?_ _
  · exact sets
  intro t' inside local_ here
  by_cases same : t' = t
  · exact same ▸ sets local_
  · have shared : node.batchGroup ≠ 1 := by
      have := ok.group
      have := List.mem_range.mp inside
      omega
    obtain ⟨narrow, whole, _⟩ := batchGroupFits shared
    have valid := ok.whole shared
    have padded : paddedFloats (tile.valid * complexBytes) = 2 * node.batchLaneExtent := by
      unfold paddedFloats ceilDiv complexBytes blockBytes floatBytes
      omega
    rw [if_neg (by omega), copyPadInOne, copyUntouched, here]
    intro j small meets
    rw [padded] at small
    exact same (@mulAddInj t' t (j / 2) (i / 2) node.batchLaneExtent (by omega) (by omega) (by omega)).1

theorem laneSmall (ok : node.TileOk batch tile) {t u : ℕ} (ht : t < tile.groupedBatchCount) (hu : u < tile.valid) :
    t * node.batchLaneExtent + u < kTile := by
  have group := ok.group
  by_cases shared : node.batchGroup = 1
  · have short := ok.short
    rw [show t = 0 by omega]
    omega
  · obtain ⟨_, _, fits⟩ := batchGroupFits shared
    have valid := ok.whole shared
    exact (mulAddLt (by omega) (by omega)).trans_le fits

/- The parts of a lane. -/
theorem loadedParts {S : Type*} [CommRing S] {pad : S} {source : ℕ → ℕ → S} (ok : node.TileOk batch tile) {t u : ℕ}
    (ht : t < tile.groupedBatchCount) (hu : u < tile.valid) :
    gather (node.loadTile pad tile source) aivIndices 0 (t * node.batchLaneExtent + u) = source t (2 * u) ∧
      gather (node.loadTile pad tile source) (fun lane => aivIndices (kTile + lane)) 0 (t * node.batchLaneExtent + u) =
        source t (2 * u + 1) := by
  have lane := laneSmall ok ht hu
  rw [gatherReal lane, gatherImag lane, Nat.mul_add, Nat.add_assoc]
  exact ⟨loadTileAt ok ht (by omega), loadTileAt ok ht (by omega)⟩

theorem TileOk.phase (ok : node.TileOk batch tile) (u : ℕ) : (tile.jStart + u) % node.span = (tile.kStart + u) % node.span := by
  obtain ⟨g, start⟩ := ok.start
  rw [start, Nat.add_assoc, Nat.mul_add_mod']

theorem TileOk.twiddleRow (ok : node.TileOk batch tile) (wide : node.span ≠ 1) {u : ℕ} (hu : u < tile.valid) :
    tile.jStart + u < node.twiddleStride := by
  have short := ok.short
  unfold twiddleStride
  by_cases single : node.packedGroupsPerTile = 1
  · have inGroup := ok.inGroup wide single
    rw [single, if_neg (lt_irrefl _)]
    omega
  · have start := (ok.packed single).1
    split
    case isTrue => omega
    case isFalse none_ =>
      obtain ⟨_, narrow, alone, _⟩ := packedFits single
      have zero : node.packedGroupsPerTile = 0 := by omega
      unfold packedGroupsPerTile at zero
      rw [if_pos (by omega)] at zero
      have some_ := Nat.div_pos narrow.le (show 0 < node.span by omega)
      omega

theorem stageTwiddleAt (divides : node.Divides groups) {digit j : ℕ} (hd : digit < node.radix) (hj : j < node.span) :
    stageTwiddle direction node.length (digit * j * (node.length / (node.radix * node.span))) =
      directionRoot direction (node.radix * node.span) ^ (digit * j) := by
  have whole : node.length = groups * (node.radix * node.span) := by rw [divides.length, Nat.mul_assoc]
  have period : 0 < node.radix * node.span := Nat.mul_pos (by have := divides.radixLow; omega) divides.span
  have step : node.length / (node.radix * node.span) = groups := by rw [whole, Nat.mul_div_cancel _ period]
  have inside : digit * j * groups < node.length := by
    rw [whole, Nat.mul_comm groups]
    exact Nat.mul_lt_mul_of_pos_right (Nat.mul_lt_mul'' hd hj) divides.some
  have divisor : node.radix * node.span ∣ node.length := ⟨groups, by rw [whole, Nat.mul_comm]⟩
  have root := @directionRootDivides direction _ _ divisor divides.lengthPositive
  rw [step] at root ⊢
  rw [stageTwiddle, if_pos inside, Nat.mul_comm, pow_mul, root]

/- A lane holds the digit of the butterfly it works on. -/
theorem loadDigitAt (divides : node.Divides groups) (ok : node.TileOk batch tile) (pad : ℝ) (m : Memory ℝ) {t u digit : ℕ}
    (ht : t < tile.groupedBatchCount) (hu : u < tile.valid) (hd : digit < node.radix) :
    let parts := node.loadDigit (node.buildTables direction) pad (floatAddress input) tile m digit
    (⟨parts.1 (t * node.batchLaneExtent + u), parts.2 (t * node.batchLaneExtent + u)⟩ : ℂ) =
      stageLoad (node.kernel block) (stageTwiddle direction node.length) input node.span (complexView m) (tile.batchIndex + t)
        (tile.kStart + u) ((tile.kStart + u) % node.span) digit := by
  have source : complexView m (input.at ((tile.batchIndex + t) * node.length + (tile.kStart + u) + digit * node.ndiv)) =
      ⟨m ((floatAddress input).at (2 * ((tile.batchIndex + t) * node.length + tile.kStart + digit * node.ndiv) + 2 * u)),
        m ((floatAddress input).at (2 * ((tile.batchIndex + t) * node.length + tile.kStart + digit * node.ndiv) + (2 * u + 1)))⟩ := by
    rw [complexViewAt]
    congr 3 <;> ring
  have value := @loadedParts node batch tile ℝ _ pad (fun transform i => m ((floatAddress input).at
    (2 * ((tile.batchIndex + transform) * node.length + tile.kStart + digit * node.ndiv) + i))) ok t u ht hu
  have unitSpan : (digit = 0 ∨ (node.kernel block).stageSpan = 1) ↔ ¬(0 < digit ∧ 1 < node.span) := by
    have := divides.span
    change digit = 0 ∨ node.span = 1 ↔ _
    omega
  have span : (node.kernel block).span node.span = node.span := if_neg divides.span.ne'
  intro parts
  simp only [parts, loadDigit, stageLoad, unitSpan, span]
  change _ = if _ then complexView m (input.at ((tile.batchIndex + t) * node.length + (tile.kStart + u) + digit * node.ndiv)) else
    complexView m (input.at ((tile.batchIndex + t) * node.length + (tile.kStart + u) + digit * node.ndiv)) *
      stageTwiddle direction node.length (digit * ((tile.kStart + u) % node.span) * (node.length / (node.radix * node.span)))
  rw [source, stageTwiddleAt divides hd (Nat.mod_lt _ divides.span)]
  split
  case isTrue twiddled =>
    have row := @stageTwiddlesAt node direction digit (tile.jStart + u) hd (ok.twiddleRow (by omega) hu)
    have factor := @loadedParts node batch tile ℝ _ pad (fun _ i =>
      node.stageTwiddles direction (2 * (digit * node.twiddleStride + tile.jStart) + i)) ok t u ht hu
    have offset : 2 * (digit * node.twiddleStride + tile.jStart) + 2 * u = 2 * (digit * node.twiddleStride + (tile.jStart + u)) := by
      ring
    rw [← Nat.add_assoc, offset] at factor
    simp only [buildTables, value.1, value.2, factor.1, factor.2]
    rw [← ok.phase, ← row]
    apply Complex.ext <;> simp only [Complex.mul_re, Complex.mul_im]
  case isFalse plain =>
    simp only [buildTables, value.1, value.2]

theorem addDigitAt (divides : node.Divides groups) (digits : ℕ → (ℕ → ℝ) × (ℕ → ℝ)) (acc : ℝ × ℝ) {q lane digit : ℕ}
    (hq : q < node.radix) (hd : digit < node.radix) :
    let next := node.addDigit (node.buildTables direction) digits q lane acc digit
    (⟨next.1, next.2⟩ : ℂ) =
      ⟨acc.1, acc.2⟩ + ⟨(digits digit).1 lane, (digits digit).2 lane⟩ * directionRoot direction node.radix ^ (digit * q) := by
  intro next
  have narrow := divides.radixHigh
  by_cases zero : digit = 0
  · simp only [next, addDigit, if_pos zero]
    rw [zero, Nat.zero_mul, pow_zero, mul_one]
    rfl
  · have roots := @rootsAt node direction q digit hq hd narrow
    simp only [next, addDigit, if_neg zero, buildTables, gatherRoot (hq.trans_le narrow)]
    rw [Nat.mul_comm digit, ← roots]
    apply Complex.ext <;> simp only [Complex.add_re, Complex.add_im, Complex.mul_re, Complex.mul_im]

theorem accumulateAt (divides : node.Divides groups) (digits : ℕ → (ℕ → ℝ) × (ℕ → ℝ)) {q lane : ℕ} (hq : q < node.radix) :
    let acc := node.accumulate (node.buildTables direction) digits q lane
    (⟨acc.1, acc.2⟩ : ℂ) =
      naturalOrderCodelet direction node.radix (fun digit => ⟨(digits digit).1 lane, (digits digit).2 lane⟩) q := by
  have run : ∀ count ≤ node.radix,
      let acc := (List.range count).foldl (node.addDigit (node.buildTables direction) digits q lane) (0, 0)
      (⟨acc.1, acc.2⟩ : ℂ) = ∑ digit ∈ Finset.range count,
        (⟨(digits digit).1 lane, (digits digit).2 lane⟩ : ℂ) * directionRoot direction node.radix ^ (digit * q) := by
    intro count
    induction count with
    | zero => exact fun _ => rfl
    | succ count ih =>
      intro inside
      rw [List.range_succ, List.foldl_append, Finset.sum_range_succ, ← ih (by omega)]
      exact addDigitAt divides digits _ hq inside
  rw [codeletDft]
  exact run node.radix le_rfl

/- An accumulator of local memory. -/
theorem qAccAt {S : Type*} [CommRing S] {tables : Tables S} {digits : ℕ → (ℕ → S) × (ℕ → S)} {q lane index : ℕ}
    (hq : q < node.radix) (hl : lane < kTile) :
    node.qAcc tables digits (index * (node.radix * kTile) + (q * kTile + lane)) = part (node.accumulate tables digits q lane) index := by
  have inside := mulAddLt hq hl
  have low : (index * (node.radix * kTile) + (q * kTile + lane)) % kTile = lane := by
    rw [← Nat.mul_assoc, ← Nat.add_assoc, ← Nat.add_mul, mulAddMod hl]
  unfold qAcc
  rw [mulAddDiv inside, mulAddMod inside, low, mulAddDiv hl]

end Lanes

end FlagFft.Npu.StockhamStage
