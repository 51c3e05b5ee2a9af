import FlagFft.Batch
import FlagFft.Library.Filling

/-! Kernels that only move elements. Each lane loads an element behind one mask and stores it behind another; what a
launch leaves follows from which element each of its lanes moves where. -/
namespace FlagFft.Layout
open Library.Indexing Library.Stores Library.Filling

/- How a kernel reaches an element: its two scalars in turn, both by one instruction, or as a word of 64 bits. -/
inductive Access
  | scalars
  | pair
  | word
  deriving DecidableEq, Repr

/- Address units of an element. -/
def Access.scalarWidth : Access → ℕ
  | .scalars => 2
  | .pair => 2
  | .word => 1

/- Scalars of an address unit. -/
def Access.unitScalars : Access → ℕ
  | .scalars => 1
  | .pair => 1
  | .word => 2

theorem Access.elementScalars (access : Access) : access.scalarWidth * access.unitScalars = 2 := by
  cases access <;> rfl

/- Places are counted in address units. -/
structure Lane where
  loadMask : Bool
  source : ℕ
  storeMask : Bool
  target : ℕ
  deriving DecidableEq, Repr

/- What one program does: the lanes of each pass of its loop. -/
abbrev Passes := List (List Lane)

/- A generated kernel, by the number of blocks it is told of and its three program ids. -/
structure TransposeKernel where
  access : Access
  gridXOverride : ℕ
  passes : ℕ → ℕ → ℕ → ℕ → Passes

section Stores
variable {S : Type*} (zero : S) (input output : Address)

/- One scalar of the element of a lane. -/
def Access.part (access : Access) (m : Memory S) (index : ℕ) (lane : Lane) : List (Store Address S) :=
  if lane.storeMask then
    [⟨output.at (lane.target * access.unitScalars + index),
      if lane.loadMask then m (input.at (lane.source * access.unitScalars + index)) else zero⟩]
  else []

def Access.stores (access : Access) (lanes : List Lane) (m : Memory S) : List (Store Address S) :=
  match access with
  | .scalars => lanes.flatMap (access.part zero input output m 0) ++ lanes.flatMap (access.part zero input output m 1)
  | _ => lanes.flatMap fun lane => access.part zero input output m 0 lane ++ access.part zero input output m 1 lane

/- Programs run in any order; a pass loads what the passes before it have left. -/
def TransposeKernel.launch (kernel : TransposeKernel) (schedule : Schedule) (gridX gridY gridZ nbatch : ℕ) (m : Memory S) :
    Memory S :=
  (schedule.order (gridX * gridY * gridZ)).foldl (fun m program =>
    runStores (kernel.access.stores zero input output)
      (kernel.passes nbatch (program % gridX) (program / gridX % gridY) (program / gridX / gridY)) m) m

end Stores

/- Scalar `k` of a block whose element `o` is element `source o` of the block read. -/
def scalarRow {S : Type*} (source : ℕ → ℕ) (x : ℕ → S) (k : ℕ) : S := x (2 * source (k / 2) + k % 2)

/- The lanes of a launch on `count` blocks move elements to where they belong, and every element is moved. -/
structure TransposeKernel.Moves (kernel : TransposeKernel) (size : ℕ) (source : ℕ → ℕ) (gridX gridY count : ℕ) : Prop where
  right : ∀ x < gridX, ∀ y < gridY, ∀ z < count, ∀ lanes ∈ kernel.passes count x y z, ∀ lane ∈ lanes, lane.storeMask = true →
    lane.loadMask = true ∧ ∃ o < size, lane.target = (z * size + o) * kernel.access.scalarWidth ∧
      lane.source = (z * size + source o) * kernel.access.scalarWidth
  all : ∀ z < count, ∀ o < size, ∃ x < gridX, ∃ y < gridY, ∃ lanes ∈ kernel.passes count x y z, ∃ lane ∈ lanes,
    lane.storeMask = true ∧ lane.target = (z * size + o) * kernel.access.scalarWidth

section Lanes
variable {S : Type*} {zero : S} {input output : Address} {access : Access} {lanes : List Lane} {m : Memory S}

theorem memPart {index : ℕ} {lane : Lane} {s : Store Address S} :
    s ∈ access.part zero input output m index lane ↔ lane.storeMask = true ∧
      s = ⟨output.at (lane.target * access.unitScalars + index),
        if lane.loadMask then m (input.at (lane.source * access.unitScalars + index)) else zero⟩ := by
  unfold Access.part
  cases lane.storeMask <;> simp

theorem memStores {s : Store Address S} :
    s ∈ access.stores zero input output lanes m ↔
      ∃ lane ∈ lanes, ∃ index < 2, s ∈ access.part zero input output m index lane := by
  have two : ∀ P : ℕ → Prop, (∃ index < 2, P index) ↔ P 0 ∨ P 1 := fun P => by
    constructor
    · rintro ⟨index, small, here⟩
      obtain rfl | rfl : index = 0 ∨ index = 1 := by omega
      · exact .inl here
      · exact .inr here
    · rintro (here | here)
      · exact ⟨0, by decide, here⟩
      · exact ⟨1, by decide, here⟩
  cases access with
  | scalars => simp only [Access.stores, List.mem_append, List.mem_flatMap, two, and_or_left, exists_or]
  | pair => simp only [Access.stores, List.mem_append, List.mem_flatMap, two]
  | word => simp only [Access.stores, List.mem_append, List.mem_flatMap, two]

end Lanes

section Row
variable {S : Type*} {size : ℕ} {source : ℕ → ℕ}

theorem scalarRowAt (x : ℕ → S) (o : ℕ) {index : ℕ} (binary : index < 2) :
    scalarRow source x (2 * o + index) = x (2 * source o + index) := by
  unfold scalarRow
  rw [show (2 * o + index) / 2 = o by omega, show (2 * o + index) % 2 = index by omega]

theorem scalarRowLocal (inside : ∀ o < size, source o < size) :
    RowLocal (2 * size) (2 * size) (scalarRow (S := S) source) := by
  intro x y same k small
  have element := inside (k / 2) (Nat.div_lt_of_lt_mul small)
  exact same _ (by omega)

end Row

/- The input is what it was. -/
def InputKept {S : Type*} (input : Address) (m m' : Memory S) : Prop := ∀ i, m' (input.at i) = m (input.at i)

section Launch
variable {S : Type*} {zero : S} {input output : Address} {kernel : TransposeKernel} {size gridX gridY count x y z : ℕ}
  {source : ℕ → ℕ} {m m' : Memory S} {lanes : List Lane}

/- Where the lanes of a pass store. -/
def PassRegion (access : Access) (output : Address) (lanes : List Lane) (a : Address) : Prop :=
  ∃ lane ∈ lanes, lane.storeMask = true ∧ ∃ index < 2, output.at (lane.target * access.unitScalars + index) = a

def wanted (size : ℕ) (source : ℕ → ℕ) (input output : Address) (count : ℕ) (m : Memory S) : Memory S :=
  idealRows (2 * size) (2 * size) (scalarRow source) input output count m

theorem wantedMap : RowMap (wanted size source input output count (S := S)) (fun _ => False) input output (2 * size)
    (2 * size) count (scalarRow source) := idealRowsMap

/- A scalar of an element, in address units and in scalars. -/
theorem unitPlace (access : Access) (element index : ℕ) :
    element * access.scalarWidth * access.unitScalars + index = 2 * element + index := by
  rw [Nat.mul_assoc, access.elementScalars, Nat.mul_comm]

theorem wantedAt (block : z < count) {o index : ℕ} (inside : o < size) (binary : index < 2) :
    wanted size source input output count m (output.at (2 * (z * size + o) + index)) =
      m (input.at (2 * (z * size + source o) + index)) := by
  have place : ∀ e, 2 * (z * size + e) + index = z * (2 * size) + (2 * e + index) := fun e => by ring
  rw [place, place]
  exact (wantedMap.writes m z block _ (by omega)).trans (scalarRowAt _ o binary)

/- Every store of a launch carries what its place is to hold. -/
theorem storesWanted (zero : S) (ok : kernel.Moves size source gridX gridY count) (hx : x < gridX) (hy : y < gridY) (hz : z < count)
    (pass : lanes ∈ kernel.passes count x y z) (kept : InputKept input m m') :
    ∀ s ∈ kernel.access.stores zero input output lanes m', s.value = wanted size source input output count m s.address := by
  intro s stored
  obtain ⟨lane, member, index, binary, here⟩ := memStores.mp stored
  obtain ⟨active, rfl⟩ := memPart.mp here
  obtain ⟨loaded, o, inside, target, from_⟩ := ok.right x hx y hy z hz lanes pass lane member active
  rw [if_pos loaded, target, from_, unitPlace, unitPlace]
  exact (kept _).trans (wantedAt hz inside binary).symm

theorem passFills (ok : kernel.Moves size source gridX gridY count) (apart : input.buffer ≠ output.buffer) (hx : x < gridX)
    (hy : y < gridY) (hz : z < count) (pass : lanes ∈ kernel.passes count x y z) :
    Fills id (InputKept input m) (wanted size source input output count m) m (PassRegion kernel.access output lanes)
      (fun m => commitAll m (kernel.access.stores zero input output lanes m)) := by
  intro m' done kept filled
  constructor
  · intro i
    refine (commitAllUntouched fun s stored => ?_).trans (kept i)
    obtain ⟨lane, _, index, _, here⟩ := memStores.mp stored
    obtain ⟨_, rfl⟩ := memPart.mp here
    exact (Address.atApart apart _ _).symm
  · refine (filled.commitAll (storesWanted zero ok hx hy hz pass kept)).congr fun a => or_congr_right ?_
    simp only [memStores, memPart, PassRegion]
    constructor
    · rintro ⟨s, ⟨lane, member, index, binary, active, rfl⟩, rfl⟩
      exact ⟨lane, member, active, index, binary, rfl⟩
    · rintro ⟨lane, member, active, index, binary, rfl⟩
      exact ⟨_, ⟨lane, member, index, binary, active, rfl⟩, rfl⟩

/- The ids of a program of the grid, and the program of three ids. -/
theorem programIds {gridZ program : ℕ} (inside : program < gridX * gridY * gridZ) :
    program % gridX < gridX ∧ program / gridX % gridY < gridY ∧ program / gridX / gridY < gridZ := by
  have grid : 0 < gridX * gridY := Nat.pos_of_mul_pos_right (Nat.zero_lt_of_lt inside)
  have positiveX : 0 < gridX := Nat.pos_of_mul_pos_right grid
  have positiveY : 0 < gridY := Nat.pos_of_mul_pos_left grid
  refine ⟨Nat.mod_lt _ positiveX, Nat.mod_lt _ positiveY, ?_⟩
  rw [Nat.div_div_eq_div_mul]
  exact Nat.div_lt_of_lt_mul inside

theorem programOf {gridZ : ℕ} (hx : x < gridX) (hy : y < gridY) (hz : z < gridZ) :
    ∃ program < gridX * gridY * gridZ, program % gridX = x ∧ program / gridX % gridY = y ∧ program / gridX / gridY = z := by
  refine ⟨cube gridY gridX z y x, (cubeLt hz hy hx).trans_eq (by ring), cubeMod hx, ?_, ?_⟩
  · rw [cubeDiv hx, mulAddMod hy]
  · rw [cubeDiv hx, mulAddDiv hy]

/- The lanes of a launch reach the blocks of the result and nothing else. -/
theorem lanesCover (ok : kernel.Moves size source gridX gridY count) (schedule : Schedule) (a : Address) :
    (∃ program ∈ schedule.order (gridX * gridY * count), ∃ lanes ∈ kernel.passes count (program % gridX)
        (program / gridX % gridY) (program / gridX / gridY), PassRegion kernel.access output lanes a) ↔
      ∃ b < count, ∃ k < 2 * size, output.row (2 * size) b k = a := by
  constructor
  · rintro ⟨program, member, lanes, pass, lane, inside, active, index, binary, rfl⟩
    obtain ⟨hx, hy, hz⟩ := programIds (schedule.mem.mp member)
    obtain ⟨_, o, small, target, _⟩ := ok.right _ hx _ hy _ hz lanes pass lane inside active
    refine ⟨program / gridX / gridY, hz, 2 * o + index, by omega, ?_⟩
    rw [target, unitPlace, Address.row]
    congr 1
    ring
  · rintro ⟨b, hb, k, hk, rfl⟩
    obtain ⟨x, hx, y, hy, lanes, pass, lane, inside, active, target⟩ := ok.all b hb (k / 2) (Nat.div_lt_of_lt_mul hk)
    obtain ⟨program, member, rfl, rfl, rfl⟩ := programOf hx hy hb
    refine ⟨program, schedule.mem.mpr member, lanes, pass, lane, inside, active, k % 2, Nat.mod_lt k (by decide), ?_⟩
    rw [target, unitPlace, Address.row]
    congr 1
    calc 2 * (program / gridX / gridY * size + k / 2) + k % 2
        = program / gridX / gridY * (2 * size) + (2 * (k / 2) + k % 2) := by ring
      _ = _ := by rw [Nat.div_add_mod]

theorem launchMap (ok : kernel.Moves size source gridX gridY count) (apart : input.buffer ≠ output.buffer)
    (schedule : Schedule) : RowMap (kernel.launch zero input output schedule gridX gridY count count) (fun _ => False) input
      output (2 * size) (2 * size) count (scalarRow source) := by
  have same : ∀ m, kernel.launch zero input output schedule gridX gridY count count m =
      wanted size source input output count m := by
    intro m
    have fills : Fills id (InputKept input m) (wanted size source input output count m) m
        (fun a => ∃ program ∈ schedule.order (gridX * gridY * count), ∃ lanes ∈ kernel.passes count (program % gridX)
          (program / gridX % gridY) (program / gridX / gridY), PassRegion kernel.access output lanes a)
        (kernel.launch zero input output schedule gridX gridY count count) := by
      refine Fills.loop fun program member => Fills.loop fun lanes pass => ?_
      obtain ⟨hx, hy, hz⟩ := programIds (schedule.mem.mp member)
      exact passFills ok apart hx hy hz pass
    refine ((fills.run (s := m) (fun _ => rfl) rfl).congr (lanesCover ok schedule)).unique ⟨fun _ _ => rfl, ?_⟩
    intro a outside
    exact wantedMap.frame m a not_false fun b hb k hk here => outside ⟨b, hb, k, hk, here.symm⟩
  rw [show kernel.launch zero input output schedule gridX gridY count count = _ from funext same]
  exact wantedMap

end Launch

/- Every store of a launch, whenever it is made, carries what its place holds in the end. -/
def TransposeKernel.StoresLast {S : Type*} (kernel : TransposeKernel) (zero : S) (input output : Address)
    (gridX gridY count : ℕ) (now last : Memory S) : Prop :=
  ∀ x < gridX, ∀ y < gridY, ∀ z < count, ∀ lanes ∈ kernel.passes count x y z,
    ∀ s ∈ kernel.access.stores zero input output lanes now, s.value = last s.address

/- So it is of the launches on some of the blocks, when what they leave together is right. -/
theorem storesLast {S : Type*} (zero : S) {kernel : TransposeKernel} {size gridX gridY batch count : ℕ} {source : ℕ → ℕ}
    {input output : Address} {op : Memory S → Memory S} {m now : Memory S}
    (ok : kernel.Moves size source gridX gridY count)
    (map : RowMap op (fun _ => False) input output (2 * size) (2 * size) batch (scalarRow source)) (kept : InputKept input m now)
    (offset : ℕ) (fits : offset + count ≤ batch) :
    kernel.StoresLast zero (input.at (offset * (2 * size))) (output.at (offset * (2 * size))) gridX gridY count now (op m) := by
  intro x hx y hy z hz lanes pass s stored
  obtain ⟨lane, member, index, binary, here⟩ := memStores.mp stored
  obtain ⟨active, rfl⟩ := memPart.mp here
  obtain ⟨loaded, o, inside, target, from_⟩ := ok.right x hx y hy z hz lanes pass lane member active
  have place : ∀ (p : Address) e, (p.at (offset * (2 * size))).at (2 * (z * size + e) + index) =
      p.row (2 * size) (offset + z) (2 * e + index) := by
    intro p e
    rw [Address.atAt, Address.row]
    congr 1
    ring
  have block : offset + z < batch := (Nat.add_lt_add_left hz offset).trans_le fits
  rw [if_pos loaded, target, from_, unitPlace, unitPlace, place, place]
  exact (kept _).trans ((map.writes m _ block _ (by omega)).trans (scalarRowAt _ o binary)).symm

end FlagFft.Layout
