import FlagFft.Exec.Nodes

/-! The launches of a kernel over the rows of a batch: the rows cut into launches, the rows of a launch spread over a
grid, and when such a grid is legal. -/
namespace FlagFft.Exec
open Codegen (Backend)

structure Grid where
  x : ℕ
  y : ℕ
  z : ℕ
  deriving DecidableEq, Repr

structure Grid.Legal (grid : Grid) (backend : Backend) : Prop where
  x : grid.x ≤ maxLaunchBlocks backend
  y : grid.y ≤ kMaxGridY
  z : grid.z ≤ kMaxGridY

/- How the rows of a launch become blocks: along x in units of which `work` make a row, along y or z, or over at most
`cap` blocks that walk over all tiles. `allRows` starts one block a row though a block takes several. -/
inductive Spread where
  | alongX (work : ℕ) (perBlock : ℕ+) (y : ℕ)
  | alongY (x : ℕ) (perBlock : ℕ+)
  | allRows (x : ℕ) (perBlock : ℕ+)
  | alongZ (x y : ℕ)
  | gridStride (tiles : ℕ → ℕ) (cap : ℕ)

def Spread.grid (spread : Spread) (count : ℕ) : Grid :=
  match spread with
  | .alongX work perBlock y => ⟨ceilDiv (count * work) perBlock, y, 1⟩
  | .alongY x perBlock => ⟨x, ceilDiv count perBlock, 1⟩
  | .allRows x _ => ⟨x, count, 1⟩
  | .alongZ x y => ⟨x, y, count⟩
  | .gridStride tiles cap => ⟨min (tiles count) cap, 1, 1⟩

/- The units of work of a launch, the blocks they go to, and the block that takes a unit. -/
def Spread.units (spread : Spread) (count : ℕ) : ℕ :=
  match spread with
  | .alongX work _ _ => count * work
  | .gridStride tiles _ => tiles count
  | _ => count

def Spread.blocks (spread : Spread) (count : ℕ) : ℕ :=
  match spread with
  | .alongX _ _ _ | .gridStride _ _ => (spread.grid count).x
  | .alongY _ _ | .allRows _ _ => (spread.grid count).y
  | .alongZ _ _ => (spread.grid count).z

def Spread.owner (spread : Spread) (count unit : ℕ) : ℕ :=
  match spread with
  | .alongX _ perBlock _ | .alongY _ perBlock | .allRows _ perBlock => unit / perBlock
  | .alongZ _ _ => unit
  | .gridStride _ _ => unit % spread.blocks count

/- A buffer whose pointer moves with the launches: entries a row for the pointer, and for the kernel. -/
structure Side where
  step : ℕ
  stride : ℕ

def Side.rows (stride : ℕ) : Side := ⟨stride, stride⟩

/- All launches of one kernel in one execution of its node. -/
structure Pass where
  rows : ℕ
  chunk : Option ℕ := none
  spread : Spread
  sides : List Side := []

/- Where a launch starts and how many rows it takes. -/
def Pass.pieces (pass : Pass) : List (ℕ × ℕ) :=
  match pass.chunk with
  | none => [(0, pass.rows)]
  | some chunk => batchChunks pass.rows chunk

def Pass.Legal (pass : Pass) (backend : Backend) : Prop :=
  ∀ piece ∈ pass.pieces, (pass.spread.grid piece.2).Legal backend

/- The launches take every row once, the blocks of a launch every unit of its rows, and every buffer is entered at
the row the launch starts with. -/
structure Pass.Covers (pass : Pass) : Prop where
  rows : (pass.pieces.flatMap fun piece => List.range' piece.1 piece.2) = List.range pass.rows
  blocks : ∀ piece ∈ pass.pieces, ∀ unit < pass.spread.units piece.2,
    pass.spread.owner piece.2 unit < pass.spread.blocks piece.2
  sides : ∀ side ∈ pass.sides, ∀ piece ∈ pass.pieces, ∀ row < piece.2,
    piece.1 * side.step + row * side.stride = (piece.1 + row) * side.stride

section Chunks
variable {batch chunk : ℕ}

theorem memChunks {piece : ℕ × ℕ} : piece ∈ batchChunks batch chunk ↔
    ∃ i < ceilDiv batch chunk, piece = (i * chunk, min chunk (batch - i * chunk)) := by
  simp only [batchChunks, List.mem_map, List.mem_range, eq_comm]

theorem chunkBounds (positive : 0 < chunk) {piece : ℕ × ℕ} (inside : piece ∈ batchChunks batch chunk) :
    0 < piece.2 ∧ piece.2 ≤ chunk ∧ piece.1 + piece.2 ≤ batch := by
  obtain ⟨i, small, rfl⟩ := memChunks.mp inside
  have start := (ltCeilDiv positive).mp small
  have fits := chunkFits small
  exact ⟨lt_min positive (by omega), min_le_left _ _, fits⟩

theorem firstChunk (positive : 0 < chunk) (some_ : 0 < batch) : (0, min chunk batch) ∈ batchChunks batch chunk := by
  refine memChunks.mpr ⟨0, (ltCeilDiv positive).mpr (by omega), ?_⟩
  simp

theorem noChunks : batchChunks 0 chunk = [] := by
  have none_ : ceilDiv 0 chunk = 0 := by
    by_contra some_
    have here := Nat.pos_of_ne_zero some_
    have first := (ltCeilDiv (chunkPositive here)).mp here
    omega
  rw [batchChunks, none_]
  rfl

/- The first `count` chunks reach up to `count * chunk`, or to the end. -/
theorem chunkPrefix (count : ℕ) (inside : count ≤ ceilDiv batch chunk) :
    ((List.range count).flatMap fun i => List.range' (i * chunk) (min chunk (batch - i * chunk))) =
      List.range (min (count * chunk) batch) := by
  induction count with
  | zero => simp
  | succ count ih =>
    have positive := chunkPositive inside
    have start : count * chunk < batch := (ltCeilDiv positive).mp inside
    rw [List.range_succ, List.flatMap_append, ih (by omega), Nat.min_eq_left start.le, List.flatMap_singleton,
      Nat.succ_mul, List.range_eq_range', List.range_eq_range']
    have joined := @List.range'_append_1 0 (count * chunk) (min chunk (batch - count * chunk))
    rw [Nat.zero_add] at joined
    rw [joined]
    congr 1
    omega

theorem chunksCover (positive : 0 < chunk) :
    ((batchChunks batch chunk).flatMap fun piece => List.range' piece.1 piece.2) = List.range batch := by
  have end_ : batch ≤ ceilDiv batch chunk * chunk := by
    by_contra beyond
    exact absurd ((ltCeilDiv positive).mpr (not_le.mp beyond)) (lt_irrefl _)
  rw [batchChunks, List.flatMap_map, chunkPrefix _ le_rfl, Nat.min_eq_right end_]

end Chunks

section Spreads
variable {backend : Backend} {spread : Spread}

theorem ceilDivLe {value divisor bound : ℕ} (positive : 0 < divisor) :
    ceilDiv value divisor ≤ bound ↔ value ≤ bound * divisor := by
  rw [← not_lt, ltCeilDiv positive, not_lt]

/- A bound on the rows of a launch for each way of spreading them. -/
def Spread.Within (spread : Spread) (backend : Backend) (count : ℕ) : Prop :=
  match spread with
  | .alongX work perBlock y => count * work ≤ maxLaunchBlocks backend * perBlock ∧ y ≤ kMaxGridY
  | .alongY x perBlock => x ≤ maxLaunchBlocks backend ∧ count ≤ kMaxGridY * perBlock
  | .allRows x _ => x ≤ maxLaunchBlocks backend ∧ count ≤ kMaxGridY
  | .alongZ x y => x ≤ maxLaunchBlocks backend ∧ y ≤ kMaxGridY ∧ count ≤ kMaxGridY
  | .gridStride tiles cap => tiles count ≤ maxLaunchBlocks backend ∨ cap ≤ maxLaunchBlocks backend

theorem gridLegal {count : ℕ} : (spread.grid count).Legal backend ↔ spread.Within backend count := by
  have one : 1 ≤ kMaxGridY := by decide
  cases spread with
  | alongX work perBlock y =>
    simp only [Spread.Within, ← ceilDivLe perBlock.pos]
    exact ⟨fun legal => ⟨legal.x, legal.y⟩, fun within => ⟨within.1, within.2, one⟩⟩
  | alongY x perBlock =>
    simp only [Spread.Within, ← ceilDivLe perBlock.pos]
    exact ⟨fun legal => ⟨legal.x, legal.y⟩, fun within => ⟨within.1, within.2, one⟩⟩
  | allRows x perBlock => exact ⟨fun legal => ⟨legal.x, legal.y⟩, fun within => ⟨within.1, within.2, one⟩⟩
  | alongZ x y =>
    exact ⟨fun legal => ⟨legal.x, legal.y, legal.z⟩, fun within => ⟨within.1, within.2.1, within.2.2⟩⟩
  | gridStride tiles cap =>
    simp only [Spread.Within, ← min_le_iff]
    exact ⟨fun legal => legal.x, fun within => ⟨within, one, one⟩⟩

/- Every spread but the last takes fewer rows wherever it takes more. -/
def Spread.Monotone (spread : Spread) (backend : Backend) : Prop :=
  ∀ fewer more, fewer ≤ more → spread.Within backend more → spread.Within backend fewer

theorem spreadMonotone (plain : ∀ tiles cap, spread = .gridStride tiles cap → cap ≤ maxLaunchBlocks backend) :
    spread.Monotone backend := by
  intro fewer more less within
  cases spread with
  | alongX work perBlock y => exact ⟨(Nat.mul_le_mul_right work less).trans within.1, within.2⟩
  | alongY x perBlock => exact ⟨within.1, less.trans within.2⟩
  | allRows x perBlock => exact ⟨within.1, less.trans within.2⟩
  | alongZ x y => exact ⟨within.1, within.2.1, less.trans within.2.2⟩
  | gridStride tiles cap => exact Or.inr (plain tiles cap rfl)

theorem spreadBlocks {count unit : ℕ} (inside : unit < spread.units count)
    (capped : ∀ tiles cap, spread = .gridStride tiles cap → 0 < cap) :
    spread.owner count unit < spread.blocks count := by
  cases spread with
  | alongX work perBlock y => exact (ltCeilDiv perBlock.pos).mpr ((Nat.div_mul_le_self _ _).trans_lt inside)
  | alongY x perBlock => exact (ltCeilDiv perBlock.pos).mpr ((Nat.div_mul_le_self _ _).trans_lt inside)
  | allRows x perBlock => exact (Nat.div_le_self _ _).trans_lt inside
  | alongZ x y => exact inside
  | gridStride tiles cap =>
    exact Nat.mod_lt _ (lt_min (Nat.zero_lt_of_lt inside) (capped tiles cap rfl))

end Spreads

section Passes
variable {backend : Backend} {pass : Pass}

/- The largest launch of a pass has all rows, or a whole chunk of them. -/
def Pass.Within (pass : Pass) (backend : Backend) : Prop :=
  match pass.chunk with
  | none => pass.spread.Within backend pass.rows
  | some chunk => pass.rows = 0 ∨ pass.spread.Within backend (min chunk pass.rows)

/- What the loops of the source provide for: chunks are not empty, and walking blocks are capped by the backend. -/
structure Pass.Sound (pass : Pass) (backend : Backend) : Prop where
  chunk : ∀ chunk, pass.chunk = some chunk → 0 < pass.rows → 0 < chunk
  cap : ∀ tiles cap, pass.spread = .gridStride tiles cap → 0 < cap ∧ cap ≤ maxLaunchBlocks backend

theorem passLegal (sound : pass.Sound backend) : pass.Legal backend ↔ pass.Within backend := by
  have monotone : pass.spread.Monotone backend := spreadMonotone fun tiles cap same => (sound.cap tiles cap same).2
  unfold Pass.Legal Pass.Within Pass.pieces
  simp only [gridLegal]
  cases chunked : pass.chunk with
  | none => simp only [List.mem_singleton, forall_eq]
  | some chunk =>
    rcases Nat.eq_zero_or_pos pass.rows with none_ | some_
    · simp [none_, noChunks]
    · have positive := sound.chunk chunk chunked some_
      constructor
      · intro legal
        exact Or.inr (legal _ (firstChunk positive some_))
      · rintro (none_ | within) piece inside
        · omega
        · obtain ⟨-, small, fits⟩ := chunkBounds positive inside
          exact monotone _ _ (le_min small (by omega)) within

/- Chunks of a buffer whose pointer moves by whole rows; a single launch needs no pointer to move. -/
def Pass.Aligned (pass : Pass) : Prop :=
  ∀ chunk, pass.chunk = some chunk → chunk < pass.rows → ∀ side ∈ pass.sides, side.step = side.stride

theorem passCovers (sound : pass.Sound backend) (aligned : pass.Aligned) : pass.Covers where
  rows := by
    unfold Pass.pieces
    cases chunked : pass.chunk with
    | none => simp [List.range_eq_range']
    | some chunk =>
      rcases Nat.eq_zero_or_pos pass.rows with none_ | some_
      · simp [none_, noChunks]
      · exact chunksCover (sound.chunk chunk chunked some_)
  blocks _ _ _ inside := spreadBlocks inside fun tiles cap same => (sound.cap tiles cap same).1
  sides := by
    intro side known piece inside row small
    rw [Nat.add_mul]
    congr 1
    unfold Pass.pieces at inside
    cases chunked : pass.chunk with
    | none =>
      rw [chunked] at inside
      simp [List.mem_singleton.mp inside]
    | some chunk =>
      rw [chunked] at inside
      obtain ⟨i, here, rfl⟩ := memChunks.mp inside
      rcases Nat.eq_zero_or_pos i with rfl | later
      · simp
      · have start := (ltCeilDiv (chunkPositive here)).mp here
        have more : chunk ≤ i * chunk := Nat.le_mul_of_pos_left chunk later
        rw [aligned chunk chunked (by omega) side known]

/- A pointer that moves by less than a row leads the second chunk astray. -/
theorem passStrays {chunk : ℕ} (chunked : pass.chunk = some chunk) (positive : 0 < chunk) (more : chunk < pass.rows)
    {side : Side} (known : side ∈ pass.sides) (apart : side.step ≠ side.stride) : ¬ pass.Covers := by
  intro covers
  have second : (1 * chunk, min chunk (pass.rows - 1 * chunk)) ∈ pass.pieces := by
    unfold Pass.pieces
    rw [chunked]
    exact memChunks.mpr ⟨1, (ltCeilDiv positive).mpr (by omega), rfl⟩
  have here := covers.sides side known _ second 0 (lt_min positive (by omega))
  simp only [Nat.zero_mul, Nat.add_zero, Nat.one_mul] at here
  exact apart (Nat.eq_of_mul_eq_mul_left positive here)

end Passes

section Builders
variable (backend : Backend)

/- kernel->launch(ceil_div(rows, batch_per_block), 1, 1) -/
def launchRows (kernel : JitKernel) (rows : ℕ) : Pass := { rows := rows, spread := .alongX 1 kernel.batchPerBlock 1 }

/- kernel->launch(ceil_div(columns, inner_pack), batch, 1) -/
def launchColumns (kernel : JitKernel) (columns batch : ℕ) : Pass :=
  { rows := batch, spread := .alongY (ceilDiv columns kernel.innerPack) single }

/- launch_grid_y_chunks around a kernel whose columns come in blocks of 256 -/
def chunkSpan (columns : ℕ) (kernel : JitKernel) : ℕ :=
  max 1 (min kMaxGridY (blockLimitPerLaunch backend / max 1 (ceilDiv columns 256))) * kernel.rowsPerBlock

def launchGridYChunks (kernel : JitKernel) (columns rows : ℕ) (sides : List Side) : Pass :=
  { rows := rows, chunk := some (chunkSpan backend columns kernel)
    spread := .alongY (ceilDiv columns 256) kernel.rowsPerBlock, sides := sides }

/- The same kernels launched over all rows at once. -/
def launchGridRows (kernel : JitKernel) (columns rows : ℕ) : Pass :=
  { rows := rows, spread := .alongY (ceilDiv columns 256) kernel.rowsPerBlock }

/- A kernel over blocks of 256 columns, one row a block. -/
def launchBlocks (columns rows : ℕ) : Pass := { rows := rows, spread := .alongY (ceilDiv columns 256) single }

def kPerm3dBlock : ℕ := 1024

def permGridX (kernel : JitKernel) (elements : ℕ) : ℕ :=
  if 0 < kernel.gridXOverride then kernel.gridXOverride else ceilDiv elements kPerm3dBlock

def launchPerm3d (kernel : JitKernel) (elements batch : ℕ) : Pass :=
  { rows := batch, chunk := some (max 1 (blockLimitPerLaunch backend / max 1 (permGridX kernel elements)))
    spread := .alongZ (permGridX kernel elements) 1, sides := [.rows (2 * elements), .rows (2 * elements)] }

/- per_batch_tiles of the native permutation -/
def permTiles (d0 d1 d2 : ℕ) : ℕ := ceilDiv d0 16 * ceilDiv d1 16 * ceilDiv d2 16

def launchPerm3dNative (d0 d1 d2 batch : ℕ) : Pass :=
  { rows := batch, chunk := some (max 1 (blockLimitPerLaunch backend / max 1 (permTiles d0 d1 d2)))
    spread := .alongX (permTiles d0 d1 d2) single 1, sides := [.rows (2 * (d0 * d1 * d2)), .rows (2 * (d0 * d1 * d2))] }

/- launch_perm3d_with_optional_npu_native -/
def launchPerm (perm : Perm3d) (d0 d1 d2 batch : ℕ) : Pass :=
  match perm with
  | .triton kernel => launchPerm3d backend kernel (d0 * d1 * d2) batch
  | .native => launchPerm3dNative backend d0 d1 d2 batch

/- CompiledRawTranspose2D::launch of a (rows, cols) matrix. -/
def Transpose2D.launch (transpose : Transpose2D) (rows cols batch : ℕ) : Pass :=
  match transpose with
  | .triton => { rows := batch, spread := .alongZ (ceilDiv cols 32) (ceilDiv rows 32) }
  | .native tile =>
    { rows := batch, spread := .gridStride (fun count => count * ceilDiv rows tile * ceilDiv cols tile) 65535 }

end Builders

end FlagFft.Exec
