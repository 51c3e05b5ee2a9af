import FlagFft.Exec.Steps

/-! When every launch below an execution is legal and every row is taken once: a bound on the batch for each launch
that is not cut into chunks, and none on the batch where the chunks follow the limits of the backend. -/
namespace FlagFft.Exec
open Codegen (Backend)

abbrev Context.backend (context : Context) : Backend := context.request.backend

structure Pass.Good (pass : Pass) (backend : Backend) : Prop where
  legal : pass.Legal backend
  covers : pass.Covers

/- Every kernel launched below an execution of a node. -/
def Launched (node : Node) (context : Context) : Prop :=
  ∀ reached at_, Executes node context reached at_ → ∀ pass, .launch pass ∈ reached.steps at_ →
    pass.Good at_.request.backend

def Step.Good (backend : Backend) : Step → Prop
  | .launch pass => pass.Good backend
  | .call child inner => Launched child inner

theorem launchedSteps {node : Node} {context : Context} :
    Launched node context ↔ ∀ step ∈ node.steps context, step.Good context.backend := by
  rw [Launched, executesAll]
  constructor
  · rintro ⟨here, below⟩ step inside
    cases step with
    | launch pass => exact here pass inside
    | call child inner => exact below child inner inside
  · intro steps
    exact ⟨fun pass inside => steps _ inside, fun child inner inside => steps _ inside⟩

section Builders
variable {backend : Backend}

theorem passGood {pass : Pass} (sound : pass.Sound backend) (aligned : pass.Aligned) :
    pass.Good backend ↔ pass.Within backend :=
  ⟨fun good => (passLegal sound).mp good.legal, fun within => ⟨(passLegal sound).mpr within, passCovers sound aligned⟩⟩

/- A pass whose blocks do not walk and whose buffers move by whole rows. -/
theorem plainGood {pass : Pass} (chunks : ∀ chunk, pass.chunk = some chunk → 0 < pass.rows → 0 < chunk)
    (plain : ∀ tiles cap, pass.spread ≠ .gridStride tiles cap) (rows : ∀ side ∈ pass.sides, side.step = side.stride) :
    pass.Good backend ↔ pass.Within backend :=
  passGood ⟨chunks, fun tiles cap same => absurd same (plain tiles cap)⟩ fun _ _ _ => rows

/- Blocks that walk over all tiles fit whatever the number of rows. -/
theorem walkingGood {rows cap : ℕ} {tiles : ℕ → ℕ} (some_ : 0 < cap) (within : cap ≤ maxLaunchBlocks backend) :
    ({ rows := rows, spread := .gridStride tiles cap } : Pass).Good backend := by
  refine (passGood ⟨by simp, ?_⟩ (by simp [Pass.Aligned])).mpr (Or.inr within)
  rintro _ _ ⟨⟩
  exact ⟨some_, within⟩

theorem blockLimit : blockLimitPerLaunch backend = maxLaunchBlocks backend := by
  cases backend <;> rfl

theorem kMaxGridYLimit : kMaxGridY ≤ maxLaunchBlocks backend := by
  cases backend <;> decide

/- The bounds of the launches that take all rows at once. -/
def rowsFit (backend : Backend) (kernel : JitKernel) (rows : ℕ) : Prop :=
  rows ≤ maxLaunchBlocks backend * kernel.batchPerBlock

def columnsFit (backend : Backend) (kernel : JitKernel) (columns batch : ℕ) : Prop :=
  ceilDiv columns kernel.innerPack ≤ maxLaunchBlocks backend ∧ batch ≤ kMaxGridY

def blocksFit (backend : Backend) (columns rows : ℕ) : Prop :=
  ceilDiv columns 256 ≤ maxLaunchBlocks backend ∧ rows ≤ kMaxGridY

def gridRowsFit (backend : Backend) (kernel : JitKernel) (columns rows : ℕ) : Prop :=
  ceilDiv columns 256 ≤ maxLaunchBlocks backend ∧ rows ≤ kMaxGridY * kernel.rowsPerBlock

/- Launches cut by launch_grid_y_chunks fit whatever the number of rows. -/
def chunkedFit (backend : Backend) (columns rows : ℕ) : Prop :=
  rows = 0 ∨ ceilDiv columns 256 ≤ maxLaunchBlocks backend

/- The batch of a permutation is in grid_z, but its chunks are cut for the blocks of the whole grid. -/
def permFit (backend : Backend) (perm : Perm3d) (d0 d1 d2 batch : ℕ) : Prop :=
  match perm with
  | .triton kernel =>
    let gridX := permGridX kernel (d0 * d1 * d2)
    batch = 0 ∨ gridX ≤ maxLaunchBlocks backend ∧
      (batch ≤ kMaxGridY ∨ maxLaunchBlocks backend / max 1 gridX ≤ kMaxGridY)
  | .native => batch = 0 ∨ permTiles d0 d1 d2 ≤ maxLaunchBlocks backend

def Transpose2D.fit (backend : Backend) (transpose : Transpose2D) (rows cols batch : ℕ) : Prop :=
  match transpose with
  | .triton => ceilDiv cols 32 ≤ maxLaunchBlocks backend ∧ ceilDiv rows 32 ≤ kMaxGridY ∧ batch ≤ kMaxGridY
  | .native _ => True

theorem rowsGood {kernel : JitKernel} {rows : ℕ} :
    (launchRows kernel rows).Good backend ↔ rowsFit backend kernel rows := by
  rw [plainGood (by simp [launchRows]) (by simp [launchRows]) (by simp [launchRows])]
  simp [Pass.Within, launchRows, Spread.Within, rowsFit, kMaxGridY]

theorem columnsGood {kernel : JitKernel} {columns batch : ℕ} :
    (launchColumns kernel columns batch).Good backend ↔ columnsFit backend kernel columns batch := by
  rw [plainGood (by simp [launchColumns]) (by simp [launchColumns]) (by simp [launchColumns])]
  simp [Pass.Within, launchColumns, Spread.Within, columnsFit]

theorem blocksGood {columns rows : ℕ} : (launchBlocks columns rows).Good backend ↔ blocksFit backend columns rows := by
  rw [plainGood (by simp [launchBlocks]) (by simp [launchBlocks]) (by simp [launchBlocks])]
  simp [Pass.Within, launchBlocks, Spread.Within, blocksFit]

theorem allRowsGood {kernel : JitKernel} {columns rows : ℕ} :
    (launchAllRows kernel columns rows).Good backend ↔ blocksFit backend columns rows := by
  rw [plainGood (by simp [launchAllRows]) (by simp [launchAllRows]) (by simp [launchAllRows])]
  simp [Pass.Within, launchAllRows, Spread.Within, blocksFit]

theorem gridRowsGood {kernel : JitKernel} {columns rows : ℕ} :
    (launchGridRows kernel columns rows).Good backend ↔ gridRowsFit backend kernel columns rows := by
  rw [plainGood (by simp [launchGridRows]) (by simp [launchGridRows]) (by simp [launchGridRows])]
  simp [Pass.Within, launchGridRows, Spread.Within, gridRowsFit]

theorem chunkSpanBounds {columns : ℕ} {kernel : JitKernel} : 0 < chunkSpan backend columns kernel ∧
    chunkSpan backend columns kernel ≤ kMaxGridY * kernel.rowsPerBlock := by
  have blocks : max 1 (min kMaxGridY (blockLimitPerLaunch backend / max 1 (ceilDiv columns 256))) ≤ kMaxGridY :=
    max_le (by decide) (min_le_left _ _)
  exact ⟨Nat.mul_pos (by omega) kernel.rowsPerBlock.pos, Nat.mul_le_mul_right _ blocks⟩

theorem chunkedWithin {kernel : JitKernel} {columns rows : ℕ} {sides : List Side} :
    (launchGridYChunks backend kernel columns rows sides).Within backend ↔ chunkedFit backend columns rows := by
  have small : min (chunkSpan backend columns kernel) rows ≤ kMaxGridY * kernel.rowsPerBlock :=
    (min_le_left _ _).trans chunkSpanBounds.2
  simp only [Pass.Within, launchGridYChunks, Spread.Within, chunkedFit, small, and_true]

theorem chunkedSound {kernel : JitKernel} {columns rows : ℕ} {sides : List Side} :
    (launchGridYChunks backend kernel columns rows sides).Sound backend where
  chunk _ same _ := Option.some.inj same ▸ chunkSpanBounds.1
  cap _ _ same := nomatch same

theorem chunkedGood {kernel : JitKernel} {columns rows : ℕ} {sides : List Side}
    (aligned : ∀ side ∈ sides, side.step = side.stride) :
    (launchGridYChunks backend kernel columns rows sides).Good backend ↔ chunkedFit backend columns rows := by
  rw [passGood chunkedSound fun _ _ _ => aligned, chunkedWithin]

/- Where a pointer does not move by whole rows there may only be one chunk. -/
theorem chunkedStrays {kernel : JitKernel} {columns rows : ℕ} {first : Side} {step stride : ℕ} (apart : step ≠ stride) :
    (launchGridYChunks backend kernel columns rows [first, ⟨step, stride⟩]).Good backend ↔
      chunkedFit backend columns rows ∧ rows ≤ chunkSpan backend columns kernel := by
  constructor
  · intro good
    refine ⟨chunkedWithin.mp ((passLegal chunkedSound).mp good.legal), ?_⟩
    by_contra more
    have known : (⟨step, stride⟩ : Side) ∈ [first, ⟨step, stride⟩] := by simp
    exact passStrays rfl chunkSpanBounds.1 (not_le.mp more) known apart good.covers
  · rintro ⟨fit, single⟩
    refine (passGood chunkedSound ?_).mpr (chunkedWithin.mpr fit)
    intro chunk same more
    have here := Option.some.inj same
    exact absurd more (not_lt.mpr (here ▸ single))

/- The largest chunk whose rows of `work` blocks stay within the limit. -/
theorem chunkWork {work count limit : ℕ} (some_ : 0 < count) :
    min (max 1 (limit / max 1 work)) count * work ≤ limit ↔ work ≤ limit := by
  constructor
  · intro within
    have one : 1 ≤ min (max 1 (limit / max 1 work)) count := le_min (le_max_left _ _) some_
    calc work = 1 * work := (Nat.one_mul work).symm
      _ ≤ min (max 1 (limit / max 1 work)) count * work := Nat.mul_le_mul_right work one
      _ ≤ limit := within
  · intro small
    rcases Nat.eq_zero_or_pos work with rfl | positive
    · simp
    · have whole : 1 ≤ limit / work := (Nat.one_le_div_iff positive).mpr small
      rw [@max_eq_right _ _ 1 work positive, max_eq_right whole]
      exact (Nat.mul_le_mul_right work (min_le_left _ _)).trans (Nat.div_mul_le_self _ _)

theorem permGood {perm : Perm3d} {d0 d1 d2 batch : ℕ} :
    (launchPerm backend perm d0 d1 d2 batch).Good backend ↔ permFit backend perm d0 d1 d2 batch := by
  cases perm with
  | triton kernel =>
    rw [plainGood (by simp [launchPerm, launchPerm3d]) (by simp [launchPerm, launchPerm3d])
      (by simp [launchPerm, launchPerm3d, Side.rows])]
    have cap : 1 ≤ kMaxGridY := by decide
    simp only [Pass.Within, launchPerm, launchPerm3d, Spread.Within, permFit, blockLimit, cap, true_and, min_le_iff,
      max_le_iff, or_comm (a := batch ≤ kMaxGridY)]
  | native =>
    rw [plainGood (by simp [launchPerm, launchPerm3dNative]) (by simp [launchPerm, launchPerm3dNative])
      (by simp [launchPerm, launchPerm3dNative, Side.rows])]
    rcases Nat.eq_zero_or_pos batch with rfl | some_
    · simp [Pass.Within, launchPerm, launchPerm3dNative, permFit]
    · have cap : 1 ≤ kMaxGridY := by decide
      simp only [Pass.Within, launchPerm, launchPerm3dNative, Spread.Within, permFit, blockLimit, cap, and_true,
        singleVal, Nat.mul_one, chunkWork some_]

theorem transposeGood {transpose : Transpose2D} {rows cols batch : ℕ} :
    (transpose.launch rows cols batch).Good backend ↔ transpose.fit backend rows cols batch := by
  cases transpose with
  | triton =>
    rw [plainGood (by simp [Transpose2D.launch]) (by simp [Transpose2D.launch]) (by simp [Transpose2D.launch])]
    simp [Pass.Within, Transpose2D.launch, Spread.Within, Transpose2D.fit]
  | native tile => exact iff_of_true (walkingGood (by decide) kMaxGridYLimit) trivial

end Builders

end FlagFft.Exec
