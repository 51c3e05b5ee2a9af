import FlagFft.Exec.Grids

/-! The batches a compiled tree can launch, by recursion over its nodes, and that these are the ones whose launches
are all legal and take every row once. -/
namespace FlagFft.Exec
open Codegen (Backend)

section RankOne
variable (context : Context)

def leafFits (node : Leaf) : Prop :=
  context.chunksLeaf = true ∨ rowsFit context.backend node.kernel context.batch

def FourStep.columnsFit (node : FourStep) : Prop :=
  ceilDiv node.n2 node.rowKernel.innerPack ≤ maxLaunchBlocks context.backend ∧
    ceilDiv node.n1 node.colKernel.innerPack ≤ maxLaunchBlocks context.backend

def FourStep.fits (node : FourStep) : Prop := node.columnsFit context ∧ context.batch ≤ kMaxGridY

def FourStep.fusedFits (node : FourStep) : Prop :=
  if context.npu = true then context.batch = 0 ∨ node.columnsFit context else node.fits context

def stageFits (length : ℕ) : ℕ × StageKernel → Prop
  | (factor, .jit block) => context.batch = 0 ∨ ceilDiv (length / factor) block ≤ maxLaunchBlocks context.backend
  | (_, .aiv _) => True

def directDftFits (node : Leaf) : Prop :=
  rowsFit context.backend node.kernel context.batch ∧ node.kernel.gridYOverride ≤ kMaxGridY

/- The chunk is cut for the blocks of a launch and for the bytes of its buffers, but not for grid_y. -/
def Bluestein.fits (node : Bluestein) : Prop :=
  context.batch = 0 ∨ (ceilDiv node.convLength 256 ≤ maxLaunchBlocks context.backend ∧
    ceilDiv node.length 256 ≤ maxLaunchBlocks context.backend) ∧
    (context.batch ≤ kMaxGridY ∨ node.batchChunk ≤ kMaxGridY)

def BluesteinFourStep.fits (node : BluesteinFourStep) : Prop :=
  (columnsFit context.backend node.prepareRowKernel node.n2 context.batch ∧
    columnsFit context.backend node.firstColKernel node.n1 context.batch) ∧
  columnsFit context.backend node.pointwiseRowKernel node.n2 context.batch ∧
    columnsFit context.backend node.finishColKernel node.n1 context.batch

/- Only an NPU cuts the batch. -/
def FourStepGeneric.fits (node : FourStepGeneric) : Prop :=
  context.batch = 0 ∨ ceilDiv (node.n1 * node.n2) 256 ≤ maxLaunchBlocks context.backend ∧
    (context.npu = true ∨ context.batch ≤ kMaxGridY)

def PackedEnds.fits (node : PackedEnds) (columns : ℕ) : Prop :=
  match node.kernel with
  | some kernel => gridRowsFit context.backend kernel columns context.batch
  | none => True

/- The planes of a cube, a plane a block. -/
def planesFit (planes : ℕ) : Prop := context.batch * planes ≤ maxLaunchBlocks context.backend

end RankOne

section Launches
variable {context : Context}

theorem contextLimit : context.limit = maxLaunchBlocks context.backend := blockLimit

theorem limitPositive : 0 < context.limit := by
  rw [contextLimit]
  exact lt_of_lt_of_le (by decide) kMaxGridYLimit

/- An NPU takes at most as many blocks in a launch as fit into one dimension. -/
theorem npuLimit (npu : context.npu = true) : maxLaunchBlocks context.backend = kMaxGridY := by
  rw [Context.backend, beq_iff_eq.mp npu]
  rfl

theorem leafGood {node : Leaf} : (leafPass context node).Good context.backend ↔ leafFits context node := by
  have size : 0 < node.kernel.batchPerBlock * context.limit := Nat.mul_pos node.kernel.batchPerBlock.pos limitPositive
  have limit : max 1 (node.kernel.batchPerBlock * context.limit) =
      maxLaunchBlocks context.backend * node.kernel.batchPerBlock := by
    rw [Nat.max_eq_right size, contextLimit, Nat.mul_comm]
  have one : 1 ≤ kMaxGridY := by decide
  have chunks : ∀ chunk, (leafPass context node).chunk = some chunk → 0 < context.batch → 0 < chunk := by
    intro chunk same _
    simp only [leafPass] at same
    split at same
    · exact Option.some.inj same ▸ Nat.lt_of_lt_of_le one_pos (le_max_left _ _)
    · exact absurd same (by simp)
  rw [plainGood chunks (by simp [leafPass]) (by simp [leafPass, Side.rows])]
  simp only [Pass.Within, leafPass, leafFits, rowsFit, limit]
  by_cases long : context.chunksLeaf = true ∧ maxLaunchBlocks context.backend * node.kernel.batchPerBlock < context.batch
  · rw [if_pos long]
    simp [Spread.Within, long.1, one]
  · rw [if_neg long]
    simp only [Spread.Within, Nat.mul_one, one, and_true]
    by_cases chunks : context.chunksLeaf = true
    · simp only [chunks, true_and, not_lt] at long
      simp [chunks, long]
    · simp [chunks]

theorem fourStepGood {node : FourStep} :
    (∀ pass ∈ node.passes context, pass.Good context.backend) ↔ node.fits context := by
  simp only [FourStep.passes, List.forall_mem_cons, List.not_mem_nil, false_imp_iff, implies_true, and_true,
    Context.backend, columnsGood, columnsFit, FourStep.fits, FourStep.columnsFit]
  tauto

theorem fusedGood {node : FourStep} :
    (∀ pass ∈ node.fusedPasses context, pass.Good context.backend) ↔ node.fusedFits context := by
  unfold FourStep.fusedFits
  by_cases npu : context.npu = true
  · rw [if_pos npu]
    have chunk (work : ℕ) : min (max 1 (maxLaunchBlocks context.request.backend / work)) context.batch ≤ kMaxGridY := by
      have limit : maxLaunchBlocks context.request.backend = kMaxGridY := npuLimit npu
      rw [limit]
      exact (min_le_left _ _).trans (max_le (by decide) (Nat.div_le_self _ _))
    have each (kernel : JitKernel) (columns work : ℕ) :
        ({ launchColumns kernel columns context.batch with
            chunk := some (max 1 (maxLaunchBlocks context.request.backend / work))
            sides := [Side.rows (2 * node.length), .rows (2 * node.length)] } : Pass).Good context.backend ↔
          context.batch = 0 ∨ ceilDiv columns kernel.innerPack ≤ maxLaunchBlocks context.backend := by
      rw [plainGood (by simp) (by simp [launchColumns]) (by simp [Side.rows])]
      simp only [Pass.Within, launchColumns, Spread.Within, singleVal, Nat.mul_one, chunk, and_true]
    simp only [FourStep.fusedPasses, FourStep.fusedChunk, if_pos npu, List.forall_mem_cons, List.not_mem_nil,
      false_imp_iff, implies_true, and_true, each, FourStep.columnsFit, or_and_left]
  · rw [if_neg npu, ← fourStepGood]
    have each (kernel : JitKernel) (columns : ℕ) :
        ({ launchColumns kernel columns context.batch with
            chunk := none, sides := [Side.rows (2 * node.length), .rows (2 * node.length)] } : Pass).Good
            context.backend ↔ (launchColumns kernel columns context.batch).Good context.backend := by
      rw [plainGood (by simp) (by simp [launchColumns]) (by simp [Side.rows]),
        plainGood (by simp [launchColumns]) (by simp [launchColumns]) (by simp [launchColumns])]
      rfl
    simp only [FourStep.fusedPasses, FourStep.passes, FourStep.fusedChunk, if_neg npu, List.forall_mem_cons,
      List.not_mem_nil, false_imp_iff, implies_true, and_true, each]

/- Blocks that share a matrix group. -/
theorem matrixGroup {stride groupSize : ℕ} (groups : 0 < groupSize ∧ groupSize ≤ 64) :
    0 < (if 1 < groupSize then 64 / groupSize else if stride = 64 then 64 else 1) ∧
      (if 1 < groupSize then 64 / groupSize else if stride = 64 then 64 else 1) ≤ 65535 := by
  have whole : 0 < 64 / groupSize := Nat.div_pos groups.2 groups.1
  have part : 64 / groupSize ≤ 64 := Nat.div_le_self _ _
  split
  · omega
  · split <;> omega

theorem aivGood {kernel : AivKernel} {pass : Pass} (launched : pass ∈ kernel.passes context) :
    pass.Good context.backend := by
  unfold AivKernel.passes at launched
  split at launched
  case isFalse => exact absurd launched List.not_mem_nil
  case isTrue admitted =>
    have single (groups : ℕ) (size : 0 < kernel.maxBlocks context.backend)
        (small : kernel.maxBlocks context.backend ≤ maxLaunchBlocks context.backend) :
        ({ rows := groups, chunk := some (kernel.maxBlocks context.backend), spread := .alongX 1 single 1 } : Pass).Good
          context.backend := by
      refine (plainGood (by simpa using fun _ => size) (by simp) (by simp)).mpr (Or.inr ⟨?_, by decide⟩)
      simpa using Or.inl small
    have cap : (65535 : ℕ) ≤ maxLaunchBlocks context.backend := kMaxGridYLimit
    cases kernel with
    | small length groupSize | fft length groupSize =>
      obtain rfl := List.mem_singleton.mp launched
      exact single _ (by simp [AivKernel.maxBlocks]) (by simpa [AivKernel.maxBlocks] using cap)
    | fft64 stride groupSize radix4Pair =>
      obtain rfl := List.mem_singleton.mp launched
      have groups : 0 < (groupSize : ℕ) ∧ (groupSize : ℕ) ≤ 64 := by
        simp only [AivKernel.admits, List.contains_cons, List.contains_nil, Bool.or_false, Bool.and_eq_true,
          Bool.or_eq_true, beq_iff_eq] at admitted
        have positive := groupSize.pos
        omega
      simp only [AivKernel.maxBlocks] at single ⊢
      exact single _ (Nat.mul_pos (Nat.div_pos (matrixGroup groups).2 (matrixGroup groups).1) (matrixGroup groups).1)
        ((Nat.div_mul_le_self _ _).trans cap)
    | fft256 groupSize =>
      obtain rfl := List.mem_singleton.mp launched
      exact single _ limitPositive contextLimit.le
    | fft256Real groupSize maxRealBlocks =>
      obtain rfl := List.mem_singleton.mp launched
      have few : min (maxRealBlocks : ℕ) 256 ≤ 65535 := (min_le_right _ _).trans (by decide)
      exact walkingGood (lt_min maxRealBlocks.pos (by decide)) (few.trans cap)

/- Work of a row in blocks of `block`, as many rows a launch as its blocks allow. -/
theorem stockhamChunk {batch limit work : ℕ} {block : ℕ+} (some_ : 0 < batch) :
    min (max 1 (min batch (limit / max 1 (ceilDiv work block)))) batch * work ≤ limit * block ↔
      ceilDiv work block ≤ limit := by
  constructor
  · intro within
    rw [ceilDivLe block.pos]
    exact (Nat.le_mul_of_pos_left work (lt_min (by omega) some_)).trans within
  · intro small
    have whole : work ≤ ceilDiv work block * block := (ceilDivLe block.pos).mp le_rfl
    have fewer : min (max 1 (min batch (limit / max 1 (ceilDiv work block)))) batch ≤
        min (max 1 (limit / max 1 (ceilDiv work block))) batch :=
      min_le_min_right _ (max_le_max_left _ (min_le_right _ _))
    calc min (max 1 (min batch (limit / max 1 (ceilDiv work block)))) batch * work
        ≤ min (max 1 (limit / max 1 (ceilDiv work block))) batch * (ceilDiv work block * block) :=
          Nat.mul_le_mul fewer whole
      _ = min (max 1 (limit / max 1 (ceilDiv work block))) batch * ceilDiv work block * block := by ring
      _ ≤ limit * block := Nat.mul_le_mul_right _ ((chunkWork some_).mpr small)

theorem stockhamGood {length : ℕ} {stage : ℕ × StageKernel} :
    (stockhamPass context length stage).Good context.backend ↔ stageFits context length stage := by
  obtain ⟨factor, kernel⟩ := stage
  cases kernel with
  | aiv totalTiles => exact iff_of_true (walkingGood (by decide) kMaxGridYLimit) trivial
  | jit block =>
    have one : 1 ≤ kMaxGridY := by decide
    rw [plainGood (by simp [stockhamPass]) (by simp [stockhamPass]) (by simp [stockhamPass, Side.rows])]
    rcases Nat.eq_zero_or_pos context.batch with none_ | some_
    · simp [Pass.Within, stockhamPass, stageFits, none_]
    · simp only [Pass.Within, stockhamPass, stageFits, Spread.Within, contextLimit, one, and_true,
        Nat.ne_of_gt some_, false_or]
      exact stockhamChunk some_

theorem directDftGood {node : Leaf} :
    (directDftPass context node).Good context.backend ↔ directDftFits context node := by
  rw [plainGood (by simp [directDftPass]) (by simp [directDftPass]) (by simp [directDftPass])]
  have one : 1 ≤ kMaxGridY := by decide
  simp only [Pass.Within, directDftPass, Spread.Within, directDftFits, rowsFit, Nat.mul_one, max_le_iff, one, true_and]

theorem chunkedBlocksGood {columns chunk : ℕ} {sides : List Side} (positive : 0 < context.batch → 0 < chunk)
    (aligned : ∀ side ∈ sides, side.step = side.stride) :
    ({ launchBlocks columns context.batch with chunk := some chunk, sides := sides } : Pass).Good context.backend ↔
      context.batch = 0 ∨ ceilDiv columns 256 ≤ maxLaunchBlocks context.backend ∧ min chunk context.batch ≤ kMaxGridY := by
  rw [plainGood (by simpa [launchBlocks] using positive) (by simp [launchBlocks]) aligned]
  simp [Pass.Within, launchBlocks, Spread.Within]

/- The three launches around the transforms of a chunk. -/
theorem bluesteinGood {node : Bluestein} {columns : ℕ} {sides : List Side}
    (rows : ∀ side ∈ sides, side.step = side.stride) :
    ({ launchBlocks columns context.batch with chunk := some (node.batchChunk : ℕ), sides := sides } : Pass).Good
      context.backend ↔ context.batch = 0 ∨ ceilDiv columns 256 ≤ maxLaunchBlocks context.backend ∧
        (context.batch ≤ kMaxGridY ∨ (node.batchChunk : ℕ) ≤ kMaxGridY) := by
  rw [chunkedBlocksGood (fun _ => node.batchChunk.pos) rows, min_le_iff, or_comm (b := context.batch ≤ kMaxGridY)]

theorem genericGood {node : FourStepGeneric} {sides : List Side} (rows : ∀ side ∈ sides, side.step = side.stride) :
    ({ launchBlocks (node.n1 * node.n2) context.batch with
        chunk := some (node.batchChunk context), sides := sides } : Pass).Good context.backend ↔ node.fits context := by
  unfold FourStepGeneric.fits FourStepGeneric.batchChunk
  by_cases npu : context.npu = true
  · have limit := npuLimit npu
    have part (work : ℕ) : max 1 (min context.batch (context.limit / work)) ≤ kMaxGridY := by
      rw [contextLimit, limit]
      exact max_le (by decide) ((min_le_right _ _).trans (Nat.div_le_self _ _))
    rw [if_pos npu, chunkedBlocksGood (fun _ => Nat.lt_of_lt_of_le one_pos (le_max_left _ _)) rows]
    simp only [npu, true_or, (min_le_left _ _).trans (part _)]
  · rw [if_neg npu, chunkedBlocksGood id rows]
    simp [npu]

theorem packedGood {node : PackedEnds} {columns : ℕ} :
    (node.pass context columns).Good context.backend ↔ node.fits context columns := by
  unfold PackedEnds.pass PackedEnds.fits
  cases node.kernel with
  | some kernel => exact gridRowsGood
  | none => exact iff_of_true (walkingGood (by decide) kMaxGridYLimit) trivial

theorem columnPassGood {outerStride : ℕ} {columns : ℕ+} :
    (∀ pass ∈ cubeColumnPasses context outerStride columns, pass.Good context.backend) ↔
      (context.batch % outerStride = 0 → ceilDiv outerStride columns ≤ maxLaunchBlocks context.backend ∧
        context.batch / outerStride ≤ kMaxGridY) := by
  unfold cubeColumnPasses
  split
  case isTrue whole =>
    rw [List.forall_mem_singleton, plainGood (by simp) (by simp) (by simp)]
    simp [Pass.Within, Spread.Within, whole]
  case isFalse part => simp [part]

theorem planesGood {planes : ℕ} : (launchPlanes context planes).Good context.backend ↔ planesFit context planes := by
  have one : 1 ≤ kMaxGridY := by decide
  rw [plainGood (by simp [launchPlanes]) (by simp [launchPlanes]) (by simp [launchPlanes])]
  simp [Pass.Within, launchPlanes, Spread.Within, planesFit, one]

end Launches

/- The batches a node can launch. -/
def Fits : Node → Context → Prop
  | .graph node, context => Fits node context
  | .leaf node, context => leafFits context node
  | .fourStepFused node, context => node.fusedFits context
  | .fourStepStrided node _, context => node.fits context
  | .stridedLeaf node _, context | .stridedDirectDft node _, context | .r2cLeaf node, context | .c2rLeaf node, context =>
    rowsFit context.backend node.kernel context.batch
  | .npuAiv _, _ => True
  | .stockham length stages _ _ _, context => ∀ stage ∈ stages, stageFits context length stage
  | .directDft node _ _, context => directDftFits context node
  | .bluestein node fft, context =>
    Fits fft (context.child 1 node.bTime node.bFftBuf) ∧ node.fits context ∧
      ∀ piece ∈ batchChunks context.batch node.batchChunk, Fits fft (context.child piece.2 node.aBuf node.workBuf)
  | .bluesteinLeaf node fft prepare finish _, context =>
    Fits fft (context.child 1 node.bTime node.bFftBuf) ∧ rowsFit context.backend prepare context.batch ∧
      rowsFit context.backend finish context.batch
  | .bluesteinFullLeaf node fft, context =>
    Fits fft (context.child 1 node.bTime node.bFftBuf) ∧ rowsFit context.backend node.kernel context.batch
  | .bluesteinFullLeafReal node kind fft layoutFallback, context =>
    if realLayoutMisses context kind node.length = true then Fits layoutFallback context
    else Fits fft (context.child 1 node.bTime node.bFftBuf) ∧ rowsFit context.backend node.kernel context.batch
  | .bluesteinFourStep node fft, context =>
    Fits fft (context.child 1 node.bTime node.bFftBuf) ∧ node.fits context
  | .bluesteinFourStepReal node kind fft layoutFallback, context =>
    if realLayoutMisses context kind node.length = true then Fits layoutFallback context
    else Fits fft (context.child 1 node.bTime node.bFftBuf) ∧ node.fits context
  | .rader node fft, context =>
    Fits fft (context.child 1 node.bTime node.bFftBuf) ∧
      match node.route with
      | .fusedLeaf kernel => rowsFit context.backend kernel context.batch
      | .boundary prepare finish =>
        rowsFit context.backend prepare context.batch ∧ rowsFit context.backend finish context.batch
      | .generic =>
        blocksFit context.backend node.convLength context.batch ∧
          Fits fft (context.child context.batch node.aBuf node.workBuf)
  | .fourStepGeneric node rowChild colChild, context =>
    node.fits context ∧ ∀ piece ∈ batchChunks context.batch (node.batchChunk context),
      Fits rowChild (context.child (piece.2 * node.n2) (node.stage1 - piece.1 * (2 * (node.n1 * node.n2)))
        (node.stage2 - piece.1 * (2 * (node.n1 * node.n2)))) ∧
      Fits colChild (context.child (piece.2 * node.n1) (node.stage1 - piece.1 * (2 * (node.n1 * node.n2)))
        (node.stage2 - piece.1 * (2 * (node.n1 * node.n2))))
  | .r2c node fft, context =>
    chunkedFit context.backend node.length context.batch ∧
      Fits fft { context with inPlace := false, input := node.full1, output := node.full2 } ∧
      chunkedFit context.backend (node.length / 2 + 1) context.batch ∧
      context.batch ≤ chunkSpan context.backend (node.length / 2 + 1) node.packKernel
  | .c2r node fft, context =>
    chunkedFit context.backend node.length context.batch ∧
      Fits fft { context with inPlace := false, input := node.full1, output := node.full2 }
  | .packedR2c node fft layoutFallback, context =>
    if (node.kernel.isNone = true ∧ halfDistance context.outputDistance node.length ≠ node.length / 2 + 1) ∨
        (1 < context.batch ∧ (context.inPlace = true ∨ (0 < context.inputDistance ∧ context.inputDistance ≠ node.length)))
    then Fits layoutFallback context
    else Fits fft (context.child context.batch context.input node.packedBuf) ∧ node.fits context (node.length / 2 + 1)
  | .packedC2r node fft layoutFallback, context =>
    if c2rLayoutMisses context node.length then Fits layoutFallback context
    else node.fits context (node.length / 2) ∧ Fits fft (context.child context.batch node.packedBuf context.output)
  | .packedC2rFusedLeaf node _ layoutFallback, context =>
    if c2rLayoutMisses context node.length then Fits layoutFallback context
    else rowsFit context.backend node.kernel context.batch
  | .r2cFourStepHalfOut node expandKernel _, context | .c2rFourStepRealOut node expandKernel _, context =>
    gridRowsFit context.backend expandKernel node.length context.batch ∧ node.fits context
  | .r2cFourStepRealInHalfOut node, context | .c2rFourStepCompactInRealOut node, context => node.fits context
  | .plane node rowFft colFft, context =>
    Fits rowFft (context.child (context.batch * node.n0) context.input node.temp1) ∧
      node.transposeFwd.fit context.backend node.n0 node.n1 context.batch ∧
      Fits colFft (context.child (context.batch * node.n1) node.temp2 node.temp1) ∧
      node.transposeInv.fit context.backend node.n1 node.n0 context.batch
  | .planeFused n0 n1 _, context =>
    planesFit context n0 ∧ planesFit context n1
  | .planeRc n0 n1 rowFft colFft temp1, context =>
    Fits rowFft (context.child (context.batch * n0) context.input temp1) ∧
      Fits colFft (context.child (context.batch * n1) temp1 context.output)
  | .oneDimAs2d fft batch, context =>
    Fits fft { context with batch := batch, inputDistance := 0, outputDistance := 0 }
  | .planeR2cRow node rowR2c colFft, context =>
    Fits rowR2c (context.spaced (context.batch * node.n0) node.n1 (node.n1 / 2 + 1) context.input node.temp1) ∧
      node.transposeFwd.fit context.backend node.n0 (node.n1 / 2 + 1) context.batch ∧
      Fits colFft (context.spaced (context.batch * (node.n1 / 2 + 1)) node.n0 node.n0 node.temp2 node.temp1) ∧
      node.transposeInv.fit context.backend (node.n1 / 2 + 1) node.n0 context.batch
  | .planeC2rRow node colFft rowC2r, context =>
    node.transposeFwd.fit context.backend node.n0 (node.n1 / 2 + 1) context.batch ∧
      Fits colFft (context.spaced (context.batch * (node.n1 / 2 + 1)) node.n0 node.n0 node.temp1 node.temp2) ∧
      node.transposeInv.fit context.backend (node.n1 / 2 + 1) node.n0 context.batch ∧
      Fits rowC2r (context.spaced (context.batch * node.n0) (node.n1 / 2 + 1) node.n1 node.temp1 context.output)
  | .planeR2c node rowFft colFft, context =>
    (chunkedFit context.backend node.n1 (context.batch * node.n0) ∧
      Fits rowFft (context.within (context.batch * node.n0) node.full) ∧
      chunkedFit context.backend (node.n1 / 2 + 1) (context.batch * node.n0)) ∧
      node.transposeFwd.fit context.backend node.n0 (node.n1 / 2 + 1) context.batch ∧
      Fits colFft (context.child (context.batch * (node.n1 / 2 + 1)) node.temp1 node.temp2) ∧
      node.transposeInv.fit context.backend (node.n1 / 2 + 1) node.n0 context.batch
  | .planeC2r node colFft rowFft, context =>
    (node.transposeFwd.fit context.backend node.n0 (node.n1 / 2 + 1) context.batch ∧
      Fits colFft (context.child (context.batch * (node.n1 / 2 + 1)) node.temp1 node.temp2) ∧
      node.transposeInv.fit context.backend (node.n1 / 2 + 1) node.n0 context.batch) ∧
      chunkedFit context.backend node.n1 (context.batch * node.n0) ∧
      Fits rowFft (context.within (context.batch * node.n0) node.full)
  | .planeR2cRc node rowFft colFft, context =>
    match node.ends with
    | none =>
      Fits rowFft (context.spaced (context.batch * node.n0) node.n1 (node.n1 / 2 + 1) context.input node.full) ∧
        Fits colFft (context.child (context.batch * (node.n1 / 2 + 1)) node.full context.output)
    | some _ =>
      blocksFit context.backend node.n1 (context.batch * node.n0) ∧
        Fits rowFft (context.within (context.batch * node.n0) node.full) ∧
        blocksFit context.backend (node.n1 / 2 + 1) (context.batch * node.n0) ∧
        Fits colFft (context.within (context.batch * (node.n1 / 2 + 1)) context.output)
  | .planeC2rRc node colFft rowFft, context =>
    Fits colFft (context.child (context.batch * (node.n1 / 2 + 1)) context.input node.half) ∧
      match node.ends with
      | none =>
        Fits rowFft (context.spaced (context.batch * node.n0) (node.n1 / 2 + 1) node.n1 node.half context.output)
      | some _ =>
        blocksFit context.backend node.n1 (context.batch * node.n0) ∧
          Fits rowFft (context.within (context.batch * node.n0) node.full)
  | .cube node schedule n2Fft n1Fft n0Fft, context =>
    ∀ step ∈ schedule.steps, match step with
      | .n2 source target =>
        Fits n2Fft (context.spaced (context.batch * node.n0 * node.n1) 0 (schedule.n2Distance node.n1)
          (node.buffer context source) (node.buffer context target))
      | .n1 source target =>
        Fits n1Fft { context.child (context.batch * node.n0 * node.width) (node.buffer context source)
          (node.buffer context target) with request := schedule.outerRequest context.request }
      | .n0 source target =>
        Fits n0Fft { context.child (context.batch * node.n1 * node.width) (node.buffer context source)
          (node.buffer context target) with request := schedule.outerRequest context.request }
      | .perm perm => permFit context.backend perm node.n0 node.n1 node.width context.batch
  | .cubeRtrtFusedOuter node kind n2RealFft n1Fft n0Fft, context =>
    let outer (source middle target : Allocation) := ∀ b < context.batch,
      Fits n1Fft { context.child (node.n0 * node.width) (source - b * (2 * (node.n0 * node.n1 * node.width)))
        (middle - b * (2 * (node.n0 * node.n1 * node.width))) with request := context.request.complex } ∧
      Fits n0Fft { context.child (node.n1 * node.width) (middle - b * (2 * (node.n0 * node.n1 * node.width)))
        (target - b * (2 * (node.n0 * node.n1 * node.width))) with request := context.request.complex }
    permFit context.backend .native node.n0 node.n1 node.width context.batch ∧
      match kind with
      | .r2c =>
        Fits n2RealFft (context.child (context.batch * node.n0 * node.n1) context.input node.temp1) ∧
          outer node.temp2 node.temp1 context.output
      | .c2r =>
        Fits n2RealFft (context.child (context.batch * node.n0 * node.n1) node.temp1 context.output) ∧
          outer node.temp1 node.temp2 node.temp1
  | .cubeFusedPlane planeSize outerFft temp, context =>
    planesFit context planeSize ∧
      Fits outerFft (context.child (context.batch * planeSize * planeSize) temp context.output)
  | .cubeRealFusedPlane n0 n1 n2 kind outerFft temp, context =>
    planesFit context n0 ∧ match kind with
      | .r2c => Fits outerFft (context.child (context.batch * n1 * (n2 / 2 + 1)) temp context.output)
      | .c2r => Fits outerFft (context.child (context.batch * n1 * (n2 / 2 + 1)) context.input temp)
  | .cubePrimePlane node middleFft outputTranspose, context =>
    planesFit context node.n1 ∧
      Fits middleFft (context.child (context.batch * node.n0 * node.width) node.temp1 node.temp2) ∧
      permFit context.backend (.triton outputTranspose) node.n0 node.n1 node.width context.batch
  | .cubeFused, context => planesFit context 16
  | .cubeColumn outerStride columns, context =>
    context.batch % outerStride = 0 → ceilDiv outerStride columns ≤ maxLaunchBlocks context.backend ∧
      context.batch / outerStride ≤ kMaxGridY
  | .cubeR2c node n2Fft n1Fft n0Fft, context =>
    let complex : Context := { context with request := context.request.complex }
    (chunkedFit context.backend node.n2 (context.batch * node.n0 * node.n1) ∧
      chunkedFit context.backend node.width (context.batch * node.n0 * node.n1)) ∧
      (permFit context.backend node.perm021 node.n0 node.n1 node.width context.batch ∧
        permFit context.backend node.perm210 node.n0 node.n1 node.width context.batch ∧
        permFit context.backend node.perm201 node.n0 node.n1 node.width context.batch) ∧
      Fits n2Fft (complex.within (context.batch * node.n0 * node.n1) node.full) ∧
      Fits n1Fft (complex.child (context.batch * node.n0 * node.width) node.temp1 node.temp2) ∧
      Fits n0Fft (complex.child (context.batch * node.n1 * node.width) node.temp1 node.temp2)
  | .cubeC2r node n0Fft n1Fft n2Fft, context =>
    let complex : Context := { context with request := context.request.complex }
    chunkedFit context.backend node.n2 (context.batch * node.n0 * node.n1) ∧
      (permFit context.backend node.perm021 node.n0 node.n1 node.width context.batch ∧
        permFit context.backend node.perm210 node.n0 node.n1 node.width context.batch ∧
        permFit context.backend node.perm201 node.n0 node.n1 node.width context.batch) ∧
      Fits n0Fft (complex.child (context.batch * node.n1 * node.width) node.temp1 node.temp2) ∧
      Fits n1Fft (complex.child (context.batch * node.n0 * node.width) node.temp1 node.temp2) ∧
      Fits n2Fft (complex.within (context.batch * node.n0 * node.n1) node.full)

section Trees
variable {context : Context}

theorem launchGood {backend : Backend} {pass : Pass} : Step.Good backend (.launch pass) ↔ pass.Good backend := Iff.rfl

theorem callGood {backend : Backend} {child : Node} {inner : Context} :
    Step.Good backend (.call child inner) ↔ Launched child inner := Iff.rfl

theorem mapGood {backend : Backend} {passes : List Pass} :
    (∀ step ∈ passes.map Step.launch, step.Good backend) ↔ ∀ pass ∈ passes, pass.Good backend :=
  List.forall_mem_map

theorem rowSides {first second : ℕ} : ∀ side ∈ [Side.rows first, Side.rows second], side.step = side.stride := by
  simp [Side.rows]

theorem chunkedRowsGood {backend : Backend} {kernel : JitKernel} {columns rows first second : ℕ} :
    (launchGridYChunks backend kernel columns rows [.rows first, .rows second]).Good backend ↔
      chunkedFit backend columns rows :=
  chunkedGood rowSides

theorem bFftGood {backend : Backend} {fft : Node} {bTime bFftBuf : Allocation} :
    Step.Good backend (ensureBFft context fft bTime bFftBuf) ↔ Launched fft (context.child 1 bTime bFftBuf) := Iff.rfl

/- 65536 matrices of 512 by 2 on a CUDA device: more than 256 rows are transposed. -/
def tallPlane : Plane :=
  { n0 := 512, n1 := 2, transposeFwd := .triton, transposeInv := .triton
    temp1 := 2 * (65536 * 512 * 2), temp2 := 2 * (65536 * 512 * 2) }

def tallNode : Node :=
  .plane tallPlane (.leaf { length := 2, kernel := {}, tables := [] }) (.leaf { length := 512, kernel := {}, tables := [512, 512] })

def tallContext : Context :=
  { request := ⟨.cuda, false, true, false⟩, batch := 65536, input := 2 * (65536 * 512 * 2), output := 2 * (65536 * 512 * 2) }

end Trees

end FlagFft.Exec
