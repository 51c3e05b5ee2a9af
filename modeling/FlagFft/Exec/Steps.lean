import FlagFft.Exec.Launches

/-! What each compiled node does when it is executed: the kernels it launches and the children it executes, in the
order of its execute. Launches of one kernel in a loop over chunks are one pass. -/
namespace FlagFft.Exec
open Codegen (Backend)

inductive Step where
  | launch (pass : Pass)
  | call (child : Node) (context : Context)

section RankOne
variable (context : Context)

def Context.limit : ℕ := blockLimitPerLaunch context.request.backend

def Context.npu : Bool := context.request.backend == .npu

/- chunk_npu_3d_complex_leaf -/
def Context.chunksLeaf : Bool :=
  context.npu && context.request.rank3 && !context.request.realTransform && context.request.complex64

def leafPass (node : Leaf) : Pass :=
  let batchLimit := max 1 (node.kernel.batchPerBlock * context.limit)
  { rows := context.batch
    chunk := if context.chunksLeaf = true ∧ batchLimit < context.batch then some batchLimit else none
    spread := .alongX 1 node.kernel.batchPerBlock 1, sides := [.rows (2 * node.length), .rows (2 * node.length)] }

/- On an NPU the batch is cut so that rows and columns stay below the blocks of a launch. -/
def FourStep.fusedChunk (node : FourStep) : Option ℕ :=
  let gridX := max (ceilDiv node.n2 node.rowKernel.innerPack) (ceilDiv node.n1 node.colKernel.innerPack)
  if context.npu = true then some (max 1 (maxLaunchBlocks context.request.backend / gridX)) else none

def FourStep.fusedPasses (node : FourStep) : List Pass :=
  let sides := [Side.rows (2 * node.length), .rows (2 * node.length)]
  [{ launchColumns node.rowKernel node.n2 context.batch with chunk := node.fusedChunk context, sides := sides },
    { launchColumns node.colKernel node.n1 context.batch with chunk := node.fusedChunk context, sides := sides }]

/- Rows, then columns, over the whole batch. -/
def FourStep.passes (node : FourStep) : List Pass :=
  [launchColumns node.rowKernel node.n2 context.batch, launchColumns node.colKernel node.n1 context.batch]

/- Blocks of one launch of a native transform. -/
def AivKernel.maxBlocks (backend : Backend) : AivKernel → ℕ
  | .fft64 stride groupSize _ =>
    let blocksPerMatrixGroup := if 1 < (groupSize : ℕ) then 64 / (groupSize : ℕ) else if stride = 64 then 64 else 1
    65535 / blocksPerMatrixGroup * blocksPerMatrixGroup
  | .fft256 _ => blockLimitPerLaunch backend
  | _ => 65535

/- Whole groups, of a size the node admits. -/
def AivKernel.admits (batch : ℕ) : AivKernel → Bool
  | .small length groupSize =>
    batch % groupSize == 0 && ((length == 16 && [1, 8].contains (groupSize : ℕ)) || (length == 32 && [1, 4].contains (groupSize : ℕ)))
  | .fft64 _ groupSize radix4Pair =>
    batch % groupSize == 0 && ([1, 4, 8].contains (groupSize : ℕ) || (radix4Pair && [16, 32].contains (groupSize : ℕ)))
  | .fft length groupSize =>
    batch % groupSize == 0 && ((length == 128 && [1, 4, 8, 16].contains (groupSize : ℕ)) ||
      ([1024, 2048].contains length && (groupSize : ℕ) == 1))
  | .fft256 groupSize => batch % groupSize == 0 && [1, 4, 8].contains (groupSize : ℕ)
  | .fft256Real groupSize _ => batch % groupSize == 0 && (groupSize : ℕ) == 8

def AivKernel.passes (kernel : AivKernel) : List Pass :=
  if kernel.admits context.batch = true then
    match kernel with
    | .fft256Real groupSize maxRealBlocks =>
      [{ rows := context.batch / groupSize, spread := .gridStride id (min maxRealBlocks 256) }]
    | .small _ groupSize | .fft64 _ groupSize _ | .fft _ groupSize | .fft256 groupSize =>
      [{ rows := context.batch / groupSize, chunk := some (kernel.maxBlocks context.request.backend)
         spread := .alongX 1 single 1 }]
  else []

/- One stage; the batch is cut so that the butterflies of a chunk fit into one launch. -/
def stockhamPass (length : ℕ) : ℕ × StageKernel → Pass
  | (factor, .jit block) =>
    { rows := context.batch
      chunk := some (max 1 (min context.batch (context.limit / max 1 (ceilDiv (length / factor) block))))
      spread := .alongX (length / factor) block 1, sides := [.rows (2 * length), .rows (2 * length)] }
  | (_, .aiv totalTiles) => { rows := context.batch, spread := .gridStride totalTiles 65535 }

def directDftPass (node : Leaf) : Pass :=
  { rows := context.batch, spread := .alongX 1 node.kernel.batchPerBlock (max 1 node.kernel.gridYOverride) }

/- ensure_b_fft -/
def ensureBFft (fft : Node) (bTime bFftBuf : Allocation) : Step := .call fft (context.child 1 bTime bFftBuf)

def Bluestein.steps (node : Bluestein) (fft : Node) : List Step :=
  let pass columns sides : Pass :=
    { launchBlocks columns context.batch with chunk := some (node.batchChunk : ℕ), sides := sides }
  ensureBFft context fft node.bTime node.bFftBuf ::
    .launch (pass node.convLength [.rows (2 * node.length)]) ::
    .launch (pass node.convLength []) ::
    .launch (pass node.length [.rows (2 * node.length)]) ::
    (batchChunks context.batch node.batchChunk).flatMap fun piece =>
      [.call fft (context.child piece.2 node.aBuf node.workBuf), .call fft (context.child piece.2 node.aBuf node.workBuf)]

/- A real row that is not dense, or is overwritten, goes to the fallback. -/
def realLayoutMisses (kind : RealKind) (length : ℕ) : Bool :=
  let half := length / 2 + 1
  let denseInput := if kind = .r2c then length else half
  let denseOutput := if kind = .r2c then half else length
  context.inPlace || (0 < context.inputDistance && context.inputDistance != denseInput) ||
    (0 < context.outputDistance && context.outputDistance != denseOutput)

def BluesteinFullLeaf.steps (node : BluesteinFullLeaf) (fft : Node) : List Step :=
  [ensureBFft context fft node.bTime node.bFftBuf, .launch (launchRows node.kernel context.batch)]

def BluesteinFourStep.steps (node : BluesteinFourStep) (fft : Node) : List Step :=
  [ensureBFft context fft node.bTime node.bFftBuf,
    .launch (launchColumns node.prepareRowKernel node.n2 context.batch),
    .launch (launchColumns node.firstColKernel node.n1 context.batch),
    .launch (launchColumns node.pointwiseRowKernel node.n2 context.batch),
    .launch (launchColumns node.finishColKernel node.n1 context.batch)]

def Rader.steps (node : Rader) (fft : Node) : List Step :=
  ensureBFft context fft node.bTime node.bFftBuf ::
    match node.route with
    | .fusedLeaf kernel => [.launch (launchRows kernel context.batch)]
    | .boundary prepare finish =>
      [.launch (launchRows prepare context.batch), .launch (launchRows finish context.batch)]
    | .generic =>
      [.launch (launchBlocks node.convLength context.batch),
        .call fft (context.child context.batch node.aBuf node.workBuf),
        .launch (launchBlocks node.convLength context.batch),
        .call fft (context.child context.batch node.aBuf node.workBuf),
        .launch (launchBlocks node.convLength context.batch)]

def FourStepGeneric.batchChunk (node : FourStepGeneric) : ℕ :=
  if context.npu = true then max 1 (min context.batch (context.limit / max 1 (ceilDiv (node.n1 * node.n2) 256)))
  else context.batch

def FourStepGeneric.steps (node : FourStepGeneric) (rowChild colChild : Node) : List Step :=
  let total := node.n1 * node.n2
  let pass : Pass :=
    { launchBlocks total context.batch with
      chunk := some (node.batchChunk context), sides := [.rows (2 * total), .rows (2 * total)] }
  .launch pass :: .launch pass :: .launch pass ::
    (batchChunks context.batch (node.batchChunk context)).flatMap fun piece =>
      let stage1 := node.stage1 - piece.1 * (2 * total)
      let stage2 := node.stage2 - piece.1 * (2 * total)
      [.call rowChild (context.child (piece.2 * node.n2) stage1 stage2),
        .call colChild (context.child (piece.2 * node.n1) stage1 stage2)]

/- The distance of real rows that may lie in the buffer of their spectrum, and of compact rows. -/
def realDistance (distance length : ℕ) : ℕ :=
  if context.inPlace = true then max distance (2 * (length / 2 + 1))
  else if 0 < distance then distance else length

def halfDistance (distance length : ℕ) : ℕ := if 0 < distance then distance else length / 2 + 1

def RealEnds.r2cSteps (node : RealEnds) (fft : Node) : List Step :=
  let inputDistance := realDistance context context.inputDistance node.length
  let outputDistance := halfDistance context.outputDistance node.length
  [.launch (launchGridYChunks context.request.backend node.expandKernel node.length context.batch
      [.rows inputDistance, .rows (2 * node.length)]),
    .call fft { context with inPlace := false, input := node.full1, output := node.full2 },
    -- the output pointer moves by output_distance real elements a row, the kernel by as many complex ones
    .launch (launchGridYChunks context.request.backend node.packKernel (node.length / 2 + 1) context.batch
      [.rows (2 * node.length), ⟨outputDistance, 2 * outputDistance⟩])]

def RealEnds.c2rSteps (node : RealEnds) (fft : Node) : List Step :=
  let inputDistance := halfDistance context.inputDistance node.length
  let outputDistance := realDistance context context.outputDistance node.length
  [.launch (launchGridYChunks context.request.backend node.expandKernel node.length context.batch
      [.rows (2 * inputDistance), .rows (2 * node.length)]),
    .call fft { context with inPlace := false, input := node.full1, output := node.full2 },
    .launch (launchGridYChunks context.request.backend node.packKernel node.length context.batch
      [.rows (2 * node.length), .rows outputDistance])]

/- The ends of a packed transform: a generated kernel or the native one of an NPU, a row group a block. -/
def PackedEnds.pass (node : PackedEnds) (columns : ℕ) : Pass :=
  match node.kernel with
  | some kernel => launchGridRows kernel columns context.batch
  | none =>
    let groupRows := if columns % 4 = 0 then 1 else if columns % 2 = 0 then 2 else 4
    { rows := context.batch, spread := .gridStride (fun count => ceilDiv count groupRows) 65535 }

def PackedEnds.r2cSteps (node : PackedEnds) (fft layoutFallback : Node) : List Step :=
  let half := node.length / 2 + 1
  let outputDistance := halfDistance context.outputDistance node.length
  if (node.kernel.isNone = true ∧ outputDistance ≠ half) ∨ (1 < context.batch ∧ (context.inPlace = true ∨
      (0 < context.inputDistance ∧ context.inputDistance ≠ node.length))) then [.call layoutFallback context]
  else
    [.call fft (context.child context.batch context.input node.packedBuf), .launch (node.pass context half)]

/- batch > 1 && (input == output || (output_distance > 0 && output_distance != length)) -/
def c2rLayoutMisses (length : ℕ) : Prop :=
  1 < context.batch ∧ (context.inPlace = true ∨ (0 < context.outputDistance ∧ context.outputDistance ≠ length))

instance (length : ℕ) : Decidable (c2rLayoutMisses context length) := by
  unfold c2rLayoutMisses
  infer_instance

def PackedEnds.c2rSteps (node : PackedEnds) (fft layoutFallback : Node) : List Step :=
  if c2rLayoutMisses context node.length then [.call layoutFallback context]
  else
    [.launch (node.pass context (node.length / 2)),
      .call fft (context.child context.batch node.packedBuf context.output)]

end RankOne

section Planes
variable (context : Context)

def Plane.steps (node : Plane) (rowFft colFft : Node) : List Step :=
  [.call rowFft (context.child (context.batch * node.n0) context.input node.temp1),
    .launch (node.transposeFwd.launch node.n0 node.n1 context.batch),
    .call colFft (context.child (context.batch * node.n1) node.temp2 node.temp1),
    .launch (node.transposeInv.launch node.n1 node.n0 context.batch)]

def planeRcSteps (n0 n1 : ℕ) (rowFft colFft : Node) (temp1 : Allocation) : List Step :=
  [.call rowFft (context.child (context.batch * n0) context.input temp1),
    .call colFft (context.child (context.batch * n1) temp1 context.output)]

/- A child whose rows lie at given distances. -/
def Context.spaced (batch inputDistance outputDistance : ℕ) (input output : Allocation) : Context :=
  { context.child batch input output with inputDistance := inputDistance, outputDistance := outputDistance }

/- A child that works in place. -/
def Context.within (batch : ℕ) (buffer : Allocation) : Context :=
  { context.child batch buffer buffer with inPlace := true }

def Plane.r2cRowSteps (node : Plane) (rowR2c colFft : Node) : List Step :=
  let half := node.n1 / 2 + 1
  [.call rowR2c (context.spaced (context.batch * node.n0) node.n1 half context.input node.temp1),
    .launch (node.transposeFwd.launch node.n0 half context.batch),
    .call colFft (context.spaced (context.batch * half) node.n0 node.n0 node.temp2 node.temp1),
    .launch (node.transposeInv.launch half node.n0 context.batch)]

def Plane.c2rRowSteps (node : Plane) (colFft rowC2r : Node) : List Step :=
  let half := node.n1 / 2 + 1
  [.launch (node.transposeFwd.launch node.n0 half context.batch),
    .call colFft (context.spaced (context.batch * half) node.n0 node.n0 node.temp1 node.temp2),
    .launch (node.transposeInv.launch half node.n0 context.batch),
    .call rowC2r (context.spaced (context.batch * node.n0) half node.n1 node.temp1 context.output)]

def RealPlane.r2cSteps (node : RealPlane) (rowFft colFft : Node) : List Step :=
  let half := node.n1 / 2 + 1
  let totalRows := context.batch * node.n0
  [.launch (launchGridYChunks context.request.backend node.expandKernel node.n1 totalRows
      [.rows node.n1, .rows (2 * node.n1)]),
    .call rowFft (context.within totalRows node.full),
    .launch (launchGridYChunks context.request.backend node.packKernel half totalRows
      [.rows (2 * node.n1), .rows (2 * half)]),
    .launch (node.transposeFwd.launch node.n0 half context.batch),
    .call colFft (context.child (context.batch * half) node.temp1 node.temp2),
    .launch (node.transposeInv.launch half node.n0 context.batch)]

def RealPlane.c2rSteps (node : RealPlane) (colFft rowFft : Node) : List Step :=
  let half := node.n1 / 2 + 1
  let totalRows := context.batch * node.n0
  [.launch (node.transposeFwd.launch node.n0 half context.batch),
    .call colFft (context.child (context.batch * half) node.temp1 node.temp2),
    .launch (node.transposeInv.launch half node.n0 context.batch),
    .launch (launchGridYChunks context.request.backend node.expandKernel node.n1 totalRows
      [.rows (2 * half), .rows (2 * node.n1)]),
    .call rowFft (context.within totalRows node.full),
    .launch (launchGridYChunks context.request.backend node.packKernel node.n1 totalRows
      [.rows (2 * node.n1), .rows node.n1])]

/- The real ends without chunks: grid_y is the number of rows whatever a block takes. -/
def launchAllRows (kernel : JitKernel) (columns rows : ℕ) : Pass :=
  { rows := rows, spread := .allRows (ceilDiv columns 256) kernel.rowsPerBlock }

def RealRc.r2cSteps (node : RealRc) (rowFft colFft : Node) : List Step :=
  let half := node.n1 / 2 + 1
  let totalRows := context.batch * node.n0
  match node.ends with
  | none =>
    [.call rowFft (context.spaced totalRows node.n1 half context.input node.full),
      .call colFft (context.child (context.batch * half) node.full context.output)]
  | some (expandKernel, packKernel) =>
    [.launch (launchAllRows expandKernel node.n1 totalRows),
      .call rowFft (context.within totalRows node.full),
      .launch (launchAllRows packKernel half totalRows),
      .call colFft (context.within (context.batch * half) context.output)]

def RealRc.c2rSteps (node : RealRc) (colFft rowFft : Node) : List Step :=
  let half := node.n1 / 2 + 1
  let totalRows := context.batch * node.n0
  .call colFft (context.child (context.batch * half) context.input node.half) ::
    match node.ends with
    | none => [.call rowFft (context.spaced totalRows half node.n1 node.half context.output)]
    | some (expandKernel, packKernel) =>
      [.launch (launchAllRows expandKernel node.n1 totalRows),
        .call rowFft (context.within totalRows node.full),
        .launch (launchAllRows packKernel node.n1 totalRows)]

end Planes

section Cubes
variable (context : Context)

inductive CubeBuffer where
  | input
  | output
  | temp1
  | temp2
  deriving DecidableEq

inductive CubeStep where
  | n2 (source target : CubeBuffer)
  | n1 (source target : CubeBuffer)
  | n0 (source target : CubeBuffer)
  | perm (perm : Perm3d)

def optionalPerm (perm : Option Perm3d) : List CubeStep := perm.toList.map .perm

def optionalKernel (kernel : Option JitKernel) : List CubeStep := kernel.toList.map fun kernel => .perm (.triton kernel)

def hybridSteps (perm021 perm210 perm201 : Option JitKernel) : List CubeStep :=
  let first : CubeBuffer := if perm021.isSome then .temp2 else .temp1
  let second : CubeBuffer := if perm021.isSome then .temp1 else .temp2
  let n0Input := if perm210.isSome then first else second
  let n0Output := if perm201.isSome then (if n0Input = .temp1 then .temp2 else .temp1) else .output
  .n2 .input .temp1 :: optionalKernel perm021 ++ .n1 first second :: optionalKernel perm210 ++
    .n0 n0Input n0Output :: optionalKernel perm201

def legacyForward (fusedStore n2Permuted : Bool) (perm021 : JitKernel) (perm210 : Option JitKernel) : List CubeStep :=
  .n2 .input (if n2Permuted then .temp2 else .temp1) ::
    (if fusedStore then (if n2Permuted then [] else [.perm (.triton perm021)]) ++ [.n1 .temp2 .temp1]
      else [.n1 .temp1 .temp2]) ++ optionalKernel perm210 ++
    [.n0 (if perm210.isSome then .temp2 else if fusedStore then .temp1 else .temp2) .output]

def legacyInverse (fusedStore n1StridedInput : Bool) (perm021 : JitKernel) (perm210 : Option JitKernel) : List CubeStep :=
  (if fusedStore then
    (if n1StridedInput then [] else [.perm (.triton perm021)]) ++ [.n1 (if n1StridedInput then .input else .temp1) .temp2]
    else [.n1 .input .temp1]) ++
  (if perm210.isSome then optionalKernel perm210 ++ [.n0 .temp1 .temp2, .n2 .temp2 .output]
    else if fusedStore then [.n0 .temp2 .temp1, .n2 .temp1 .output] else [.n0 .temp1 .temp2, .n2 .temp2 .output])

def realLeafSteps : RealKind → RealLayout → List CubeStep
  | .r2c, .legacy fusedStore n2Permuted _ perm021 perm210 => legacyForward fusedStore n2Permuted perm021 perm210
  | .r2c, .r2cFirstStore permSecond permThird =>
    [.n2 .input .temp2, .n1 .temp2 .temp1, .perm (.triton permSecond), .n0 .temp2 .temp1, .perm (.triton permThird)]
  | .r2c, .fusedStore permFirst => [.n2 .input .temp1, .perm (.triton permFirst), .n1 .temp2 .temp1, .n0 .temp1 .output]
  | .r2c, .transposed permFirst permSecond permThird =>
    [.n2 .input .temp1, .perm (.triton permFirst), .n1 .temp2 .temp1, .perm (.triton permSecond), .n0 .temp2 .temp1,
      .perm (.triton permThird)]
  | .r2c, .strided => [.n2 .input .temp1, .n1 .temp1 .temp2, .n0 .temp2 .output]
  | .c2r, .legacy fusedStore _ n1StridedInput perm021 perm210 => legacyInverse fusedStore n1StridedInput perm021 perm210
  | .c2r, .fusedStore permFirst => [.perm (.triton permFirst), .n1 .temp1 .temp2, .n0 .temp2 .temp1, .n2 .temp1 .output]
  | .c2r, .transposed permFirst permSecond permThird =>
    [.perm (.triton permFirst), .n0 .temp1 .temp2, .perm (.triton permSecond), .n1 .temp1 .temp2,
      .perm (.triton permThird), .n2 .temp1 .output]
  | .c2r, _ => [.n1 .input .temp1, .n0 .temp1 .temp2, .n2 .temp2 .output]

/- Without its first permutation the real rows are stored permuted. -/
def rtrtForward (perm021 perm210 perm201 : Option Perm3d) : List CubeStep :=
  let n0Input : CubeBuffer := if perm210.isSome then .temp2 else .temp1
  let n0Output : CubeBuffer := if perm201.isSome then (if perm210.isSome then .temp1 else .temp2) else .output
  .n2 .input (if perm021.isSome then .temp1 else .temp2) :: optionalPerm perm021 ++ .n1 .temp2 .temp1 ::
    optionalPerm perm210 ++ .n0 n0Input n0Output :: optionalPerm perm201

def rtrtInverse (perm021 : Perm3d) (perm210 perm201 : Option Perm3d) : List CubeStep :=
  .perm perm021 :: .n1 .temp1 .temp2 :: optionalPerm perm210 ++ .n0 .temp1 .temp2 :: optionalPerm perm201 ++
    [.n2 (if perm201.isSome then .temp1 else .temp2) .output]

def CubeSchedule.steps : CubeSchedule → List CubeStep
  | .forward perm021 perm210 perm201 =>
    [.n2 .input .temp1, .perm perm021, .n1 .temp2 .temp1, .perm perm210, .n0 .temp2 .temp1, .perm perm201]
  | .inverse perm120 perm210 perm021 =>
    [.perm perm120, .n0 .temp1 .temp2, .perm perm210, .n1 .temp1 .temp2, .perm perm021, .n2 .temp1 .output]
  | .finalPermutedStore perm021 perm210 =>
    [.n2 .input .temp1, .perm (.triton perm021), .n1 .temp2 .temp1, .perm (.triton perm210), .n0 .temp2 .output]
  | .npuPairFusedStore | .strided => [.n2 .input .temp1, .n1 .temp1 .temp2, .n0 .temp2 .output]
  | .hybrid perm021 perm210 perm201 => hybridSteps perm021 perm210 perm201
  | .realLeaf kind layout => realLeafSteps kind layout
  | .realRtrtForward perm021 perm210 perm201 => rtrtForward perm021 perm210 perm201
  | .realRtrtInverse perm021 perm210 perm201 => rtrtInverse perm021 perm210 perm201

/- The request of the outer axes: an NPU drops the real transform from it. -/
def CubeSchedule.outerRequest (request : Request) : CubeSchedule → Request
  | .realRtrtForward _ _ _ | .realRtrtInverse _ _ _ => if request.backend = .npu then request.complex else request
  | _ => request

def CubeSchedule.n2Distance (n1 : ℕ) : CubeSchedule → ℕ
  | .realRtrtForward none _ _ => n1
  | _ => 0

def Cube.buffer (node : Cube) : CubeBuffer → Allocation
  | .input => context.input
  | .output => context.output
  | .temp1 => node.temp1
  | .temp2 => node.temp2

def Cube.step (node : Cube) (schedule : CubeSchedule) (n2Fft n1Fft n0Fft : Node) : CubeStep → Step
  | .n2 source target =>
    .call n2Fft (context.spaced (context.batch * node.n0 * node.n1) 0 (schedule.n2Distance node.n1)
      (node.buffer context source) (node.buffer context target))
  | .n1 source target =>
    .call n1Fft { context.child (context.batch * node.n0 * node.width) (node.buffer context source)
      (node.buffer context target) with request := schedule.outerRequest context.request }
  | .n0 source target =>
    .call n0Fft { context.child (context.batch * node.n1 * node.width) (node.buffer context source)
      (node.buffer context target) with request := schedule.outerRequest context.request }
  | .perm perm => .launch (launchPerm context.request.backend perm node.n0 node.n1 node.width context.batch)

def Cube.steps (node : Cube) (schedule : CubeSchedule) (n2Fft n1Fft n0Fft : Node) : List Step :=
  schedule.steps.map (node.step context schedule n2Fft n1Fft n0Fft)

/- npu_fused_outer_stores: the outer axes one batch after another. -/
def Cube.fusedOuterSteps (node : Cube) (kind : RealKind) (n2RealFft n1Fft n0Fft : Node) : List Step :=
  let perBatch := 2 * (node.n0 * node.n1 * node.width)
  let outer (source middle target : Allocation) := (List.range context.batch).flatMap fun b =>
    [Step.call n1Fft { context.child (node.n0 * node.width) (source - b * perBatch) (middle - b * perBatch) with
        request := context.request.complex },
      .call n0Fft { context.child (node.n1 * node.width) (middle - b * perBatch) (target - b * perBatch) with
        request := context.request.complex }]
  let perm := Step.launch (launchPerm3dNative context.request.backend node.n0 node.n1 node.width context.batch)
  let n2 source target := Step.call n2RealFft (context.child (context.batch * node.n0 * node.n1) source target)
  match kind with
  | .r2c => n2 context.input node.temp1 :: perm :: outer node.temp2 node.temp1 context.output
  | .c2r => perm :: outer node.temp1 node.temp2 node.temp1 ++ [n2 node.temp1 context.output]

/- The planes of a cube in one launch, a plane a block. -/
def launchPlanes (planes : ℕ) : Pass := { rows := context.batch, spread := .alongX planes single 1 }

/- CompiledRaw3DFusedPlaneNode, and the node for 32 planes -/
def fusedPlaneSteps (planeSize : ℕ) (outerFft : Node) (temp : Allocation) : List Step :=
  [.launch (launchPlanes context planeSize),
    .call outerFft (context.child (context.batch * planeSize * planeSize) temp context.output)]

/- CompiledRaw3DRealFusedPlaneNode, and the node of equal sides -/
def realFusedPlaneSteps (n0 n1 n2 : ℕ) (kind : RealKind) (outerFft : Node) (temp : Allocation) : List Step :=
  let outer := context.batch * n1 * (n2 / 2 + 1)
  match kind with
  | .r2c => [.launch (launchPlanes context n0), .call outerFft (context.child outer temp context.output)]
  | .c2r => [.call outerFft (context.child outer context.input temp), .launch (launchPlanes context n0)]

def Cube.primePlaneSteps (node : Cube) (middleFft : Node) (outputTranspose : JitKernel) : List Step :=
  [.launch (launchPlanes context node.n1),
    .call middleFft (context.child (context.batch * node.n0 * node.width) node.temp1 node.temp2),
    .launch (launchPerm3d context.request.backend outputTranspose (node.n0 * node.n1 * node.width) context.batch)]

/- A batch that is not made of whole cubes is an error. -/
def cubeColumnPasses (outerStride : ℕ) (columns : ℕ+) : List Pass :=
  if context.batch % outerStride = 0 then
    [{ rows := context.batch / outerStride, spread := .alongY (ceilDiv outerStride columns) single }]
  else []

def RealCube.r2cSteps (node : RealCube) (n2Fft n1Fft n0Fft : Node) : List Step :=
  let totalRows := context.batch * node.n0 * node.n1
  let complex : Context := { context with request := context.request.complex }
  let perm perm := Step.launch (launchPerm context.request.backend perm node.n0 node.n1 node.width context.batch)
  [.launch (launchGridYChunks context.request.backend node.expandKernel node.n2 totalRows
      [.rows node.n2, .rows (2 * node.n2)]),
    .call n2Fft (complex.within totalRows node.full),
    .launch (launchGridYChunks context.request.backend node.packKernel node.width totalRows
      [.rows (2 * node.n2), .rows (2 * node.width)]),
    perm node.perm021,
    .call n1Fft (complex.child (context.batch * node.n0 * node.width) node.temp1 node.temp2),
    perm node.perm210,
    .call n0Fft (complex.child (context.batch * node.n1 * node.width) node.temp1 node.temp2),
    perm node.perm201]

def RealCube.c2rSteps (node : RealCube) (n0Fft n1Fft n2Fft : Node) : List Step :=
  let totalRows := context.batch * node.n0 * node.n1
  let complex : Context := { context with request := context.request.complex }
  let perm perm := Step.launch (launchPerm context.request.backend perm node.n0 node.n1 node.width context.batch)
  [perm node.perm201,
    .call n0Fft (complex.child (context.batch * node.n1 * node.width) node.temp1 node.temp2),
    perm node.perm210,
    .call n1Fft (complex.child (context.batch * node.n0 * node.width) node.temp1 node.temp2),
    perm node.perm021,
    .launch (launchGridYChunks context.request.backend node.expandKernel node.n2 totalRows
      [.rows (2 * node.width), .rows (2 * node.n2)]),
    .call n2Fft (complex.within totalRows node.full),
    .launch (launchGridYChunks context.request.backend node.packKernel node.n2 totalRows
      [.rows (2 * node.n2), .rows node.n2])]

end Cubes

def Node.steps (context : Context) : Node → List Step
  | .graph node => [.call node context]
  | .leaf node => [.launch (leafPass context node)]
  | .fourStepFused node => (node.fusedPasses context).map .launch
  | .fourStepStrided node _ => (node.passes context).map .launch
  | .stridedLeaf node _ => [.launch (launchRows node.kernel context.batch)]
  | .stridedDirectDft node _ => [.launch (launchRows node.kernel context.batch)]
  | .npuAiv kernel => (kernel.passes context).map .launch
  | .stockham length stages _ _ _ => stages.map fun stage => .launch (stockhamPass context length stage)
  | .directDft node _ _ => [.launch (directDftPass context node)]
  | .bluestein node fft => node.steps context fft
  | .bluesteinLeaf node fft prepare finish _ =>
    [ensureBFft context fft node.bTime node.bFftBuf, .launch (launchRows prepare context.batch),
      .launch (launchRows finish context.batch)]
  | .bluesteinFullLeaf node fft => node.steps context fft
  | .bluesteinFullLeafReal node kind fft layoutFallback =>
    if realLayoutMisses context kind node.length = true then [.call layoutFallback context] else node.steps context fft
  | .bluesteinFourStep node fft => node.steps context fft
  | .bluesteinFourStepReal node kind fft layoutFallback =>
    if realLayoutMisses context kind node.length = true then [.call layoutFallback context] else node.steps context fft
  | .rader node fft => node.steps context fft
  | .fourStepGeneric node rowChild colChild => node.steps context rowChild colChild
  | .r2c node fft => node.r2cSteps context fft
  | .packedR2c node fft layoutFallback => node.r2cSteps context fft layoutFallback
  | .r2cLeaf node => [.launch (launchRows node.kernel context.batch)]
  | .r2cFourStepHalfOut node expandKernel _ | .c2rFourStepRealOut node expandKernel _ =>
    .launch (launchGridRows expandKernel node.length context.batch) :: (node.passes context).map .launch
  | .r2cFourStepRealInHalfOut node => (node.passes context).map .launch
  | .c2r node fft => node.c2rSteps context fft
  | .packedC2r node fft layoutFallback => node.c2rSteps context fft layoutFallback
  | .packedC2rFusedLeaf node _ layoutFallback =>
    if c2rLayoutMisses context node.length then [.call layoutFallback context]
    else [.launch (launchRows node.kernel context.batch)]
  | .c2rLeaf node => [.launch (launchRows node.kernel context.batch)]
  | .c2rFourStepCompactInRealOut node => (node.passes context).map .launch
  | .plane node rowFft colFft => node.steps context rowFft colFft
  | .planeFused n0 n1 _ => [.launch (launchPlanes context n0), .launch (launchPlanes context n1)]
  | .planeRc n0 n1 rowFft colFft temp1 => planeRcSteps context n0 n1 rowFft colFft temp1
  | .oneDimAs2d fft batch => [.call fft { context with batch := batch, inputDistance := 0, outputDistance := 0 }]
  | .planeR2cRow node rowR2c colFft => node.r2cRowSteps context rowR2c colFft
  | .planeC2rRow node colFft rowC2r => node.c2rRowSteps context colFft rowC2r
  | .planeR2c node rowFft colFft => node.r2cSteps context rowFft colFft
  | .planeC2r node colFft rowFft => node.c2rSteps context colFft rowFft
  | .planeR2cRc node rowFft colFft => node.r2cSteps context rowFft colFft
  | .planeC2rRc node colFft rowFft => node.c2rSteps context colFft rowFft
  | .cube node schedule n2Fft n1Fft n0Fft => node.steps context schedule n2Fft n1Fft n0Fft
  | .cubeRtrtFusedOuter node kind n2RealFft n1Fft n0Fft => node.fusedOuterSteps context kind n2RealFft n1Fft n0Fft
  | .cubeFusedPlane planeSize outerFft temp => fusedPlaneSteps context planeSize outerFft temp
  | .cubeRealFusedPlane n0 n1 n2 kind outerFft temp => realFusedPlaneSteps context n0 n1 n2 kind outerFft temp
  | .cubePrimePlane node middleFft outputTranspose => node.primePlaneSteps context middleFft outputTranspose
  | .cubeFused => [.launch (launchPlanes context 16)]
  | .cubeColumn outerStride columns => (cubeColumnPasses context outerStride columns).map .launch
  | .cubeR2c node n2Fft n1Fft n0Fft => node.r2cSteps context n2Fft n1Fft n0Fft
  | .cubeC2r node n0Fft n1Fft n2Fft => node.c2rSteps context n0Fft n1Fft n2Fft

/- The executions below an execution of the root. -/
inductive Executes : Node → Context → Node → Context → Prop where
  | self (node : Node) (context : Context) : Executes node context node context
  | call {node child reached : Node} {context inner at_ : Context} : .call child inner ∈ node.steps context →
      Executes child inner reached at_ → Executes node context reached at_

/- Something holds of every execution below the root just when it holds of the root and below every child. -/
theorem executesAll {node : Node} {context : Context} {holds : Node → Context → Prop} :
    (∀ reached at_, Executes node context reached at_ → holds reached at_) ↔
      holds node context ∧ ∀ child inner, .call child inner ∈ node.steps context →
        ∀ reached at_, Executes child inner reached at_ → holds reached at_ := by
  constructor
  · intro all
    exact ⟨all _ _ (.self _ _), fun child inner called reached at_ below => all _ _ (.call called below)⟩
  · rintro ⟨here, children⟩ reached at_ below
    cases below with
    | self => exact here
    | call called deeper => exact children _ _ called _ _ deeper

end FlagFft.Exec
