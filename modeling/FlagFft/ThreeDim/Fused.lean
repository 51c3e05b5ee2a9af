import FlagFft.ThreeDim.Inner

/-! The three-dimensional nodes whose leaves may store permuted rows. Where a permutation kernel is present
the leaf before it stores plain rows; where it is absent the leaf's store takes its place. -/
namespace FlagFft.ThreeDim
open Library.Dft Library.Indexing FlagFft.Real FlagFft.TwoDim

section Nodes
variable {S : Type*}

def turnPasses (kernel : Option (Perm3dKernel S)) (elementsPerBatch : ℕ) (context : Context3d) (source target : Address) :
    List (Pass (Work S)) :=
  match kernel with
  | none => []
  | some kernel => [permuteKernelPass kernel elementsPerBatch context source target]

structure Raw3DStridedNode (S : Type*) where
  n0 : ℕ
  n1 : ℕ
  n2 : ℕ
  n2Fft : ContextChild S
  n1Fft : ContextChild S
  n0Fft : ContextChild S
  temp1 : Address
  temp2 : Address

def Raw3DStridedNode.passes (node : Raw3DStridedNode S) (context : Context3d) (input output : Address) :
    List (Pass (Work S)) :=
  [fftPass node.n2Fft (context.batch * node.n0 * node.n1) input node.temp1,
    fftPass node.n1Fft (context.batch * node.n0 * node.n2) node.temp1 node.temp2,
    fftPass node.n0Fft (context.batch * node.n1 * node.n2) node.temp2 output]

def Raw3DStridedNode.execute (node : Raw3DStridedNode S) (context : Context3d) (input output : Address) : Work S :=
  runPasses (node.passes context input output)

structure Raw3DHybridNode (S : Type*) where
  n0 : ℕ
  n1 : ℕ
  n2 : ℕ
  n2Fft : ContextChild S
  n1Fft : ContextChild S
  n0Fft : ContextChild S
  perm210 : Option (Perm3dKernel S)
  perm021 : Option (Perm3dKernel S)
  perm201 : Option (Perm3dKernel S)
  temp1 : Address
  temp2 : Address

section Hybrid
variable (node : Raw3DHybridNode S)

def Raw3DHybridNode.n1Input : Address := if node.perm021.isSome then node.temp2 else node.temp1

def Raw3DHybridNode.n1Output : Address := if node.perm021.isSome then node.temp1 else node.temp2

def Raw3DHybridNode.n0Input : Address := if node.perm210.isSome then node.n1Input else node.n1Output

def Raw3DHybridNode.n0Output (output : Address) : Address :=
  if node.perm201.isSome then if node.n0Input = node.temp1 then node.temp2 else node.temp1 else output

def Raw3DHybridNode.passes (context : Context3d) (input output : Address) : List (Pass (Work S)) :=
  let total := node.n0 * node.n1 * node.n2
  (fftPass node.n2Fft (context.batch * node.n0 * node.n1) input node.temp1 ::
      turnPasses node.perm021 total context node.temp1 node.temp2) ++
    (fftPass node.n1Fft (context.batch * node.n0 * node.n2) node.n1Input node.n1Output ::
      turnPasses node.perm210 total context node.n1Output node.n1Input) ++
    (fftPass node.n0Fft (context.batch * node.n1 * node.n2) node.n0Input (node.n0Output output) ::
      turnPasses node.perm201 total context (node.n0Output output) output)

def Raw3DHybridNode.execute (context : Context3d) (input output : Address) : Work S :=
  runPasses (node.passes context input output)

end Hybrid

inductive RealLayout where
  | legacy
  | strided
  | fusedStore
  | transposed
  | r2cFirstStore
  deriving DecidableEq, Repr

structure Raw3DRealLeafNode (S : Type*) where
  n0 : ℕ
  n1 : ℕ
  n2 : ℕ
  inverse : Bool
  fusedStore : Bool
  n2Permuted : Bool
  n1StridedInput : Bool
  layout : RealLayout
  n2RealFft : ContextChild S
  n1Fft : ContextChild S
  n0Fft : ContextChild S
  perm021 : Perm3dKernel S
  perm210 : Option (Perm3dKernel S)
  permFirst : Perm3dKernel S
  permSecond : Perm3dKernel S
  permThird : Perm3dKernel S
  temp1 : Address
  temp2 : Address

section RealLeaf
variable (node : Raw3DRealLeafNode S) (context : Context3d)

def Raw3DRealLeafNode.packed : ℕ := node.n0 * node.n1 * (node.n2 / 2 + 1)

def Raw3DRealLeafNode.n2Pass : Address → Address → Pass (Work S) :=
  fftPass node.n2RealFft (context.batch * node.n0 * node.n1)

def Raw3DRealLeafNode.n1Pass : Address → Address → Pass (Work S) :=
  fftPass node.n1Fft (context.batch * node.n0 * (node.n2 / 2 + 1))

def Raw3DRealLeafNode.n0Pass : Address → Address → Pass (Work S) :=
  fftPass node.n0Fft (context.batch * node.n1 * (node.n2 / 2 + 1))

def Raw3DRealLeafNode.laidOutPasses (input output : Address) : List (Pass (Work S)) :=
  let n2 := node.n2Pass context
  let n1 := node.n1Pass context
  let n0 := node.n0Pass context
  let permute kernel := permuteKernelPass kernel node.packed context
  if node.inverse = false then
    match node.layout with
    | .r2cFirstStore =>
      [n2 input node.temp2, n1 node.temp2 node.temp1, permute node.permSecond node.temp1 node.temp2,
        n0 node.temp2 node.temp1, permute node.permThird node.temp1 output]
    | .fusedStore =>
      [n2 input node.temp1, permute node.permFirst node.temp1 node.temp2, n1 node.temp2 node.temp1, n0 node.temp1 output]
    | .transposed =>
      [n2 input node.temp1, permute node.permFirst node.temp1 node.temp2, n1 node.temp2 node.temp1,
        permute node.permSecond node.temp1 node.temp2, n0 node.temp2 node.temp1, permute node.permThird node.temp1 output]
    | _ => [n2 input node.temp1, n1 node.temp1 node.temp2, n0 node.temp2 output]
  else
    match node.layout with
    | .fusedStore =>
      [permute node.permFirst input node.temp1, n1 node.temp1 node.temp2, n0 node.temp2 node.temp1, n2 node.temp1 output]
    | .transposed =>
      [permute node.permFirst input node.temp1, n0 node.temp1 node.temp2, permute node.permSecond node.temp2 node.temp1,
        n1 node.temp1 node.temp2, permute node.permThird node.temp2 node.temp1, n2 node.temp1 output]
    | _ => [n1 input node.temp1, n0 node.temp1 node.temp2, n2 node.temp2 output]

def Raw3DRealLeafNode.legacyPasses (input output : Address) : List (Pass (Work S)) :=
  let n2 := node.n2Pass context
  let n1 := node.n1Pass context
  let n0 := node.n0Pass context
  let permute kernel := permuteKernelPass kernel node.packed context
  let turn := turnPasses node.perm210 node.packed context
  if node.inverse = false then
    if node.fusedStore then
      n2 input (if node.n2Permuted then node.temp2 else node.temp1) ::
        (if node.n2Permuted then [] else [permute node.perm021 node.temp1 node.temp2]) ++
        (n1 node.temp2 node.temp1 :: turn node.temp1 node.temp2) ++
        [n0 (if node.perm210.isSome then node.temp2 else node.temp1) output]
    else
      [n2 input (if node.n2Permuted then node.temp2 else node.temp1), n1 node.temp1 node.temp2] ++
        turn node.temp1 node.temp2 ++ [n0 node.temp2 output]
  else
    (if node.fusedStore then
      (if node.n1StridedInput then [] else [permute node.perm021 input node.temp1]) ++
        [n1 (if node.n1StridedInput then input else node.temp1) node.temp2]
    else [n1 input node.temp1]) ++
    (if node.perm210.isSome then
      turn node.temp2 node.temp1 ++ [n0 node.temp1 node.temp2, n2 node.temp2 output]
    else
      [n0 (if node.fusedStore then node.temp2 else node.temp1) (if node.fusedStore then node.temp1 else node.temp2),
        n2 (if node.fusedStore then node.temp1 else node.temp2) output])

def Raw3DRealLeafNode.passes (input output : Address) : List (Pass (Work S)) :=
  if node.layout = .legacy then node.legacyPasses context input output else node.laidOutPasses context input output

def Raw3DRealLeafNode.execute (input output : Address) : Work S := runPasses (node.passes context input output)

end RealLeaf

structure Raw3DRealRTRTNode (S : Type*) where
  n0 : ℕ
  n1 : ℕ
  n2 : ℕ
  inverse : Bool
  n2RealFft : ContextChild S
  n1Fft : ContextChild S
  n0Fft : ContextChild S
  perm021 : Option (Perm3dKernel S)
  perm210 : Option (Perm3dKernel S)
  perm201 : Option (Perm3dKernel S)
  temp1 : Address
  temp2 : Address
  native : Option (NativeTranspose S)
  npuFusedOuterStores : Bool
  npuFusedSmallFinalStore : Bool

/- A kernel that is not there; the vendor's transpose takes its place. -/
def Perm3dKernel.absent : Perm3dKernel S := ⟨0, fun _ _ _ m => m⟩

section RTRT
variable (node : Raw3DRealRTRTNode S) (context : Context3d)

def Raw3DRealRTRTNode.hasPerm021 : Bool := node.perm021.isSome || node.native.isSome

def Raw3DRealRTRTNode.hasPerm210 : Bool := node.perm210.isSome || node.native.isSome

def Raw3DRealRTRTNode.hasPerm201 : Bool :=
  !node.npuFusedSmallFinalStore && (node.perm201.isSome || node.native.isSome)

def Raw3DRealRTRTNode.permute (kernel : Option (Perm3dKernel S)) (d0 d1 d2 : ℕ) (order : AxisOrder) :
    Address → Address → Pass (Work S) :=
  permutePass (kernel.getD .absent) node.native d0 d1 d2 order context

def Raw3DRealRTRTNode.outerStorePasses (input output : Address) : List (Pass (Work S)) :=
  let half := node.n2 / 2 + 1
  let n2 := fftPass node.n2RealFft (context.batch * node.n0 * node.n1)
  let n1 := fftPass node.n1Fft (node.n0 * half)
  let n0 := fftPass node.n0Fft (node.n1 * half)
  let permute := node.permute context node.perm201 node.n0 node.n1 half .a201
  let offset b (p : Address) := p.at (b * (2 * (node.n0 * node.n1 * half)))
  if node.inverse = false then
    [n2 input node.temp1, permute node.temp1 node.temp2] ++ (List.range context.batch).flatMap fun b =>
      [n1 (offset b node.temp2) (offset b node.temp1), n0 (offset b node.temp1) (offset b output)]
  else
    [permute input node.temp1] ++ ((List.range context.batch).flatMap fun b =>
      [n1 (offset b node.temp1) (offset b node.temp2), n0 (offset b node.temp2) (offset b node.temp1)]) ++
      [n2 node.temp1 output]

def Raw3DRealRTRTNode.axisPasses (input output : Address) : List (Pass (Work S)) :=
  let half := node.n2 / 2 + 1
  let n2Rows := context.batch * node.n0 * node.n1
  let n1 := fftPass node.n1Fft (context.batch * node.n0 * half)
  let n0 := fftPass node.n0Fft (context.batch * node.n1 * half)
  let turn021 source target := node.permute context node.perm021 node.n0 node.n1 half .a021 source target
  let turn210 source target :=
    if node.hasPerm210 then [node.permute context node.perm210 node.n0 half node.n1 .a210 source target] else []
  let turn201 source target :=
    if node.hasPerm201 then [node.permute context node.perm201 node.n1 half node.n0 .a201 source target] else []
  if node.inverse = false then
    let n2Output := if node.hasPerm021 then node.temp1 else node.temp2
    let n0Output := if node.hasPerm201 then if node.hasPerm210 then node.temp1 else node.temp2 else output
    .between (fun src dst => node.n2RealFft src dst ⟨n2Rows, 0, if node.hasPerm021 then 0 else node.n1⟩) input n2Output ::
      (if node.hasPerm021 then [turn021 node.temp1 node.temp2] else []) ++
      (n1 node.temp2 node.temp1 :: turn210 node.temp1 node.temp2) ++
      (n0 (if node.hasPerm210 then node.temp2 else node.temp1) n0Output :: turn201 n0Output output)
  else
    [turn021 input node.temp1, n1 node.temp1 node.temp2] ++ turn210 node.temp2 node.temp1 ++
      [n0 node.temp1 node.temp2] ++ turn201 node.temp2 node.temp1 ++
      [fftPass node.n2RealFft n2Rows (if node.hasPerm201 then node.temp1 else node.temp2) output]

def Raw3DRealRTRTNode.passes (input output : Address) : List (Pass (Work S)) :=
  if node.npuFusedOuterStores then node.outerStorePasses context input output else node.axisPasses context input output

def Raw3DRealRTRTNode.execute (input output : Address) : Work S := runPasses (node.passes context input output)

end RTRT

end Nodes

end FlagFft.ThreeDim
