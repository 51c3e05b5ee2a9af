import FlagFft.Compiled.BluesteinFused
import FlagFft.Compiled.FourStep
import FlagFft.Compiled.Rader
import FlagFft.Compiled.Roots
import FlagFft.Direct.Forms
import FlagFft.Leaf.Contiguous
import FlagFft.Plan.RaderUtils

/-! compile_raw_node: a plan tree becomes nodes with buffers and tables of their own, numbered as they are allocated.
Whatever the tree, the compiled node is the transform of every row, call after call. -/
namespace FlagFft.Compiled
open Library.Indexing Library.Stores Library.Dft Library.ArbitraryLength FlagFft.FourStep

/- How a node of arbitrary length is executed: kernels around the transform, or the boundary folded into leaves that the
generator makes for it. -/
inductive BluesteinForm where
  | generic
  | leaf (plan : Leaf.LeafPlan) (preparePack finishPack : ℕ)
  | fourStep (rowLeaf colLeaf : Leaf.LeafPlan) (rowPack colPack : ℕ)

/- A plan with what the generator chooses for its kernels. -/
inductive RawPlan where
  | leaf (plan : Leaf.LeafPlan)
  | directDft (length : ℕ) (form : Direct.DirectDftForm)
  | stockham (factors butterfliesPerBlock : List ℕ)
  | fourStep (rowPlan colPlan : RawPlan) (rowPack colPack : ℕ)
  | bluestein (length : ℕ) (form : BluesteinForm) (fftPlan : RawPlan)
  | rader (prime root : ℕ) (idx : List ℕ) (convPlan : RawPlan)

def RawPlan.length : RawPlan → ℕ
  | .leaf plan => plan.length
  | .directDft length _ => length
  | .stockham factors _ => factors.prod
  | .fourStep rowPlan colPlan _ _ => rowPlan.length * colPlan.length
  | .bluestein length _ _ => length
  | .rader prime _ _ _ => prime

/- The leaves of a fused form are those of the plan below it. -/
def BluesteinForm.Fits : BluesteinForm → RawPlan → Prop
  | .generic, _ => True
  | .leaf plan preparePack finishPack, .leaf below => plan.length = below.length ∧ 0 < preparePack ∧ 0 < finishPack
  | .fourStep rowLeaf colLeaf rowPack colPack, .fourStep (.leaf row) (.leaf col) _ _ =>
    rowLeaf.length = row.length ∧ colLeaf.length = col.length ∧ 0 < rowPack ∧ 0 < colPack
  | _, _ => False

/- What the planner guarantees of every node. -/
def RawPlan.Sound : RawPlan → Prop
  | .leaf _ => True
  | .directDft length form => 0 < length ∧ form.Rows length
  | .stockham factors butterfliesPerBlock => 0 < factors.prod ∧ ∀ block ∈ butterfliesPerBlock, 0 < block
  | .fourStep rowPlan colPlan rowPack colPack => 0 < rowPack ∧ 0 < colPack ∧ rowPlan.Sound ∧ colPlan.Sound
  | .bluestein length form fftPlan =>
    0 < length ∧ length ≤ 94906267 ∧ 2 * length - 1 ≤ fftPlan.length ∧ form.Fits fftPlan ∧ fftPlan.Sound
  | .rader prime root idx convPlan => prime.Prime ∧ 0 < root ∧ root < prime ∧ orderOf (root : ZMod prime) = prime - 1 ∧
      idx = (List.range (prime - 1)).map (fun i => root ^ i % prime) ∧ convPlan.length = prime - 1 ∧ convPlan.Sound

/- The device, the request and the generated code a compilation depends on. -/
structure Compiler where
  adaptor : Adaptor
  target : Target
  elementBytes : ℕ
  schedule : Schedule
  codelets : Direction → ℕ → (ℕ → ℂ) → ℕ → ℂ
  shared : Leaf.Cell → ℂ

/- `next` is the first buffer number that is still free. -/
structure RawNode where
  execute : Execute ℂ
  upload : State ℂ → State ℂ
  next : ℕ

def uploadTable {R : Type*} (buffer count : ℕ) (values : ℕ → R) (m : Memory R) : Memory R := fun a =>
  if a.buffer = buffer ∧ a.offset < count then values a.offset else m a

namespace Compiler
variable (compiler : Compiler)

noncomputable def leafTables (plan : Leaf.LeafPlan) (direction : Direction) : Option (List (ℕ → ℂ)) :=
  (Leaf.leafTables plan (root direction plan.length)).toOption

def leafLaunch (plan : Leaf.LeafPlan) (tables : List (ℕ → ℂ)) (direction : Direction) (src dst : Address) (batch : ℕ) :
    Memory ℂ → Memory ℂ :=
  launch (Leaf.leafKernel plan tables (compiler.codelets direction) src dst batch compiler.shared)
    (compiler.schedule.order (Leaf.leafGrid plan batch))

/- What the program of a leaf makes of one row. -/
def leafRow (plan : Leaf.LeafPlan) (tables : List (ℕ → ℂ)) (direction : Direction) (x : ℕ → ℂ) (k : ℕ) : ℂ :=
  compiler.leafLaunch plan tables direction ⟨0, 0⟩ ⟨1, 0⟩ 1 (fun a => x a.offset) ⟨1, k⟩

/- kBluesteinChunkByteBudget and the limit of blocks per launch -/
def chunkBatch (convLength batch : ℕ) : ℕ :=
  let convBytes := convLength * compiler.elementBytes
  let columns := (convLength + 255) / 256
  min batch (min (max 1 (256 * 1024 * 1024 / max 1 convBytes)) (max 1 (compiler.adaptor.maxLaunchBlocks / max 1 columns)))

end Compiler

def RawPlan.asLeaf : RawPlan → Option Leaf.LeafPlan
  | .leaf plan => some plan
  | _ => none

namespace Compiler
variable (compiler : Compiler)

def bluesteinNode (length convLength chunk first : ℕ) : Bluestein.BluesteinNode where
  convLength := convLength
  chirp := ⟨first, 0⟩
  bTime := ⟨first + 1, 0⟩
  bFftBuf := ⟨first + 2, 0⟩
  workBuf := ⟨first + 3, 0⟩
  aBuf := ⟨first + 4, 0⟩
  length := length
  batchChunk := chunk

def raderNode (prime : ℕ) (idx : List ℕ) (batch first : ℕ) : Rader.RaderNode where
  convLength := prime - 1
  bTime := ⟨first, 0⟩
  aBuf := ⟨first + 1, 0⟩
  workBuf := ⟨first + 2, 0⟩
  bFftBuf := ⟨first + 3, 0⟩
  inputCopy := ⟨first + 4, 0⟩
  length := prime
  idx i := idx.getD i 0
  compiledBatch := batch

noncomputable def leafNode (plan : Leaf.LeafPlan) (tables : List (ℕ → ℂ)) (direction : Direction) (first : ℕ) : RawNode where
  execute src dst batch := onMemory fun m => .ok (compiler.leafLaunch plan tables direction src dst batch m)
  upload := id
  next := first

noncomputable def directNode (node : Direct.DirectDftNode) (direction : Direction) (next : ℕ) : RawNode where
  execute src dst batch := onMemory fun m => .ok (node.execute (root direction node.length) src dst batch compiler.schedule m)
  upload := id
  next := next

/- The scratch buffers of a Stockham node are the next two. -/
def stockhamScratch (factors butterfliesPerBlock : List ℕ) (first : ℕ)
    (sound : 0 < factors.prod ∧ ∀ block ∈ butterfliesPerBlock, 0 < block) : Stockham.Node where
  factors := factors
  butterfliesPerBlock := butterfliesPerBlock
  first := ⟨first, 0⟩
  second := ⟨first + 1, 0⟩
  positive := sound.1
  blocksPositive := sound.2
  scratchApart := (Nat.succ_ne_self first).symm

noncomputable def stockhamNode (node : Stockham.Node) (direction : Direction) (next : ℕ) : RawNode where
  execute src dst batch := onMemory (node.child (compiler.codelets direction) (root direction node.length)
    compiler.schedule compiler.adaptor.blockLimitPerLaunch src dst batch)
  upload := id
  next := next

noncomputable def fusedNode (node : FusedNode) (rowPlan colPlan : Leaf.LeafPlan) (rowTables colTables : List (ℕ → ℂ))
    (direction : Direction) (next : ℕ) : RawNode where
  execute src dst batch := onMemory (node.execute (compiler.leafRow rowPlan rowTables direction)
    (compiler.leafRow colPlan colTables direction) (root direction node.length) compiler.schedule compiler.adaptor batch
    src dst)
  upload := id
  next := next

noncomputable def compileFused (rowPlan colPlan : Leaf.LeafPlan) (rowPack colPack : ℕ) (direction : Direction) (first : ℕ) :
    Option RawNode :=
  if packs : 0 < rowPack ∧ 0 < colPack then do
    let rowTables ← leafTables rowPlan direction
    let colTables ← leafTables colPlan direction
    let node : FusedNode := ⟨rowPlan.length, colPlan.length, compiler.target, rowPack, colPack, ⟨first, 0⟩, packs.1, packs.2⟩
    some (compiler.fusedNode node rowPlan colPlan rowTables colTables direction (first + 1))
  else none

/- The buffers of the stages are allocated behind those of the children. -/
def genericStages (n1 n2 : ℕ) (rowChild colChild : RawNode) : FourStepGenericNode ℂ where
  n1 := n1
  n2 := n2
  rowChild := rowChild.execute
  colChild := colChild.execute
  stage1 := ⟨colChild.next, 0⟩
  stage2 := ⟨colChild.next + 1, 0⟩

noncomputable def genericNode (n1 n2 : ℕ) (rowChild colChild : RawNode) (direction : Direction) : RawNode where
  execute := (genericStages n1 n2 rowChild colChild).execute (root direction (n1 * n2)) compiler.schedule compiler.adaptor
  upload s := colChild.upload (rowChild.upload s)
  next := colChild.next + 2

/- The tables are written when the node is built; its spectrum is not there yet. -/
noncomputable def bluesteinRaw (length convLength chunk : ℕ) (fft : RawNode) (direction : Direction)
    (execute : Bluestein.BluesteinNode → Execute ℂ) : RawNode where
  execute := execute (bluesteinNode length convLength chunk fft.next)
  upload s :=
    let node := bluesteinNode length convLength chunk fft.next
    let s := fft.upload s
    { memory := uploadTable node.bTime.buffer convLength (convolutionTable direction length convLength)
        (uploadTable node.chirp.buffer length (chirpTable direction length) s.memory)
      ready := Function.update s.ready node.bFftBuf.buffer false }
  next := fft.next + 5

/- The transforms of a fused form are forward ones, like those of the child. -/
noncomputable def executeBluestein (fft : Execute ℂ) : BluesteinForm → Option (Bluestein.BluesteinNode → Execute ℂ)
  | .generic => some fun node => node.execute fft compiler.schedule
  | .leaf plan preparePack finishPack =>
    if packs : 0 < preparePack ∧ 0 < finishPack then do
      let tables ← leafTables plan .forward
      some fun node => (Bluestein.BluesteinLeafNode.mk node (compiler.leafRow plan tables .forward) preparePack finishPack
        packs.1 packs.2).execute compiler.schedule fft
    else none
  | .fourStep rowLeaf colLeaf rowPack colPack =>
    if packs : 0 < rowPack ∧ 0 < colPack then do
      let rowTables ← leafTables rowLeaf .forward
      let colTables ← leafTables colLeaf .forward
      some fun node => (Bluestein.BluesteinFourStepNode.mk node rowLeaf.length colLeaf.length compiler.target
        (compiler.leafRow rowLeaf rowTables .forward) (compiler.leafRow colLeaf colTables .forward)
        (root .forward (rowLeaf.length * colLeaf.length)) rowPack colPack packs.1 packs.2).execute compiler.schedule fft
    else none

noncomputable def raderRaw (prime : ℕ) (idx : List ℕ) (batch : ℕ) (fft : RawNode) (direction : Direction) : RawNode where
  execute := (raderNode prime idx batch fft.next).execute fft.execute compiler.schedule
  upload s :=
    let node := raderNode prime idx batch fft.next
    let s := fft.upload s
    { memory := uploadTable node.bTime.buffer (prime - 1) (buildRawRaderConvKernel direction prime idx) s.memory
      ready := Function.update s.ready node.bFftBuf.buffer false }
  next := fft.next + 5

noncomputable def compileRawNode : RawPlan → Direction → ℕ → ℕ → Option RawNode
  | .leaf plan, direction, _, first => (leafTables plan direction).map fun tables => compiler.leafNode plan tables direction first
  | .directDft length form, direction, batch, first =>
    some (compiler.directNode ⟨length, form, ⟨first, 0⟩, batch⟩ direction (first + 1))
  | .stockham factors butterfliesPerBlock, direction, _, first =>
    if sound : 0 < factors.prod ∧ ∀ block ∈ butterfliesPerBlock, 0 < block then
      some (compiler.stockhamNode (stockhamScratch factors butterfliesPerBlock first sound) direction (first + 2))
    else none
  | .fourStep rowPlan colPlan rowPack colPack, direction, batch, first =>
    match rowPlan.asLeaf, colPlan.asLeaf with
    | some rowLeaf, some colLeaf => compiler.compileFused rowLeaf colLeaf rowPack colPack direction first
    | _, _ => do
      let rowChild ← compileRawNode rowPlan direction (batch * colPlan.length) first
      let colChild ← compileRawNode colPlan direction (batch * rowPlan.length) rowChild.next
      some (compiler.genericNode rowPlan.length colPlan.length rowChild colChild direction)
  | .bluestein length form fftPlan, direction, batch, first => do
    let chunk := compiler.chunkBatch fftPlan.length batch
    let fft ← compileRawNode fftPlan .forward chunk first
    let execute ← compiler.executeBluestein fft.execute form
    some (bluesteinRaw length fftPlan.length chunk fft direction execute)
  | .rader prime _ idx convPlan, direction, batch, first => do
    let fft ← compileRawNode convPlan .forward batch first
    if idx.length = prime - 1 then some (compiler.raderRaw prime idx batch fft direction) else none

end Compiler

end FlagFft.Compiled
