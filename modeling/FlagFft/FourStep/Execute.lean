import FlagFft.FourStep.Kernels
import FlagFft.Stockham

/-! The two execution forms of a four-step node. The fused form launches two packed leaf kernels, the
generic form reshapes around two children; chunk by chunk both are the transform of every row. -/
namespace FlagFft.FourStep
open Library.Indexing Library.Stores Library.Dft

structure Adaptor where
  npu : Bool
  maxLaunchBlocks : ℕ
  deriving DecidableEq, Repr

def Adaptor.blockLimitPerLaunch (adaptor : Adaptor) : ℕ := max 1 adaptor.maxLaunchBlocks

structure FusedNode where
  n1 : ℕ
  n2 : ℕ
  target : Target
  rowPack : ℕ
  colPack : ℕ
  stage1 : Address
  rowPackPositive : 0 < rowPack
  colPackPositive : 0 < colPack

namespace FusedNode
variable (node : FusedNode)

def length : ℕ := node.n1 * node.n2

def fusedTwiddle : Bool := tleFusedTwiddle node.target .fourStepRow node.n1 node.n2

def batchChunk (adaptor : Adaptor) (batch : ℕ) : Except Failure ℕ :=
  if adaptor.npu then
    let gridX := max (ceilDiv node.n2 node.rowPack) (ceilDiv node.n1 node.colPack)
    if gridX = 0 ∨ adaptor.maxLaunchBlocks = 0 then .error .execFailed
    else .ok (max 1 (adaptor.maxLaunchBlocks / gridX))
  else .ok batch

section Execute
variable {R : Type*} [CommRing R] (rowFft colFft : (ℕ → R) → ℕ → R) (w : R) (schedule : Schedule)

def launchRow (args : List (Pointer R)) (nbatch : ℕ) (m : Memory R) : Except Failure (Memory R) :=
  match bindArgs (leafKernelParams (includeFourStepTwiddle node.target .fourStepRow node.n1 node.n2)) args with
  | none => .error .execFailed
  | some pointers => .ok ((rowLeaf node.target node.n1 node.n2 node.rowPack nbatch rowFft w pointers).kernel.launch
      (pointers.outPtr.row node.length) nbatch schedule m)

def launchCol (args : List (Pointer R)) (nbatch : ℕ) (m : Memory R) : Except Failure (Memory R) :=
  match bindArgs (leafKernelParams (includeFourStepTwiddle node.target .fourStepCol node.n1 node.n2)) args with
  | none => .error .execFailed
  | some pointers => .ok ((colLeaf node.target node.n1 node.n2 node.colPack nbatch colFft pointers).kernel.launch
      (pointers.outPtr.row node.length) nbatch schedule m)

def rowArgs (input : Address) (stage1 : Address) : List (Pointer R) :=
  let twiddle := buildRawFourStepTwiddle w node.n1 node.n2
  if node.fusedTwiddle then [.buffer input, .table twiddle, .buffer stage1] else [.buffer input, .buffer stage1]

def colArgs (stage1 : Address) (output : Address) : List (Pointer R) :=
  let twiddle := buildRawFourStepTwiddle w node.n1 node.n2
  if node.fusedTwiddle then [.buffer stage1, .buffer output] else [.buffer stage1, .table twiddle, .buffer output]

def executeChunk (input output : Address) (offset count : ℕ) (m : Memory R) : Except Failure (Memory R) :=
  let inputChunk := input.at (offset * node.length)
  let stage1Chunk := node.stage1.at (offset * node.length)
  let outputChunk := output.at (offset * node.length)
  node.launchRow rowFft w schedule (node.rowArgs w inputChunk stage1Chunk) count m >>=
    node.launchCol colFft schedule (node.colArgs w stage1Chunk outputChunk) count

def execute (adaptor : Adaptor) (batch : ℕ) (input output : Address) (m : Memory R) : Except Failure (Memory R) :=
  match node.batchChunk adaptor batch with
  | .error failure => .error failure
  | .ok chunk => chunkLoopM (node.executeChunk rowFft colFft w schedule input output) batch chunk m

end Execute
end FusedNode

structure GenericNode (R : Type*) where
  n1 : ℕ
  n2 : ℕ
  rowChild : Child R
  colChild : Child R
  stage1 : Address
  stage2 : Address

namespace GenericNode
variable {R : Type*} [CommRing R] (node : GenericNode R)

def length : ℕ := node.n1 * node.n2

def batchChunk (adaptor : Adaptor) (batch : ℕ) : ℕ :=
  let gridX := ceilDiv node.length 256
  if adaptor.npu then max 1 (min batch (adaptor.blockLimitPerLaunch / max 1 gridX)) else batch

section Execute
variable (w : R) (schedule : Schedule)

def reshapeIn (input stage1 : Address) (count : ℕ) (m : Memory R) : Except Failure (Memory R) :=
  .ok ((reshapePackKernel node.n1 node.n2 input).launch (stage1.row node.length) count schedule m)

/- Compiled for the block the row child leaves, so with the lengths exchanged. -/
def twiddleReshape (stage2 stage1 : Address) (count : ℕ) (m : Memory R) : Except Failure (Memory R) :=
  .ok ((twiddleReshapePackKernel node.n2 node.n1 stage2 (buildRawFourStepTwiddle w node.n1 node.n2)).launch
    (stage1.row node.length) count schedule m)

def finalPack (stage2 output : Address) (count : ℕ) (m : Memory R) : Except Failure (Memory R) :=
  .ok ((reshapePackKernel node.n1 node.n2 stage2).launch (output.row node.length) count schedule m)

def executeChunk (input output : Address) (offset count : ℕ) (m : Memory R) : Except Failure (Memory R) :=
  let inputChunk := input.at (offset * node.length)
  let outputChunk := output.at (offset * node.length)
  let stage1Chunk := node.stage1.at (offset * node.length)
  let stage2Chunk := node.stage2.at (offset * node.length)
  node.reshapeIn schedule inputChunk stage1Chunk count m >>=
    node.rowChild stage1Chunk stage2Chunk (count * node.n2) >>=
    node.twiddleReshape w schedule stage2Chunk stage1Chunk count >>=
    node.colChild stage1Chunk stage2Chunk (count * node.n1) >>=
    node.finalPack schedule stage2Chunk outputChunk count

def execute (adaptor : Adaptor) (batch : ℕ) (input output : Address) (m : Memory R) : Except Failure (Memory R) :=
  chunkLoopM (node.executeChunk w schedule input output) batch (node.batchChunk adaptor batch) m

end Execute
end GenericNode

section Fused
variable {R : Type*} [CommRing R] {node : FusedNode} {w : R}

/- Host list and kernel parameters agree because the row flag, the column flag and the metadata are
the same predicate. -/
theorem FusedNode.rowArgsBound (i o : Address) :
    ∃ pointers, bindArgs (leafKernelParams (includeFourStepTwiddle node.target .fourStepRow node.n1 node.n2))
      (node.rowArgs w i o) = some pointers ∧ pointers.inPtr = i ∧ pointers.outPtr = o ∧
      TableBound node.target .fourStepRow node.n1 node.n2 w pointers := by
  unfold FusedNode.rowArgs FusedNode.fusedTwiddle tleFusedTwiddle TableBound includeFourStepTwiddle
    fuseTwiddleIntoRow IoMode.strided
  cases useFourStepRowFusedTwiddle node.target node.n1 node.n2 with
  | true => exact ⟨_, rfl, rfl, rfl, fun _ => rfl⟩
  | false => exact ⟨_, rfl, rfl, rfl, fun absent => by simp at absent⟩

theorem FusedNode.colArgsBound (i o : Address) :
    ∃ pointers, bindArgs (leafKernelParams (includeFourStepTwiddle node.target .fourStepCol node.n1 node.n2))
      (node.colArgs w i o) = some pointers ∧ pointers.inPtr = i ∧ pointers.outPtr = o ∧
      TableBound node.target .fourStepCol node.n1 node.n2 w pointers := by
  unfold FusedNode.colArgs FusedNode.fusedTwiddle tleFusedTwiddle TableBound includeFourStepTwiddle
    fuseTwiddleIntoRow IoMode.strided
  cases useFourStepRowFusedTwiddle node.target node.n1 node.n2 with
  | true => exact ⟨_, rfl, rfl, rfl, fun absent => by simp at absent⟩
  | false => exact ⟨_, rfl, rfl, rfl, fun _ => rfl⟩

variable {rowFft colFft : (ℕ → R) → ℕ → R}

theorem rowPassLocal {target : Target} {n1 n2 : ℕ} {v : R} (row : ComputesDft n1 v rowFft) :
    RowLocal (n1 * n2) (n1 * n2) (rowPass target n1 n2 rowFft w) := by
  intro x y same k hk
  have hMod : k % n1 < n1 := Nat.mod_lt _ (Nat.pos_of_mul_pos_right (Nat.zero_lt_of_lt hk))
  have inner : rowFft (fun j => x (j * n2 + k / n1)) (k % n1) = rowFft (fun j => y (j * n2 + k / n1)) (k % n1) :=
    row.rowLocal _ _ (fun j hj => same _ (mulAddLt hj (divLtOfLtMul hk))) _ hMod
  unfold rowPass
  simp only [inner]

theorem colPassLocal {target : Target} {n1 n2 : ℕ} {v : R} (col : ComputesDft n2 v colFft) :
    RowLocal (n1 * n2) (n1 * n2) (colPass target n1 n2 colFft w) := by
  intro x y same k hk
  have hMod : k % n1 < n1 := Nat.mod_lt _ (Nat.pos_of_mul_pos_right (Nat.zero_lt_of_lt hk))
  refine col.rowLocal _ _ (fun j hj => ?_) _ (divLtOfLtMul hk)
  have here : x (j * n1 + k % n1) = y (j * n1 + k % n1) :=
    same _ (by rw [Nat.mul_comm n1]; exact mulAddLt hj hMod)
  simp only [here]

theorem FusedNode.launchRowRun (node : FusedNode) (rowFft : (ℕ → R) → ℕ → R) (w : R) (schedule : Schedule)
    (i o : Address) (count : ℕ)
    (apart : i.buffer ≠ o.buffer) (scratch : Address → Prop) :
    RowRun (node.launchRow rowFft w schedule (node.rowArgs w i o) count) scratch i o node.length node.length count
      (rowPass node.target node.n1 node.n2 rowFft w) := by
  obtain ⟨pointers, bound, rfl, rfl, table⟩ := node.rowArgsBound (w := w) i o
  unfold FusedNode.launchRow
  simp only [bound]
  exact ((rowLeafWrites node.rowPackPositive table).layoutMap Address.rowInjective
    (fun _ _ _ _ => Address.atApart apart _ _) schedule scratch).run

theorem FusedNode.launchColRun (node : FusedNode) (w : R) (schedule : Schedule) {v : R}
    (col : ComputesDft node.n2 v colFft) (i o : Address) (count : ℕ)
    (apart : i.buffer ≠ o.buffer) (scratch : Address → Prop) :
    RowRun (node.launchCol colFft schedule (node.colArgs w i o) count) scratch i o node.length node.length count
      (colPass node.target node.n1 node.n2 colFft w) := by
  obtain ⟨pointers, bound, rfl, rfl, table⟩ := node.colArgsBound (w := w) i o
  unfold FusedNode.launchCol
  simp only [bound]
  exact ((colLeafWrites node.colPackPositive table col).layoutMap Address.rowInjective
    (fun _ _ _ _ => Address.atApart apart _ _) schedule scratch).run

end Fused

section FusedNode
variable {R : Type*} [CommRing R]

/- Both launches of the fused form, whatever chunk they are given. -/
def FusedNode.StagesOk (node : FusedNode) (rowFft colFft : (ℕ → R) → ℕ → R) (w : R) : Prop :=
  ∀ (i o : Address) (count : ℕ), (∃ pointers,
      bindArgs (leafKernelParams (includeFourStepTwiddle node.target .fourStepRow node.n1 node.n2))
        (node.rowArgs w i o) = some pointers ∧
      ((rowLeaf node.target node.n1 node.n2 node.rowPack count rowFft w pointers).kernel.element
        (pointers.outPtr.row node.length)).StageOk (ceilDiv node.n2 node.rowPack * count) (i.row node.length) (o.row node.length) node.length
        node.length count) ∧
    ∃ pointers, bindArgs (leafKernelParams (includeFourStepTwiddle node.target .fourStepCol node.n1 node.n2))
        (node.colArgs w i o) = some pointers ∧
      ((colLeaf node.target node.n1 node.n2 node.colPack count colFft pointers).kernel.element
        (pointers.outPtr.row node.length)).StageOk (ceilDiv node.n1 node.colPack * count) (i.row node.length) (o.row node.length) node.length
        node.length count

structure FusedNode.BuffersOk (node : FusedNode) (input output : Address) : Prop where
  compatible : Compatible input output
  inputApart : input.buffer ≠ node.stage1.buffer
  outputApart : output.buffer ≠ node.stage1.buffer

def FusedNode.scratch (node : FusedNode) (a : Address) : Prop := a.buffer = node.stage1.buffer

variable (node : FusedNode) {rowFft colFft : (ℕ → R) → ℕ → R} {w : R} {schedule : Schedule}

theorem FusedNode.stagesOk (row : ComputesDft node.n1 (w ^ node.n2) rowFft)
    (col : ComputesDft node.n2 (w ^ node.n1) colFft) : node.StagesOk rowFft colFft w := by
  intro i o count
  constructor
  · obtain ⟨pointers, bound, rfl, rfl, table⟩ := node.rowArgsBound (w := w) i o
    exact ⟨pointers, bound, (rowLeafWrites node.rowPackPositive table).stageOk Address.rowInjective (rowPassLocal row)⟩
  · obtain ⟨pointers, bound, rfl, rfl, table⟩ := node.colArgsBound (w := w) i o
    exact ⟨pointers, bound, (colLeafWrites node.colPackPositive table col).stageOk Address.rowInjective (colPassLocal col)⟩

theorem FusedNode.batchChunkOk {adaptor : Adaptor} (batch : ℕ) (n2 : 0 < node.n2)
    (blocks : adaptor.npu → 0 < adaptor.maxLaunchBlocks) :
    ∃ chunk, node.batchChunk adaptor batch = .ok chunk ∧ (0 < batch → 0 < chunk) := by
  have gridX : 0 < ceilDiv node.n2 node.rowPack := (ltCeilDiv node.rowPackPositive).mpr (by simpa using n2)
  unfold FusedNode.batchChunk
  cases npu : adaptor.npu with
  | false => exact ⟨batch, rfl, id⟩
  | true =>
      have limit := blocks npu
      have valid : ¬ (max (ceilDiv node.n2 node.rowPack) (ceilDiv node.n1 node.colPack) = 0 ∨
          adaptor.maxLaunchBlocks = 0) := by omega
      simp only [if_true, if_neg valid]
      exact ⟨_, rfl, fun _ => Nat.lt_of_lt_of_le Nat.one_pos (le_max_left _ _)⟩

theorem FusedNode.computesDft (root : w ^ node.length = 1) (n2 : 0 < node.n2)
    (row : ComputesDft node.n1 (w ^ node.n2) rowFft) (col : ComputesDft node.n2 (w ^ node.n1) colFft)
    {adaptor : Adaptor} (blocks : adaptor.npu → 0 < adaptor.maxLaunchBlocks) (batch : ℕ) {input output : Address}
    (ok : node.BuffersOk input output) :
    RowRun (node.execute rowFft colFft w schedule adaptor batch input output) node.scratch input output
      node.length node.length batch (dft node.length w) := by
  obtain ⟨chunk, chunkOk, positive⟩ := node.batchChunkOk batch n2 blocks
  unfold FusedNode.execute
  simp only [chunkOk]
  refine RowRun.chunked positive (fun x y same k _ => dftCongr same) ?_ (fun _ => ok.inputApart)
    (fun _ => ok.outputApart) fun offset count => ?_
  · cases ok.compatible with
    | inl same => exact .inl ⟨same, rfl⟩
    | inr apart => exact .inr apart
  have first := node.launchRowRun rowFft w schedule (input.at (offset * node.length))
    (node.stage1.at (offset * node.length)) count ok.inputApart node.scratch
  have second := node.launchColRun w schedule col (node.stage1.at (offset * node.length))
    (output.at (offset * node.length)) count ok.outputApart.symm node.scratch
  exact (first.comp second (colPassLocal col) fun _ _ _ _ => rfl).congr fun x k hk =>
    passesComputeDft root row col x hk

end FusedNode

section Generic
variable {R : Type*} [CommRing R]

def GenericNode.StagesOk (node : GenericNode R) (w : R) : Prop :=
  ∀ (i o : Address) (count : ℕ),
    ((reshapePackKernel (R := R) node.n1 node.n2 i).element (o.row node.length)).StageOk
      (ceilDiv node.length 256 * count) (i.row node.length) (o.row node.length) node.length node.length count ∧
    ((twiddleReshapePackKernel node.n2 node.n1 i (buildRawFourStepTwiddle w node.n1 node.n2)).element
      (o.row node.length)).StageOk (ceilDiv node.length 256 * count) (i.row node.length) (o.row node.length)
      node.length node.length count

/- Scratch of the node: its two stage buffers and whatever its children need. -/
def GenericNode.scratch (node : GenericNode R) (child : Address → Prop) (a : Address) : Prop :=
  a.buffer = node.stage1.buffer ∨ a.buffer = node.stage2.buffer ∨ child a

structure GenericNode.BuffersOk (node : GenericNode R) (child : Address → Prop) (input output : Address) : Prop where
  compatible : Compatible input output
  stages : node.stage1.buffer ≠ node.stage2.buffer
  stage1 : ∀ i, ¬ child (node.stage1.at i)
  stage2 : ∀ i, ¬ child (node.stage2.at i)
  input : ∀ i, ¬ node.scratch child (input.at i)
  output : ∀ i, ¬ node.scratch child (output.at i)

variable (node : GenericNode R) {w : R} {schedule : Schedule}

theorem GenericNode.stagesOk : node.StagesOk w := by
  intro i o count
  have swap : node.length = node.n2 * node.n1 := Nat.mul_comm _ _
  refine ⟨reshapePackWrites.stageOk Address.rowInjective reshapeRowLocal, ?_⟩
  rw [swap]
  exact twiddleReshapePackWrites.stageOk Address.rowInjective twiddleReshapeRowLocal

omit [CommRing R] in
theorem GenericNode.batchChunkPositive {adaptor : Adaptor} {batch : ℕ} (positive : 0 < batch) :
    0 < node.batchChunk adaptor batch := by
  unfold GenericNode.batchChunk
  cases adaptor.npu with
  | false => exact positive
  | true => exact Nat.lt_of_lt_of_le Nat.one_pos (le_max_left _ _)

/- Reshape, children and packs on one row: the four-step identity again. -/
theorem genericRow {n1 n2 : ℕ} (root : w ^ (n1 * n2) = 1) (x : ℕ → R) {k : ℕ} (hk : k < n1 * n2) :
    reshapeRow n1 n2 (eachRow n2 (dft n2 (w ^ n1)) (twiddleReshapeRow n2 n1 (buildRawFourStepTwiddle w n1 n2)
      (eachRow n1 (dft n1 (w ^ n2)) (reshapeRow n1 n2 x)))) k = dft (n1 * n2) w x k := by
  have hInner : k % n1 < n1 := Nat.mod_lt _ (Nat.pos_of_mul_pos_right (Nat.zero_lt_of_lt hk))
  have hOut : k / n1 < n2 := Nat.div_lt_of_lt_mul hk
  have value : ∀ j < n2, twiddleReshapeRow n2 n1 (buildRawFourStepTwiddle w n1 n2)
      (eachRow n1 (dft n1 (w ^ n2)) (reshapeRow n1 n2 x)) (k % n1 * n2 + j) =
      dft n1 (w ^ n2) (fun u => x (u * n2 + j)) (k % n1) * w ^ (k % n1 * j) := by
    intro j hj
    unfold twiddleReshapeRow eachRow
    rw [mulAddMod hj, mulAddDiv hj, mulAddDiv hInner, mulAddMod hInner, buildRawFourStepTwiddleAt hj hInner,
      Nat.mul_comm j (k % n1)]
    congr 1
    refine dftCongr fun u hu => ?_
    unfold reshapeRow
    rw [mulAddMod hu, mulAddDiv hu]
  calc reshapeRow n1 n2 _ k
      = dft n2 (w ^ n1) (fun j => dft n1 (w ^ n2) (fun u => x (u * n2 + j)) (k % n1) * w ^ (k % n1 * j))
          (k / n1) := by
        unfold reshapeRow eachRow
        rw [mulAddDiv hOut, mulAddMod hOut]
        exact dftCongr value
    _ = dft (n1 * n2) w x (k % n1 + n1 * (k / n1)) := dftSplit root x (k % n1) (k / n1)
    _ = dft (n1 * n2) w x k := by rw [Nat.mod_add_div]

theorem groupDftLocal {n group : ℕ} {v : R} : RowLocal (group * n) (group * n) (eachRow n (dft n v)) := by
  intro x y same k hk
  refine dftCongr fun j hj => same _ ?_
  exact mulAddLt (Nat.div_lt_of_lt_mul (by rwa [Nat.mul_comm])) hj

section Packs
variable (schedule) (i o : Address) (count : ℕ) (apart : i.buffer ≠ o.buffer) (scratch : Address → Prop)
include apart

omit [CommRing R] in
theorem GenericNode.reshapeInRun :
    RowRun (node.reshapeIn schedule i o count) scratch i o node.length node.length count
      (reshapeRow node.n1 node.n2) :=
  (reshapePackWrites.layoutMap Address.rowInjective (fun _ _ _ _ => Address.atApart apart _ _) schedule scratch).run

theorem GenericNode.twiddleReshapeRun (w : R) :
    RowRun (node.twiddleReshape w schedule i o count) scratch i o node.length node.length count
      (twiddleReshapeRow node.n2 node.n1 (buildRawFourStepTwiddle w node.n1 node.n2)) := by
  have swap : node.length = node.n2 * node.n1 := Nat.mul_comm _ _
  unfold GenericNode.twiddleReshape
  rw [swap]
  exact (twiddleReshapePackWrites.layoutMap Address.rowInjective (fun _ _ _ _ => Address.atApart apart _ _)
    schedule scratch).run

omit [CommRing R] in
theorem GenericNode.finalPackRun :
    RowRun (node.finalPack schedule i o count) scratch i o node.length node.length count
      (reshapeRow node.n1 node.n2) :=
  (reshapePackWrites.layoutMap Address.rowInjective (fun _ _ _ _ => Address.atApart apart _ _) schedule scratch).run

end Packs

theorem GenericNode.executeChunkRun {child : Address → Prop} (root : w ^ node.length = 1)
    (row : node.rowChild.Computes child node.n1 (dft node.n1 (w ^ node.n2)))
    (col : node.colChild.Computes child node.n2 (dft node.n2 (w ^ node.n1))) {input output : Address}
    (ok : node.BuffersOk child input output) (offset count : ℕ) :
    RowRun (node.executeChunk w schedule input output offset count) (node.scratch child)
      (input.at (offset * node.length)) (output.at (offset * node.length)) node.length node.length count
      (dft node.length w) := by
  have swap : node.length = node.n2 * node.n1 := Nat.mul_comm _ _
  have kept : ∀ a, child a → node.scratch child a := fun _ inner => .inr (.inr inner)
  have in1 : ∀ b j, node.scratch child ((node.stage1.at (offset * node.length)).row node.length b j) :=
    fun _ _ => .inl rfl
  have in2 : ∀ b j, node.scratch child ((node.stage2.at (offset * node.length)).row node.length b j) :=
    fun _ _ => .inr (.inl rfl)
  have inputApart : input.buffer ≠ node.stage1.buffer := fun same => ok.input 0 (.inl same)
  have outputApart : output.buffer ≠ node.stage2.buffer := fun same => ok.output 0 (.inr (.inl same))
  have stage12 : Compatible (node.stage1.at (offset * node.length)) (node.stage2.at (offset * node.length)) :=
    .inr ok.stages
  have reshape := node.reshapeInRun schedule (input.at (offset * node.length))
    (node.stage1.at (offset * node.length)) count inputApart (node.scratch child)
  have rows := row.groupRun kept stage12
    (Address.shiftKept ok.stage1 _) (Address.shiftKept ok.stage2 _) count node.n2
  rw [← swap] at rows
  have twiddle := node.twiddleReshapeRun schedule (node.stage2.at (offset * node.length))
    (node.stage1.at (offset * node.length)) count ok.stages.symm (node.scratch child) w
  have cols := col.groupRun kept stage12
    (Address.shiftKept ok.stage1 _) (Address.shiftKept ok.stage2 _) count node.n1
  have pack := node.finalPackRun schedule (node.stage2.at (offset * node.length))
    (output.at (offset * node.length)) count outputApart.symm (node.scratch child)
  have all := (((reshape.comp rows ?_ fun b _ j _ => in1 b j).comp twiddle ?_ fun b _ j _ => in2 b j).comp cols
    groupDftLocal fun b _ j _ => in1 b j).comp pack reshapeRowLocal fun b _ j _ => in2 b j
  · exact all.congr fun x k hk => genericRow root x hk
  all_goals rw [swap]
  · exact groupDftLocal
  · exact twiddleReshapeRowLocal

theorem GenericNode.computesDft {child : Address → Prop} (root : w ^ node.length = 1)
    (row : node.rowChild.Computes child node.n1 (dft node.n1 (w ^ node.n2)))
    (col : node.colChild.Computes child node.n2 (dft node.n2 (w ^ node.n1))) (adaptor : Adaptor) (batch : ℕ)
    {input output : Address} (ok : node.BuffersOk child input output) :
    RowRun (node.execute w schedule adaptor batch input output) (node.scratch child) input output
      node.length node.length batch (dft node.length w) := by
  refine RowRun.chunked node.batchChunkPositive (fun x y same k _ => dftCongr same) ?_ ok.input ok.output
    fun offset count => node.executeChunkRun root row col ok offset count
  cases ok.compatible with
  | inl same => exact .inl ⟨same, rfl⟩
  | inr apart => exact .inr apart

end Generic

/- Both forms are the transform of length n1 * n2 of every batch row. -/
theorem fourStepComputesDft {R : Type*} [CommRing R] (direction : Direction) (w : Rˣ) (schedule : Schedule)
    (adaptor : Adaptor) (batch : ℕ) (input output : Address) :
    (∀ (node : FusedNode) (rowFft colFft : (ℕ → R) → ℕ → R), w ^ node.length = 1 → 2 ≤ node.n1 → 2 ≤ node.n2 →
      ComputesDft node.n1 (direction.root w ^ node.n2) rowFft →
      ComputesDft node.n2 (direction.root w ^ node.n1) colFft →
      (adaptor.npu → 0 < adaptor.maxLaunchBlocks) → node.BuffersOk input output →
      node.StagesOk rowFft colFft (direction.root w) ∧
      RowRun (node.execute rowFft colFft (direction.root w) schedule adaptor batch input output) node.scratch
        input output node.length node.length batch (dft node.length (direction.root w))) ∧
    ∀ (node : GenericNode R) (child : Address → Prop), w ^ node.length = 1 → 2 ≤ node.n1 → 2 ≤ node.n2 →
      node.rowChild.Computes child node.n1 (dft node.n1 (direction.root w ^ node.n2)) →
      node.colChild.Computes child node.n2 (dft node.n2 (direction.root w ^ node.n1)) →
      node.BuffersOk child input output →
      node.StagesOk (direction.root w) ∧
      RowRun (node.execute (direction.root w) schedule adaptor batch input output) (node.scratch child)
        input output node.length node.length batch (dft node.length (direction.root w)) := by
  constructor
  · intro node rowFft colFft root _ n2 row col blocks ok
    exact ⟨node.stagesOk row col,
      node.computesDft (direction.rootPow root) (Nat.lt_of_lt_of_le Nat.two_pos n2) row col blocks batch ok⟩
  · intro node child root _ _ row col ok
    exact ⟨node.stagesOk, node.computesDft (direction.rootPow root) row col adaptor batch ok⟩

def twoByThree : FusedNode where
  n1 := 2
  n2 := 3
  target := ⟨false, false, false⟩
  rowPack := 2
  colPack := 2
  stage1 := ⟨1, 0⟩
  rowPackPositive := Nat.zero_lt_two
  colPackPositive := Nat.zero_lt_two

def stockhamOf (factor : ℕ) (positive : 0 < [factor].prod) : Stockham.Node where
  factors := [factor]
  butterfliesPerBlock := []
  first := ⟨3, 0⟩
  second := ⟨4, 0⟩
  positive := positive
  blocksPositive := by decide
  scratchApart := by decide

def nestedTwoByThree : GenericNode (ZMod 7) where
  n1 := 2
  n2 := 3
  rowChild := (stockhamOf 2 (by decide)).child (fun f => dft f ((6 : ℕ) ^ (2 / f))) (6 : ℕ) ascending 8
  colChild := (stockhamOf 3 (by decide)).child (fun f => dft f ((2 : ℕ) ^ (3 / f))) (2 : ℕ) ascending 8
  stage1 := ⟨1, 0⟩
  stage2 := ⟨2, 0⟩

/- In place on an NPU, four rows of six over the field with seven elements. -/
theorem fourStepComputesDftTwoByThree :
    RowRun (twoByThree.execute (dft 2 6) (dft 3 2) (3 : ZMod 7) ascending ⟨true, 5⟩ 4 ⟨0, 0⟩ ⟨0, 0⟩)
      twoByThree.scratch ⟨0, 0⟩ ⟨0, 0⟩ 6 6 4 (dft 6 3) ∧
    RowRun (nestedTwoByThree.execute (3 : ZMod 7) ascending ⟨true, 5⟩ 4 ⟨0, 0⟩ ⟨0, 0⟩)
      (nestedTwoByThree.scratch fun a => a.buffer = 3 ∨ a.buffer = 4) ⟨0, 0⟩ ⟨0, 0⟩ 6 6 4 (dft 6 3) := by
  have both := fourStepComputesDft .forward (⟨3, 5, by decide, by decide⟩ : (ZMod 7)ˣ) ascending ⟨true, 5⟩ 4
    ⟨0, 0⟩ ⟨0, 0⟩
  constructor
  · exact (both.1 twoByThree (dft 2 6) (dft 3 2) (by decide) (by decide) (by decide) (fun _ _ _ => rfl)
      (fun _ _ _ => rfl) (fun _ => by decide) ⟨.inl rfl, by decide, by decide⟩).2
  · refine (both.2 nestedTwoByThree (fun a => a.buffer = 3 ∨ a.buffer = 4) (by decide) (by decide) (by decide)
      ?_ ?_ ?_).2
    · exact Stockham.childComputes ascending 8 (by decide) (fun _ _ _ _ _ => rfl)
    · exact Stockham.childComputes ascending 8 (by decide) (fun _ _ _ _ _ => rfl)
    · refine ⟨.inl rfl, by decide, ?_, ?_, ?_, ?_⟩
      all_goals
        intro i
        simp [Address.at, GenericNode.scratch, nestedTwoByThree]

end FlagFft.FourStep
