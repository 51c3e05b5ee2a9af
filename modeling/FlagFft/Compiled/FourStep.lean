import FlagFft.Compiled.Machine
import FlagFft.FourStep.Execute

/-! CompiledRawFourStepGenericNode over children that remember: each child keeps its own invariant and leaves that of
the other alone. -/
namespace FlagFft.Compiled
open Library.Indexing Library.Stores Library.Dft FlagFft.FourStep

structure FourStepGenericNode (K : Type*) where
  n1 : ℕ
  n2 : ℕ
  rowChild : Execute K
  colChild : Execute K
  stage1 : Address
  stage2 : Address

namespace FourStepGenericNode
variable {K : Type*} [CommRing K] (node : FourStepGenericNode K) (w : K) (schedule : Schedule)

def length : ℕ := node.n1 * node.n2

def batchChunk (adaptor : Adaptor) (batch : ℕ) : ℕ :=
  let gridX := ceilDiv node.length 256
  if adaptor.npu then max 1 (min batch (adaptor.blockLimitPerLaunch / max 1 gridX)) else batch

def reshapeIn (input stage1 : Address) (count : ℕ) : Program K :=
  onMemory fun m => .ok ((reshapePackKernel node.n1 node.n2 input).launch (stage1.row node.length) count schedule m)

/- Compiled for the block the row child leaves, so with the lengths exchanged. -/
def twiddleReshape (stage2 stage1 : Address) (count : ℕ) : Program K :=
  onMemory fun m => .ok ((twiddleReshapePackKernel node.n2 node.n1 stage2 (buildRawFourStepTwiddle w node.n1 node.n2)).launch
    (stage1.row node.length) count schedule m)

def finalPack (stage2 output : Address) (count : ℕ) : Program K :=
  onMemory fun m => .ok ((reshapePackKernel node.n1 node.n2 stage2).launch (output.row node.length) count schedule m)

def executeChunk (input output : Address) (offset count : ℕ) : Program K := fun s =>
  let inputChunk := input.at (offset * node.length)
  let outputChunk := output.at (offset * node.length)
  let stage1Chunk := node.stage1.at (offset * node.length)
  let stage2Chunk := node.stage2.at (offset * node.length)
  node.reshapeIn schedule inputChunk stage1Chunk count s >>=
    node.rowChild stage1Chunk stage2Chunk (count * node.n2) >>=
    node.twiddleReshape w schedule stage2Chunk stage1Chunk count >>=
    node.colChild stage1Chunk stage2Chunk (count * node.n1) >>=
    node.finalPack schedule stage2Chunk outputChunk count

def execute (adaptor : Adaptor) : Execute K := fun input output batch =>
  chunkPrograms (node.executeChunk w schedule input output) batch (node.batchChunk adaptor batch)

def Owned (rowOwn colOwn : ℕ → Prop) (i : ℕ) : Prop :=
  rowOwn i ∨ colOwn i ∨ i = node.stage1.buffer ∨ i = node.stage2.buffer

/- The stages and the children share nothing. -/
structure Apart (rowOwn colOwn : ℕ → Prop) : Prop where
  stages : node.stage1.buffer ≠ node.stage2.buffer
  children : ∀ i, rowOwn i → ¬ colOwn i
  rowFirst : ¬ rowOwn node.stage1.buffer
  rowSecond : ¬ rowOwn node.stage2.buffer
  colFirst : ¬ colOwn node.stage1.buffer
  colSecond : ¬ colOwn node.stage2.buffer

end FourStepGenericNode

section Run
variable {K : Type*} [CommRing K] {node : FourStepGenericNode K} {w : K} {schedule : Schedule} {rowGood colGood : State K → Prop}
  {rowOwn colOwn : ℕ → Prop} {rowLimit colLimit limit count : ℕ} {rowFft colFft : (ℕ → K) → ℕ → K}

omit [CommRing K] in
/- Anything that stays out of a child's buffers keeps the child's invariant. -/
theorem turnedKeeps {good : State K → Prop} {child : Execute K} {own other : ℕ → Prop} {n m rows : ℕ}
    {row f : (ℕ → K) → ℕ → K} {src dst : Layout} (ok : Transforms child good own n limit row) {s s' : State K}
    (turned : Turned other src dst m rows f s s') (apart : ∀ i, other i → ¬ own i)
    (outside : ∀ b k, ¬ own (dst b k).buffer) (start : good s) : good s' :=
  ok.keeps s s' (fun a inner => turned.frame a (fun out => apart _ out inner) fun b _ k _ same => outside b k (same ▸ inner))
    (fun i inner => turned.flags i fun out => apart i out inner) start

omit [CommRing K] in
theorem packPerforms {op : Memory K → Memory K} {n : ℕ} {f : (ℕ → K) → ℕ → K} {src dst : Address}
    (map : LayoutMap op (fun _ => False) (src.row n) (dst.row n) n count f)
    (row : Transforms node.rowChild rowGood rowOwn node.n1 rowLimit rowFft)
    (col : Transforms node.colChild colGood colOwn node.n2 colLimit colFft)
    (rowFree : ¬ rowOwn dst.buffer) (colFree : ¬ colOwn dst.buffer) :
    Performs (onMemory fun m => .ok (op m)) (fun s => rowGood s ∧ colGood s) (node.Owned rowOwn colOwn) (src.row n) (dst.row n)
      n count f := by
  intro s start
  have turned : Turned (fun _ => False) (src.row n) (dst.row n) n count f s { s with memory := op s.memory } :=
    LayoutMap.turned map (fun _ inner => inner) s
  exact ⟨_, rfl, ⟨turnedKeeps row turned (fun _ none => none.elim) (fun _ _ => rowFree) start.1,
    turnedKeeps col turned (fun _ none => none.elim) (fun _ _ => colFree) start.2⟩,
    turned.writes, fun a _ outside => turned.frame a not_false outside, fun _ _ => rfl⟩

section Packs
variable {i o : Address} (apart : i.buffer ≠ o.buffer)
include apart

omit [CommRing K] in
theorem reshapeMap : LayoutMap ((reshapePackKernel node.n1 node.n2 i).launch (o.row node.length) count schedule)
    (fun _ => False) (i.row node.length) (o.row node.length) node.length count (reshapeRow (R := K) node.n1 node.n2) :=
  reshapePackWrites.layoutMap Address.rowInjective (fun _ _ _ _ => Address.atApart apart _ _) schedule _

theorem twiddleMap : LayoutMap ((twiddleReshapePackKernel node.n2 node.n1 i (buildRawFourStepTwiddle w node.n1 node.n2)).launch
    (o.row node.length) count schedule) (fun _ => False) (i.row node.length) (o.row node.length) node.length count
    (twiddleReshapeRow node.n2 node.n1 (buildRawFourStepTwiddle w node.n1 node.n2)) := by
  have swap : node.length = node.n2 * node.n1 := Nat.mul_comm _ _
  rw [swap]
  exact twiddleReshapePackWrites.layoutMap Address.rowInjective (fun _ _ _ _ => Address.atApart apart _ _) schedule _

end Packs

/- Reshape, rows, twiddle, columns, pack: the four-step identity on the rows of a chunk. -/
theorem chunkPerforms (root : w ^ node.length = 1)
    (row : Transforms node.rowChild rowGood rowOwn node.n1 rowLimit (dft node.n1 (w ^ node.n2)))
    (col : Transforms node.colChild colGood colOwn node.n2 colLimit (dft node.n2 (w ^ node.n1)))
    (apart : node.Apart rowOwn colOwn) {input output : Address} (source : ¬ node.Owned rowOwn colOwn input.buffer)
    (target : ¬ node.Owned rowOwn colOwn output.buffer) (offset : ℕ) (rows : count * node.n2 ≤ rowLimit)
    (cols : count * node.n1 ≤ colLimit) :
    Performs (node.executeChunk w schedule input output offset count) (fun s => rowGood s ∧ colGood s)
      (node.Owned rowOwn colOwn) ((input.at (offset * node.length)).row node.length)
      ((output.at (offset * node.length)).row node.length) node.length count (dft node.length w) := by
  have swap : node.length = node.n2 * node.n1 := Nat.mul_comm _ _
  have outsideRow : ∀ i, ¬ node.Owned rowOwn colOwn i → ¬ rowOwn i := fun i outside inner => outside (.inl inner)
  have outsideCol : ∀ i, ¬ node.Owned rowOwn colOwn i → ¬ colOwn i := fun i outside inner => outside (.inr (.inl inner))
  have inStage1 : input.buffer ≠ node.stage1.buffer := fun same => source (.inr (.inr (.inl same)))
  have outStage2 : output.buffer ≠ node.stage2.buffer := fun same => target (.inr (.inr (.inr same)))
  have in1 : ∀ b j, node.Owned rowOwn colOwn ((node.stage1.at (offset * node.length)).row node.length b j).buffer :=
    fun _ _ => .inr (.inr (.inl rfl))
  have in2 : ∀ b j, node.Owned rowOwn colOwn ((node.stage2.at (offset * node.length)).row node.length b j).buffer :=
    fun _ _ => .inr (.inr (.inr rfl))
  have stage12 : Compatible (node.stage1.at (offset * node.length)) (node.stage2.at (offset * node.length)) :=
    .inr apart.stages
  have reshape : Performs (node.reshapeIn schedule (input.at (offset * node.length)) (node.stage1.at (offset * node.length))
      count) (fun s => rowGood s ∧ colGood s) (node.Owned rowOwn colOwn) _ _ node.length count (reshapeRow node.n1 node.n2) :=
    packPerforms (reshapeMap inStage1) row col apart.rowFirst apart.colFirst
  have rowPass := row.groupRuns stage12 apart.rowFirst apart.rowSecond rows
  rw [← swap] at rowPass
  have rowStep : Performs _ (fun s => rowGood s ∧ colGood s) (node.Owned rowOwn colOwn) _ _ node.length count
      (eachRow node.n1 (dft node.n1 (w ^ node.n2))) :=
    rowPass.within (fun s good => good.1) (fun i inner => .inl inner) fun s s' good after turned =>
      ⟨after, turnedKeeps col turned apart.children (fun _ _ => apart.colSecond) good.2⟩
  have twiddle : Performs (node.twiddleReshape w schedule (node.stage2.at (offset * node.length))
      (node.stage1.at (offset * node.length)) count) (fun s => rowGood s ∧ colGood s) (node.Owned rowOwn colOwn) _ _
      node.length count (twiddleReshapeRow node.n2 node.n1 (buildRawFourStepTwiddle w node.n1 node.n2)) :=
    packPerforms (twiddleMap apart.stages.symm) row col apart.rowFirst apart.colFirst
  have colPass := col.groupRuns stage12 apart.colFirst apart.colSecond cols
  have colStep : Performs _ (fun s => rowGood s ∧ colGood s) (node.Owned rowOwn colOwn) _ _ node.length count
      (eachRow node.n2 (dft node.n2 (w ^ node.n1))) :=
    colPass.within (fun s good => good.2) (fun i inner => .inr (.inl inner)) fun s s' good after turned =>
      ⟨turnedKeeps row turned (fun i inner outer => apart.children i outer inner) (fun _ _ => apart.rowSecond) good.1, after⟩
  have pack : Performs (node.finalPack schedule (node.stage2.at (offset * node.length)) (output.at (offset * node.length))
      count) (fun s => rowGood s ∧ colGood s) (node.Owned rowOwn colOwn) _ _ node.length count (reshapeRow node.n1 node.n2) :=
    packPerforms (reshapeMap outStage2.symm) row col (outsideRow _ target) (outsideCol _ target)
  have all := (((reshape.comp rowStep ?_ fun b _ j _ => in1 b j).comp twiddle ?_ fun b _ j _ => in2 b j).comp colStep
    groupDftLocal fun b _ j _ => in1 b j).comp pack reshapeRowLocal fun b _ j _ => in2 b j
  · exact all.congr fun x k hk => genericRow root x hk
  all_goals rw [swap]
  · exact groupDftLocal
  · exact twiddleReshapeRowLocal

omit [CommRing K] in
theorem batchChunkPositive {adaptor : Adaptor} {batch : ℕ} (positive : 0 < batch) : 0 < node.batchChunk adaptor batch := by
  unfold FourStepGenericNode.batchChunk
  cases adaptor.npu with
  | false => exact positive
  | true => exact Nat.lt_of_lt_of_le Nat.one_pos (le_max_left _ _)

/- The children are compiled for the rows and columns of a whole batch, and are given a chunk of them at a time. -/
theorem fourStepTransforms (root : w ^ node.length = 1)
    (row : Transforms node.rowChild rowGood rowOwn node.n1 (limit * node.n2) (dft node.n1 (w ^ node.n2)))
    (col : Transforms node.colChild colGood colOwn node.n2 (limit * node.n1) (dft node.n2 (w ^ node.n1)))
    (apart : node.Apart rowOwn colOwn) (adaptor : Adaptor) :
    Transforms (node.execute w schedule adaptor) (fun s => rowGood s ∧ colGood s) (node.Owned rowOwn colOwn) node.length limit
      (dft node.length w) := by
  refine ⟨fun src dst batch small compatible source target => ?_, fun s s' memory ready good => ⟨?_, ?_⟩⟩
  · refine Performs.chunked batchChunkPositive (fun _ _ same k _ => dftCongr same) Address.rowInjective
      (fun b _ b' _ apart j hj k hk => compatible.rowApart hj hk apart) (fun _ _ _ _ => source) (fun _ _ _ _ => target)
      fun offset count fits _ => ?_
    rw [← Address.rowFrom, ← Address.rowFrom]
    have within : count ≤ limit := by omega
    exact chunkPerforms root row col apart source target offset (Nat.mul_le_mul_right _ within) (Nat.mul_le_mul_right _ within)
  · exact row.keeps s s' (fun a inner => memory a (.inl inner)) (fun i inner => ready i (.inl inner)) good.1
  · exact col.keeps s s' (fun a inner => memory a (.inr (.inl inner))) (fun i inner => ready i (.inr (.inl inner))) good.2

end Run

end FlagFft.Compiled
