import FlagFft.Batch
import FlagFft.Library.MixedRadix
import Mathlib.Data.ZMod.Basic

/-! The global-memory Stockham transform: one launch per factor between two scratch buffers, the last
into the output. After stage s an element holds a partial transform, its frequency in the low digits. -/
namespace FlagFft.Stockham
open Library.Indexing Library.Stores Library.Dft Library.MixedRadix

/- The compile-time arguments of build_stockham_stage; a span of zero is taken from the launch. -/
structure StageKernel where
  n : ℕ
  radix : ℕ
  stageSpan : ℕ
  block : ℕ
  deriving DecidableEq, Repr

section Kernel
variable {R : Type*} [CommRing R] (kernel : StageKernel) (codelet : (ℕ → R) → ℕ → R) (twiddle : ℕ → R)
  (inPtr outPtr : Address) (spanArg nbatch : ℕ)

def StageKernel.span : ℕ := if kernel.stageSpan = 0 then spanArg else kernel.stageSpan

def stageLoad (m : Memory R) (batch k j digit : ℕ) : R :=
  let value := m (inPtr.at (batch * kernel.n + k + digit * (kernel.n / kernel.radix)))
  if digit = 0 ∨ kernel.stageSpan = 1 then value
  else value * twiddle (digit * j * (kernel.n / (kernel.radix * kernel.span spanArg)))

def stageStores (program : ℕ) (m : Memory R) : List (Store Address R) :=
  (List.range kernel.radix).flatMap fun digit => (List.range kernel.block).flatMap fun lane =>
    let index := program * kernel.block + lane
    if index < nbatch * (kernel.n / kernel.radix) then
      let batch := index / (kernel.n / kernel.radix)
      let k := index % (kernel.n / kernel.radix)
      let j := k % kernel.span spanArg
      let dst := batch * kernel.n + kernel.radix * k - (kernel.radix - 1) * j
      [⟨outPtr.at (dst + digit * kernel.span spanArg),
        codelet (stageLoad kernel twiddle inPtr spanArg m batch k j) digit⟩]
    else []

def stageLaunch (schedule : Schedule) (m : Memory R) : Memory R :=
  runStores (stageStores kernel codelet twiddle inPtr outPtr spanArg nbatch)
    (schedule.order (ceilDiv (nbatch * (kernel.n / kernel.radix)) kernel.block)) m

end Kernel

/- butterfliesPerBlock has one entry per stage; first and second are the node's scratch buffers. -/
structure Node where
  factors : List ℕ
  butterfliesPerBlock : List ℕ
  first : Address
  second : Address
  positive : 0 < factors.prod
  blocksPositive : ∀ block ∈ butterfliesPerBlock, 0 < block
  scratchApart : first.buffer ≠ second.buffer

namespace Node
variable (node : Node)

def length : ℕ := node.factors.prod

def stages : ℕ := node.factors.length

def kernel (stage : ℕ) : StageKernel :=
  ⟨node.length, radixAt node.factors stage, prefixProduct node.factors stage,
    node.butterfliesPerBlock.getD stage 128⟩

def scratch (a : Address) : Prop := a.buffer = node.first.buffer ∨ a.buffer = node.second.buffer

def destination (output : Address) (stage : ℕ) (current : Address) : Address :=
  if stage + 1 = node.stages ∧ current ≠ output then output
  else if stage % 2 = 0 then node.first else node.second

/- values[i] = exp(-+ 2 pi i / n) for i < n; the table ends there. -/
def twiddle {R : Type*} [CommRing R] (w : R) (i : ℕ) : R := if i < node.length then w ^ i else 0

def batchChunk (stage batch blockLimit : ℕ) : ℕ :=
  let programsPerBatch := ceilDiv (node.length / radixAt node.factors stage) (node.kernel stage).block
  max 1 (min batch (blockLimit / max 1 programsPerBatch))

end Node

structure Progress (R : Type*) where
  current : Address
  span : ℕ
  memory : Memory R

section Execute
variable {R : Type*} [CommRing R] (node : Node) (codelets : ℕ → (ℕ → R) → ℕ → R) (w : R)
  (schedule : Schedule) (batch blockLimit : ℕ) (input output : Address)

def runStage (st : Progress R) (stage : ℕ) : Progress R :=
  let factor := radixAt node.factors stage
  let dst := node.destination output stage st.current
  ⟨dst, st.span * factor, chunkLoop (fun offset count =>
      stageLaunch (node.kernel stage) (codelets factor) (node.twiddle w)
        (st.current.at (offset * node.length)) (dst.at (offset * node.length)) st.span count schedule)
    batch (node.batchChunk stage batch blockLimit) st.memory⟩

def runStages (count : ℕ) (m : Memory R) : Progress R :=
  (List.range count).foldl (runStage node codelets w schedule batch blockLimit output) ⟨input, 1, m⟩

def execute (m : Memory R) : Memory R :=
  let st := runStages node codelets w schedule batch blockLimit input output node.stages m
  if st.current ≠ output then copyDeviceToDevice output st.current (batch * node.length) st.memory
  else st.memory

end Execute

section StageRow
variable {R : Type*} [CommRing R] {factors : List ℕ} {stage : ℕ} {w : R}

/- What one stage computes from a row: output o has frequency digits o % (span * radix). -/
def stageRow (factors : List ℕ) (w : R) (stage : ℕ) (x : ℕ → R) (o : ℕ) : R :=
  dft (radixAt factors stage) (w ^ (prefixProduct factors stage * suffixProduct factors (stage + 1)))
    (fun digit => x ((digit * suffixProduct factors (stage + 1) + o / prefixProduct factors (stage + 1)) *
        prefixProduct factors stage + o % prefixProduct factors stage) *
      w ^ (suffixProduct factors (stage + 1) * (o % prefixProduct factors stage * digit)))
    (o / prefixProduct factors stage % radixAt factors stage)

def partialRow (factors : List ℕ) (w : R) (stage : ℕ) (x : ℕ → R) (o : ℕ) : R :=
  partialDft factors w stage x (o % prefixProduct factors stage) (o / prefixProduct factors stage)

theorem partialRowStart (x : ℕ → R) (o : ℕ) : partialRow factors w 0 x o = x o := by
  unfold partialRow
  rw [partialDftStart, prefixProductZero, Nat.div_one]

theorem partialRowEnd (x : ℕ → R) {o : ℕ} (h : o < factors.prod) :
    partialRow factors w factors.length x o = dft factors.prod w x o := by
  unfold partialRow
  rw [prefixProductAll, Nat.mod_eq_of_lt h, Nat.div_eq_of_lt h]
  exact partialDftEnd

theorem stageRowLocal (positive : 0 < factors.prod) (h : stage < factors.length) :
    RowLocal factors.prod factors.prod (stageRow factors w stage) := by
  intro x y same o ho
  obtain ⟨p, _, _⟩ := productsPositive positive h
  have future : o / prefixProduct factors (stage + 1) < suffixProduct factors (stage + 1) := by
    rw [← prefixMulSuffix factors (stage + 1)] at ho
    exact Nat.div_lt_of_lt_mul ho
  refine dftCongr fun digit hd => ?_
  rw [same]
  rw [factorsProd h, Nat.mul_assoc, Nat.mul_comm (prefixProduct factors stage)]
  exact mulAddLt (mulAddLt hd future) (Nat.mod_lt o p)

/- The autosort step: a stage turns partial transforms into partial transforms over one more factor. -/
theorem stageRowStep (root : w ^ factors.prod = 1) (positive : 0 < factors.prod) (h : stage < factors.length)
    (x : ℕ → R) (o : ℕ) :
    stageRow factors w stage (partialRow factors w stage x) o = partialRow factors w (stage + 1) x o := by
  obtain ⟨p, _, _⟩ := productsPositive positive h
  have low := Nat.mod_lt o p
  unfold stageRow partialRow
  rw [prefixProductSucc h, Nat.mod_mul, ← prefixProductSucc h, ← partialDftStep root h, dft]
  refine Finset.sum_congr rfl fun digit _ => ?_
  rw [mulAddMod low, mulAddDiv low]

end StageRow

section Launch
variable {R : Type*} [CommRing R] {node : Node} {stage : ℕ} {w : R} {codelet : (ℕ → R) → ℕ → R}
  {inPtr outPtr : Address} {spanArg nbatch : ℕ}

/- Butterfly (k, q) of a stage stores element l * (span * r) + j + span * q, for k = l * span + j. -/
def position (factors : List ℕ) (stage k q : ℕ) : ℕ :=
  k / prefixProduct factors stage * prefixProduct factors (stage + 1) +
    (k % prefixProduct factors stage + prefixProduct factors stage * q)

theorem kernelSpan (h : stage < node.stages) : (node.kernel stage).span spanArg = prefixProduct node.factors stage := by
  have p := (productsPositive node.positive h).1
  unfold StageKernel.span Node.kernel
  rw [if_neg p.ne']

theorem kernelCount (h : stage < node.stages) : (node.kernel stage).n / (node.kernel stage).radix =
    prefixProduct node.factors stage * suffixProduct node.factors (stage + 1) :=
  codeletCount node.positive h

theorem kernelTwiddleStep (h : stage < node.stages) :
    (node.kernel stage).n / ((node.kernel stage).radix * (node.kernel stage).span spanArg) =
      suffixProduct node.factors (stage + 1) := by
  obtain ⟨p, r, _⟩ := productsPositive node.positive h
  rw [kernelSpan h]
  change node.factors.prod / (radixAt node.factors stage * _) = _
  rw [factorsProd h, Nat.mul_comm (radixAt _ _)]
  exact Nat.mul_div_cancel_left _ (Nat.mul_pos p r)

theorem positionLow (h : stage < node.stages) {k q : ℕ} (hq : q < radixAt node.factors stage) :
    k % prefixProduct node.factors stage + prefixProduct node.factors stage * q <
      prefixProduct node.factors (stage + 1) := by
  have p := (productsPositive node.positive h).1
  rw [prefixProductSucc h]
  exact laneGroupLt (Nat.mod_lt k p) hq

/- The digits of an output position give back its butterfly and output digit. -/
theorem positionDigits (h : stage < node.stages) {k q : ℕ} (hq : q < radixAt node.factors stage) :
    position node.factors stage k q % prefixProduct node.factors stage = k % prefixProduct node.factors stage ∧
      position node.factors stage k q / prefixProduct node.factors stage % radixAt node.factors stage = q ∧
      position node.factors stage k q / prefixProduct node.factors (stage + 1) =
        k / prefixProduct node.factors stage := by
  have p := (productsPositive node.positive h).1
  have low := Nat.mod_lt k p
  have regroup : position node.factors stage k q = k % prefixProduct node.factors stage +
      prefixProduct node.factors stage *
        (k / prefixProduct node.factors stage * radixAt node.factors stage + q) := by
    unfold position
    rw [prefixProductSucc h]
    ring
  refine ⟨?_, ?_, mulAddDiv (positionLow h hq)⟩
  · rw [regroup, laneGroupMod low]
  · rw [regroup, laneGroupDiv low, mulAddMod hq]

theorem positionInside (h : stage < node.stages) {k q : ℕ} (hq : q < radixAt node.factors stage)
    (hk : k < prefixProduct node.factors stage * suffixProduct node.factors (stage + 1)) :
    position node.factors stage k q < node.length := by
  unfold Node.length position
  rw [← prefixMulSuffix node.factors (stage + 1), Nat.mul_comm (prefixProduct node.factors (stage + 1))]
  exact mulAddLt (Nat.div_lt_of_lt_mul hk) (positionLow h hq)

theorem positionFound (h : stage < node.stages) {o : ℕ} (ho : o < node.length) :
    ∃ k q, k < prefixProduct node.factors stage * suffixProduct node.factors (stage + 1) ∧
      q < radixAt node.factors stage ∧ position node.factors stage k q = o := by
  obtain ⟨p, r, _⟩ := productsPositive node.positive h
  have low := Nat.mod_lt o p
  have future : o / prefixProduct node.factors (stage + 1) < suffixProduct node.factors (stage + 1) := by
    unfold Node.length at ho
    rw [← prefixMulSuffix node.factors (stage + 1)] at ho
    exact Nat.div_lt_of_lt_mul ho
  refine ⟨o % prefixProduct node.factors stage + prefixProduct node.factors stage *
      (o / prefixProduct node.factors (stage + 1)),
    o / prefixProduct node.factors stage % radixAt node.factors stage, laneGroupLt low future, Nat.mod_lt _ r, ?_⟩
  unfold position
  rw [laneGroupMod low, laneGroupDiv low, ← Nat.mod_mul, ← prefixProductSucc h, Nat.mul_comm]
  exact Nat.div_add_mod _ _

/- radix * k - (radix - 1) * j drops nothing, since j is at most k. -/
theorem storeOffset (h : stage < node.stages) (batch k q : ℕ) :
    batch * (node.kernel stage).n + (node.kernel stage).radix * k -
        ((node.kernel stage).radix - 1) * (k % (node.kernel stage).span spanArg) +
        q * (node.kernel stage).span spanArg =
      batch * node.length + position node.factors stage k q := by
  have r := (productsPositive node.positive h).2.1
  have split := Nat.div_add_mod k (prefixProduct node.factors stage)
  obtain ⟨predecessor, succ⟩ : ∃ r', radixAt node.factors stage = r' + 1 := ⟨_, (Nat.sub_add_cancel r).symm⟩
  rw [kernelSpan h]
  unfold position
  rw [prefixProductSucc h]
  change batch * node.length + radixAt node.factors stage * k - (radixAt node.factors stage - 1) * _ + _ = _
  rw [succ, Nat.add_sub_cancel]
  have expand : batch * node.length + (predecessor + 1) * k =
      batch * node.length + (k / prefixProduct node.factors stage *
        (prefixProduct node.factors stage * (predecessor + 1)) + k % prefixProduct node.factors stage) +
        predecessor * (k % prefixProduct node.factors stage) := by
    conv_lhs => rw [← split]
    ring
  rw [expand, Nat.add_sub_cancel]
  ring

/- Output digit q of butterfly `index`, with its batch and position written out. -/
def butterflyStore (node : Node) (codelet : (ℕ → R) → ℕ → R) (w : R) (inPtr outPtr : Address)
    (spanArg stage : ℕ) (m : Memory R) (index q : ℕ) : Store Address R :=
  let count := prefixProduct node.factors stage * suffixProduct node.factors (stage + 1)
  ⟨outPtr.row node.length (index / count) (position node.factors stage (index % count) q),
    codelet (stageLoad (node.kernel stage) (node.twiddle w) inPtr spanArg m (index / count) (index % count)
      (index % count % prefixProduct node.factors stage)) q⟩

theorem memStageStores (h : stage < node.stages) {program : ℕ} {m : Memory R} {s : Store Address R} :
    s ∈ stageStores (node.kernel stage) codelet (node.twiddle w) inPtr outPtr spanArg nbatch program m ↔
      ∃ index q, index < nbatch * (prefixProduct node.factors stage * suffixProduct node.factors (stage + 1)) ∧
        q < radixAt node.factors stage ∧
        (∃ lane < (node.kernel stage).block, program * (node.kernel stage).block + lane = index) ∧
        s = butterflyStore node codelet w inPtr outPtr spanArg stage m index q := by
  unfold stageStores butterflyStore
  simp only [List.mem_flatMap, List.mem_range, storeOffset h, kernelCount h]
  constructor
  · intro ⟨q, hq, lane, hlane, hs⟩
    split at hs
    · refine ⟨_, q, by assumption, hq, ⟨lane, hlane, rfl⟩, ?_⟩
      rw [List.mem_singleton.mp hs, kernelSpan h]
      rfl
    · simp at hs
  · intro ⟨index, q, inside, hq, ⟨lane, hlane, place⟩, hs⟩
    subst place
    refine ⟨q, hq, lane, hlane, ?_⟩
    rw [if_pos inside, hs, kernelSpan h]
    exact List.mem_singleton_self _

/- The loaded and twiddled digits of a butterfly. -/
theorem stageLoadEq (h : stage < node.stages) {m : Memory R} {batch k digit : ℕ}
    (hd : digit < radixAt node.factors stage) :
    stageLoad (node.kernel stage) (node.twiddle w) inPtr spanArg m batch k
        (k % prefixProduct node.factors stage) digit =
      m (inPtr.row node.length batch ((digit * suffixProduct node.factors (stage + 1) +
          k / prefixProduct node.factors stage) * prefixProduct node.factors stage +
          k % prefixProduct node.factors stage)) *
        w ^ (suffixProduct node.factors (stage + 1) * (k % prefixProduct node.factors stage * digit)) := by
  obtain ⟨p, r, f⟩ := productsPositive node.positive h
  have low := Nat.mod_lt k p
  have source : inPtr.at (batch * (node.kernel stage).n + k + digit *
      (prefixProduct node.factors stage * suffixProduct node.factors (stage + 1))) =
      inPtr.row node.length batch ((digit * suffixProduct node.factors (stage + 1) +
        k / prefixProduct node.factors stage) * prefixProduct node.factors stage +
        k % prefixProduct node.factors stage) := by
    unfold Address.row
    congr 1
    conv_lhs => rw [← Nat.div_add_mod k (prefixProduct node.factors stage)]
    change batch * node.length + _ + _ = _
    ring
  have bound : digit * (k % prefixProduct node.factors stage) * suffixProduct node.factors (stage + 1) <
      node.length := by
    unfold Node.length
    rw [factorsProd h, Nat.mul_comm (prefixProduct node.factors stage)]
    exact Nat.mul_lt_mul_of_pos_right (Nat.mul_lt_mul'' hd low) f
  unfold stageLoad
  simp only [kernelCount h, kernelTwiddleStep h, source]
  split
  next unit =>
    have trivial : k % prefixProduct node.factors stage * digit = 0 := by
      rcases unit with rfl | span
      · exact Nat.mul_zero _
      · rw [show prefixProduct node.factors stage = 1 from span, Nat.mod_one, Nat.zero_mul]
    rw [trivial, Nat.mul_zero, pow_zero, mul_one]
  next =>
    unfold Node.twiddle
    rw [if_pos bound]
    congr 2
    ring

/- A butterfly output depends only on the row and the position it is stored at. -/
theorem butterflyRow (h : stage < node.stages)
    (butterfly : ∀ v q, q < radixAt node.factors stage → codelet v q =
      dft (radixAt node.factors stage) (w ^ (node.length / radixAt node.factors stage)) v q)
    {m : Memory R} {batch k q : ℕ} (hq : q < radixAt node.factors stage) :
    codelet (stageLoad (node.kernel stage) (node.twiddle w) inPtr spanArg m batch k
        (k % prefixProduct node.factors stage)) q =
      stageRow node.factors w stage (fun j => m (inPtr.row node.length batch j))
        (position node.factors stage k q) := by
  obtain ⟨frequency, digit, future⟩ := positionDigits (k := k) h hq
  have count : node.length / radixAt node.factors stage =
      prefixProduct node.factors stage * suffixProduct node.factors (stage + 1) := codeletCount node.positive h
  rw [butterfly _ q hq, count]
  unfold stageRow
  rw [digit, future, frequency]
  exact dftCongr fun t ht => stageLoadEq h ht

theorem stageLaunchRow (h : stage < node.stages) (blocks : 0 < (node.kernel stage).block)
    (butterfly : ∀ v q, q < radixAt node.factors stage → codelet v q =
      dft (radixAt node.factors stage) (w ^ (node.length / radixAt node.factors stage)) v q)
    (apart : inPtr.buffer ≠ outPtr.buffer) (schedule : Schedule) (scratch : Address → Prop) :
    RowMap (stageLaunch (node.kernel stage) codelet (node.twiddle w) inPtr outPtr spanArg nbatch schedule)
      scratch inPtr outPtr node.length node.length nbatch (stageRow node.factors w stage) := by
  obtain ⟨p, r, f⟩ := productsPositive node.positive h
  have count := Nat.mul_pos p f
  have flat : ∀ m, stageLaunch (node.kernel stage) codelet (node.twiddle w) inPtr outPtr spanArg nbatch schedule m =
      commitAll m ((schedule.order (ceilDiv (nbatch * ((node.kernel stage).n / (node.kernel stage).radix))
        (node.kernel stage).block)).flatMap fun program =>
          stageStores (node.kernel stage) codelet (node.twiddle w) inPtr outPtr spanArg nbatch program m) := by
    intro m
    refine runStoresFlat (fun a => a.buffer = inPtr.buffer) (fun program _ m' same => ?_) ?_
    · have load : ∀ batch k j digit, stageLoad (node.kernel stage) (node.twiddle w) inPtr spanArg m' batch k j digit =
          stageLoad (node.kernel stage) (node.twiddle w) inPtr spanArg m batch k j digit := by
        intro batch k j digit
        have value : ∀ i, m' (inPtr.at i) = m (inPtr.at i) := fun i => same _ rfl
        simp only [stageLoad, value]
      unfold stageStores
      simp only [funext (load _ _ _)]
    · intro program _ s hs source
      obtain ⟨index, q, _, _, _, rfl⟩ := (memStageStores h).mp hs
      exact apart source.symm
  constructor
  · intro m b hb o ho
    obtain ⟨k, q, hk, hq, rfl⟩ := positionFound h ho
    rw [flat m]
    apply commitAllWritten
    · have inside := mulAddLt hb hk
      let index := b * (prefixProduct node.factors stage * suffixProduct node.factors (stage + 1)) + k
      have program : index / (node.kernel stage).block ∈ schedule.order
          (ceilDiv (nbatch * ((node.kernel stage).n / (node.kernel stage).radix)) (node.kernel stage).block) := by
        rw [schedule.mem, ltCeilDiv blocks, kernelCount h]
        exact (Nat.div_mul_le_self _ _).trans_lt inside
      have lane : index / (node.kernel stage).block * (node.kernel stage).block +
          index % (node.kernel stage).block = index := by rw [Nat.mul_comm]; exact Nat.div_add_mod _ _
      refine ⟨butterflyStore node codelet w inPtr outPtr spanArg stage m index q,
        List.mem_flatMap.mpr ⟨_, program, (memStageStores h).mpr
          ⟨index, q, inside, hq, ⟨_, Nat.mod_lt _ blocks, lane⟩, rfl⟩⟩, ?_⟩
      simp only [butterflyStore, index, mulAddDiv hk, mulAddMod hk]
    · intro s hs same
      obtain ⟨program, _, hs⟩ := List.mem_flatMap.mp hs
      obtain ⟨index, q', inside, hq', _, rfl⟩ := (memStageStores h).mp hs
      obtain ⟨batches, positions⟩ := (Address.rowInj (positionInside h hq' (Nat.mod_lt index count)) ho).mp same
      simp only [butterflyStore, butterflyRow h butterfly hq', batches, positions]
  · intro m a kept outside
    rw [flat m]
    refine commitAllUntouched fun s hs same => ?_
    obtain ⟨program, _, hs⟩ := List.mem_flatMap.mp hs
    obtain ⟨index, q, inside, hq, _, rfl⟩ := (memStageStores h).mp hs
    exact outside _ (Nat.div_lt_of_lt_mul (by rwa [Nat.mul_comm] at inside)) _
      (positionInside h hq (Nat.mod_lt index count)) same.symm

end Launch

section Run
variable {R : Type*} [CommRing R] {node : Node} {codelets : ℕ → (ℕ → R) → ℕ → R} {w : R}
  {schedule : Schedule} {batch blockLimit : ℕ} {input output : Address}

def Butterflies (node : Node) (codelets : ℕ → (ℕ → R) → ℕ → R) (w : R) : Prop :=
  ∀ f ∈ node.factors, ∀ v q, q < f → codelets f v q = dft f (w ^ (node.length / f)) v q

/- The scratch buffers are neither the input nor the output, which are equal or apart. -/
structure BuffersOk (node : Node) (input output : Address) : Prop where
  compatible : Compatible input output
  inputKept : ¬ node.scratch input
  outputKept : ¬ node.scratch output

theorem blockPositive (stage : ℕ) : 0 < (node.kernel stage).block := by
  change 0 < node.butterfliesPerBlock.getD stage 128
  by_cases inside : stage < node.butterfliesPerBlock.length
  · rw [List.getD_eq_getElem _ _ inside]
    exact node.blocksPositive _ (List.getElem_mem inside)
  · rw [List.getD_eq_default _ _ (Nat.le_of_not_lt inside)]
    decide

theorem batchChunkPositive (stage : ℕ) : 0 < node.batchChunk stage batch blockLimit :=
  Nat.lt_of_lt_of_le one_pos (le_max_left _ _)

/- Which buffer holds the data before a stage. -/
def Holder (node : Node) (input output : Address) (stage : ℕ) (current : Address) : Prop :=
  if stage = 0 then current = input
  else if stage < node.stages then current = if stage % 2 = 1 then node.first else node.second
  else current = output ∨ current = node.first ∧ input = output ∧ stage = 1

theorem holderStep (ok : BuffersOk node input output) {stage : ℕ} (h : stage < node.stages) {current : Address}
    (holder : Holder node input output stage current) :
    current.buffer ≠ (node.destination output stage current).buffer ∧
      Holder node input output (stage + 1) (node.destination output stage current) := by
  have inputFirst : input.buffer ≠ node.first.buffer := fun same => ok.inputKept (.inl same)
  have outputFirst : output.buffer ≠ node.first.buffer := fun same => ok.outputKept (.inl same)
  have outputSecond : output.buffer ≠ node.second.buffer := fun same => ok.outputKept (.inr same)
  have firstSecond := node.scratchApart
  unfold Holder at holder
  unfold Node.destination Holder
  by_cases start : stage = 0
  · subst start
    rw [if_pos rfl] at holder
    subst holder
    by_cases last : node.stages = 1
    · by_cases inPlace : current = output
      · subst inPlace
        simp [last, inputFirst]
      · have apart := ok.compatible.resolve_left inPlace
        simp [last, inPlace, apart]
    · have more : 1 < node.stages := by omega
      simp [Ne.symm last, inputFirst, more]
  · rw [if_neg start, if_pos h] at holder
    rcases Nat.mod_two_eq_zero_or_one stage with even | odd
    · have next : (stage + 1) % 2 = 1 := by omega
      rw [if_neg (by omega)] at holder
      subst holder
      have differs : node.second ≠ output := fun same => outputSecond (congrArg Address.buffer same).symm
      by_cases last : stage + 1 = node.stages
      · simp [last, differs, outputSecond.symm]
        omega
      · have more : stage + 1 < node.stages := by omega
        simp [last, even, next, more, firstSecond.symm]
    · have next : (stage + 1) % 2 = 0 := by omega
      rw [if_pos odd] at holder
      subst holder
      have differs : node.first ≠ output := fun same => outputFirst (congrArg Address.buffer same).symm
      by_cases last : stage + 1 = node.stages
      · simp [last, differs, outputFirst.symm]
        omega
      · have more : stage + 1 < node.stages := by omega
        simp [last, odd, next, more, firstSecond]

theorem destinationCases (output : Address) (stage : ℕ) (current : Address) :
    node.destination output stage current = output ∨ node.scratch (node.destination output stage current) := by
  unfold Node.destination
  split
  · exact .inl rfl
  · split
    · exact .inr (.inl rfl)
    · exact .inr (.inr rfl)

/- Before a stage the current buffer holds the partial transforms over the earlier factors, and
nothing but scratch and the output rows has changed. -/
structure Invariant (node : Node) (w : R) (batch : ℕ) (input output : Address) (m : Memory R) (stage : ℕ)
    (st : Progress R) : Prop where
  span : st.span = prefixProduct node.factors stage
  holder : Holder node input output stage st.current
  rows : ∀ b < batch, ∀ o < node.length, st.memory (st.current.row node.length b o) =
    partialRow node.factors w stage (fun j => m (input.row node.length b j)) o
  frame : ∀ a, ¬ node.scratch a → (∀ b < batch, ∀ k < node.length, a ≠ output.row node.length b k) →
    st.memory a = m a

theorem runStageRow (schedule : Schedule) (batch blockLimit : ℕ) (butterfly : Butterflies node codelets w) {stage : ℕ} (h : stage < node.stages)
    {current : Address} (apart : current.buffer ≠ (node.destination output stage current).buffer) (span : ℕ) :
    RowMap (fun m => (runStage node codelets w schedule batch blockLimit output ⟨current, span, m⟩ stage).memory)
      (fun _ => False) current (node.destination output stage current) node.length node.length batch
      (stageRow node.factors w stage) := by
  have member : radixAt node.factors stage ∈ node.factors := by
    rw [radixAtEq h]
    exact List.getElem_mem h
  change RowMap (chunkLoop (fun offset count => stageLaunch (node.kernel stage) (codelets (radixAt node.factors stage))
      (node.twiddle w) (current.at (offset * node.length))
      ((node.destination output stage current).at (offset * node.length)) span count schedule)
    batch (node.batchChunk stage batch blockLimit)) _ _ _ node.factors.prod node.factors.prod _ _
  refine chunkedRowMap (fun _ => batchChunkPositive stage) (stageRowLocal (w := w) node.positive h) (.inr apart) ?_ ?_ ?_
  · exact fun _ => not_false
  · exact fun _ => not_false
  intro offset count _
  have shifted : (current.at (offset * node.length)).buffer ≠
      ((node.destination output stage current).at (offset * node.length)).buffer := apart
  exact stageLaunchRow h (blockPositive stage) (butterfly _ member) shifted schedule _

theorem invariantStart (m : Memory R) : Invariant node w batch input output m 0 ⟨input, 1, m⟩ where
  span := rfl
  holder := rfl
  rows b _ o _ := (partialRowStart (fun j => m (input.row node.length b j)) o).symm
  frame _ _ _ := rfl

theorem invariantStep (root : w ^ node.length = 1) (butterfly : Butterflies node codelets w)
    (ok : BuffersOk node input output) {m : Memory R} {stage : ℕ} (h : stage < node.stages) {st : Progress R}
    (before : Invariant node w batch input output m stage st) :
    Invariant node w batch input output m (stage + 1)
      (runStage node codelets w schedule batch blockLimit output st stage) := by
  obtain ⟨apart, holder⟩ := holderStep ok h before.holder
  have launch := runStageRow schedule batch blockLimit butterfly h apart st.span
  refine ⟨?_, holder, ?_, ?_⟩
  · simp only [runStage, before.span, prefixProductSucc h]
  · intro b hb o ho
    refine (launch.writes st.memory b hb o ho).trans ?_
    rw [← stageRowStep root node.positive h]
    exact stageRowLocal node.positive h _ _ (before.rows b hb) o ho
  · intro a kept outside
    refine (launch.frame st.memory a not_false fun b hb k hk same => ?_).trans (before.frame a kept outside)
    rcases destinationCases output stage st.current with there | scratched
    · rw [there] at same
      exact outside b hb k hk same
    · exact kept (same ▸ scratched)

theorem invariantRun (schedule : Schedule) (batch blockLimit : ℕ) (root : w ^ node.length = 1) (butterfly : Butterflies node codelets w)
    (ok : BuffersOk node input output) (m : Memory R) {count : ℕ} (h : count ≤ node.stages) :
    Invariant node w batch input output m count
      (runStages node codelets w schedule batch blockLimit input output count m) := by
  unfold runStages
  induction count with
  | zero => exact invariantStart m
  | succ count ih =>
      rw [List.range_succ, List.foldl_append]
      exact invariantStep root butterfly ok (by omega) (ih (by omega))

theorem executeRowMap (schedule : Schedule) (batch blockLimit : ℕ) (root : w ^ node.length = 1)
    (butterfly : Butterflies node codelets w) (ok : BuffersOk node input output) :
    RowMap (execute node codelets w schedule batch blockLimit input output) node.scratch input output node.length
      node.length batch (dft node.length w) := by
  have run := fun m => invariantRun schedule batch blockLimit root butterfly ok m le_rfl
  refine ⟨fun m b hb k hk => ?_, fun m a kept outside => ?_⟩
  · have rows := ((run m).rows b hb k hk).trans (partialRowEnd _ hk)
    unfold execute
    split
    · exact (copyWrites (mulAddLt hb hk)).trans rows
    next same => rwa [not_not.mp same] at rows
  · have frame := (run m).frame a kept outside
    unfold execute
    split
    · refine (copyFrame fun i hi same => ?_).trans frame
      have positive : 0 < node.length := node.positive
      refine outside (i / node.length) (Nat.div_lt_of_lt_mul (by rwa [Nat.mul_comm] at hi)) (i % node.length)
        (Nat.mod_lt i positive) ?_
      rw [same, Address.row, Nat.mul_comm, Nat.div_add_mod]
    · exact frame

end Run

/- The whole node, in place or out of place, for every factor list, batch and launch limit. -/
theorem stockhamComputesDft {R : Type*} [CommRing R] (node : Node) (direction : Direction) (w : Rˣ)
    (root : w ^ node.length = 1) (codelets : ℕ → (ℕ → R) → ℕ → R)
    (butterfly : Butterflies node codelets (direction.root w)) (schedule : Schedule) (batch blockLimit : ℕ)
    (input output : Address) (ok : BuffersOk node input output) :
    RowMap (execute node codelets (direction.root w) schedule batch blockLimit input output) node.scratch
      input output node.length node.length batch (dft node.length (direction.root w)) ∧
    ∀ m : Memory R, ∀ stage < node.stages,
      (runStages node codelets (direction.root w) schedule batch blockLimit input output stage m).current.buffer ≠
        (node.destination output stage (runStages node codelets (direction.root w) schedule batch blockLimit
          input output stage m).current).buffer := by
  refine ⟨executeRowMap schedule batch blockLimit (direction.rootPow root) butterfly ok, fun m stage h => ?_⟩
  have run := invariantRun schedule batch blockLimit (direction.rootPow root) butterfly ok m h.le
  exact (holderStep ok h run.holder).1

def threeByTwo : Node where
  factors := [3, 2]
  butterfliesPerBlock := [8, 8]
  first := ⟨1, 0⟩
  second := ⟨2, 0⟩
  positive := by decide
  blocksPositive := by decide
  scratchApart := by decide

def counting : Memory (ZMod 7) := fun a => a.offset

/- In place, two batches at a time. -/
theorem stockhamComputesDftThreeByTwo :
    execute threeByTwo (fun f => dft f (5 ^ (6 / f))) 5 ascending 3 2 ⟨0, 0⟩ ⟨0, 0⟩ counting
        ((⟨0, 0⟩ : Address).row 6 2 4) =
      dft 6 5 (fun j => counting ((⟨0, 0⟩ : Address).row 6 2 j)) 4 := by
  have run := (stockhamComputesDft threeByTwo .inverse (⟨3, 5, by decide, by decide⟩ : (ZMod 7)ˣ) (by decide)
    (fun f => dft f (5 ^ (6 / f))) (fun _ _ _ _ _ => rfl) ascending 3 2 ⟨0, 0⟩ ⟨0, 0⟩
    ⟨.inl rfl, by unfold Node.scratch; decide, by unfold Node.scratch; decide⟩).1
  exact run.writes counting 2 (by decide) 4 (by decide)

/- A Stockham node as the child of another node. -/
def Node.child {R : Type*} [CommRing R] (node : Node) (codelets : ℕ → (ℕ → R) → ℕ → R) (w : R)
    (schedule : Schedule) (blockLimit : ℕ) : Child R := fun input output batch m =>
  .ok (execute node codelets w schedule batch blockLimit input output m)

theorem childComputes {R : Type*} [CommRing R] {node : Node} {codelets : ℕ → (ℕ → R) → ℕ → R} {w : R}
    (schedule : Schedule) (blockLimit : ℕ) (root : w ^ node.length = 1) (butterfly : Butterflies node codelets w) :
    (node.child codelets w schedule blockLimit).Computes node.scratch node.length (dft node.length w) := by
  intro src dst batch compatible source target
  exact (executeRowMap schedule batch blockLimit root butterfly ⟨compatible, source 0, target 0⟩).run

end FlagFft.Stockham
