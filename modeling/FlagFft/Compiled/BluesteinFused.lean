import FlagFft.Compiled.Bluestein
import FlagFft.Direct.Kernels
import FlagFft.FourStep.Execute

/-! CompiledRawBluesteinLeafNode and CompiledRawBluesteinFourStepNode: the chirp, the product with the spectrum and the
final scaling are folded into the kernels of the transforms, which go straight from the input to the output. -/
namespace FlagFft.Compiled.Bluestein
open Library.Indexing Library.Stores Library.Dft Library.Convolution Library.ArbitraryLength FlagFft.FourStep

section Steps
variable {K : Type*} [Field K] {node : BluesteinNode} {fft : Execute K} {fftGood : State K → Prop} {child : ℕ → Prop}
  {limit : ℕ} {z v : K}

/- Behind ensure_b_fft come kernels that use the work buffers; a_buf is the stage buffer of the four-step form and is
not used by the leaf form. -/
def BluesteinNode.executeFused (node : BluesteinNode) (fft : Execute K)
    (kernels : Address → Address → ℕ → Memory K → Except Failure (Memory K)) : Execute K := fun input output batch s => do
  let s ← node.ensureBFft fft s
  onMemory (kernels input output batch) s

/- The chirp and the spectrum, where the kernels read them. -/
structure TablesIn (node : BluesteinNode) (z v : K) (m : Memory K) : Prop where
  chirp : ∀ i < node.length, m (node.chirp.at i) = chirp z i
  spectrum : ∀ i < node.convLength,
    m (node.bFftBuf.at i) = dft node.convLength v (mirroredChirp node.length node.convLength z) i

/- Buffers the kernels may write beside the output. -/
def BluesteinNode.Scratch (node : BluesteinNode) (a : Address) : Prop :=
  a.buffer = node.aBuf.buffer ∨ a.buffer = node.workBuf.buffer

structure FusedRun (node : BluesteinNode) (z v : K) (input output : Address) (batch : ℕ) (op : Memory K → Memory K) : Prop where
  writes : ∀ m, TablesIn node z v m → ∀ b < batch, ∀ k < node.length, op m (output.row node.length b k) =
    dft node.length (z * z) (fun j => m (input.row node.length b j)) k
  frame : ∀ m a, ¬ node.Scratch a → (∀ b < batch, ∀ k < node.length, a ≠ output.row node.length b k) → op m a = m a

def FusedKernels (node : BluesteinNode) (child : ℕ → Prop) (z v : K)
    (kernels : Address → Address → ℕ → Memory K → Except Failure (Memory K)) : Prop :=
  ∀ input output batch, Placed node child input output →
    ∃ op, (∀ m, kernels input output batch m = .ok (op m)) ∧ FusedRun node z v input output batch op

/- The spectrum is computed on the first call, the kernels run on every call. -/
theorem fusedTransforms {kernels : Address → Address → ℕ → Memory K → Except Failure (Memory K)}
    (ok : Transforms fft fftGood child node.convLength limit (dft node.convLength v)) (fresh : Fresh node child)
    (several : 1 ≤ limit) (steps : FusedKernels node child z v kernels) (bound : ℕ) :
    Transforms (node.executeFused fft kernels) (node.Good fftGood z v) (node.Owned child) node.length bound
      (dft node.length (z * z)) := by
  refine ⟨fun src dst batch _ _ source target s good => ?_, bluesteinKeeps ok⟩
  obtain ⟨ready, ensured, convolution, set, kept, flags⟩ := ensureBFftRuns ok fresh.apart several good.convolution
  obtain ⟨op, returns, run⟩ := steps src dst batch ⟨source, target⟩
  have outer : ∀ a : Address, ¬ node.Own child a.buffer → ready.memory a = s.memory a :=
    fun a outside => kept a (fun inner => outside (.inl inner)) (outsideSpectrum outside)
  have goodReady : node.Good fftGood z v ready :=
    ⟨convolution, fun i inside => (outer (node.chirp.at i) fresh.chirp).trans (good.chirp i inside)⟩
  have tables : TablesIn node z v ready.memory := ⟨goodReady.chirp, convolution.spectrum set⟩
  have unused : ∀ a : Address, node.Guarded child a.buffer ∨ a.buffer = node.chirp.buffer → ¬ node.Scratch a := by
    rintro a (inner | same) (here | here)
    · exact fresh.apart.aFree (here ▸ inner)
    · exact fresh.apart.workFree (here ▸ inner)
    · exact outsideA fresh.chirp (same.symm.trans here)
    · exact outsideWork fresh.chirp (same.symm.trans here)
  have outside : ∀ a : Address, node.Guarded child a.buffer ∨ a.buffer = node.chirp.buffer → a.buffer ≠ dst.buffer := by
    rintro a (inner | same)
    · exact outsideGuarded (fun here => target (.inl here)) inner
    · exact fun here => target (.inr (here.symm.trans same))
  refine ⟨{ ready with memory := op ready.memory }, ?_, ?_, ?_, ?_, ?_⟩
  · unfold BluesteinNode.executeFused
    rw [ensured]
    change onMemory (kernels src dst batch) ready = _
    rw [onMemory, returns]
    rfl
  · exact goodReady.changed ok fun a inner =>
      run.frame _ a (unused a inner) fun _ _ _ _ same => outside a inner (same ▸ rfl)
  · intro b hb k hk
    refine (run.writes _ tables b hb k hk).trans (dftCongr fun j _ => ?_)
    exact outer (src.row node.length b j) fun inner => source (.inl inner)
  · intro a notOwned beside
    have notScratch : ¬ node.Scratch a := by
      rintro (same | same)
      · exact outsideA (fun inner => notOwned (.inl inner)) same
      · exact outsideWork (fun inner => notOwned (.inl inner)) same
    exact (run.frame _ a notScratch beside).trans (outer a fun inner => notOwned (.inl inner))
  · exact fun i notOwned => flags i (fun inner => notOwned (.inl (.inl inner))) fun same =>
      notOwned (.inl (.inr (.inr (.inr (.inr same)))))

/- The row a fused form makes: transform, product, transform, and the chirp around them. -/
theorem fusedRow [StarRing K] (roots : BluesteinRoots node z v) {x first second : ℕ → K}
    (spectra : ∀ k < node.convLength, first k = dft node.convLength v (chirped node.length z x) k)
    (product : ∀ k < node.convLength, second k = dft node.convLength v (fun i =>
      star (first i * dft node.convLength v (mirroredChirp node.length node.convLength z) i)) k) {k : ℕ} (hk : k < node.length) :
    star (second k) / node.convLength * chirp z k = dft node.length (z * z) x k := by
  have wide := roots.room
  have inside : k < node.convLength := by omega
  have middle : second k = dft node.convLength v (fun i => star (dft node.convLength v (chirped node.length z x) i *
      dft node.convLength v (mirroredChirp node.length node.convLength z) i)) k :=
    (product k inside).trans (dftCongr fun i hi => by rw [spectra i hi])
  rw [middle, forwardConvolution roots.primitive roots.unit roots.length _ _ inside, mul_div_cancel_left₀ _ roots.length,
    chirpTransform roots.nonzero roots.room _ hk]

end Steps

/- The rows of a batch, `pack` of them in each program, each transformed by a leaf. -/
section Leaf
variable {K : Type*} [Field K] [StarRing K]

/- bluestein_prepare_leaf: behind the row lies the chirp. -/
def prepareLeafKernel (n m pack nbatch : ℕ) (leaf : (ℕ → K) → ℕ → K) : Direct.LineKernel K where
  lines := pack
  outputs := m
  gridX := ceilDiv nbatch pack
  gridY := 1
  length := m
  live _ row := row < nbatch
  value x := leaf fun i => if i < n then x i * x (n + i) else 0

/- bluestein_finish_leaf: behind the row lie the spectrum and the chirp; only the first `n` outputs are stored. -/
def finishLeafKernel (n m pack nbatch : ℕ) (leaf : (ℕ → K) → ℕ → K) : Direct.LineKernel K where
  lines := pack
  outputs := m
  gridX := ceilDiv nbatch pack
  gridY := 1
  length := n
  live _ row := row < nbatch
  value x k := star (leaf (fun i => star (x i * x (m + i))) k) / m * x (m + m + k)

/- The leaf of the convolution length, and how many rows each of the two kernels takes. -/
structure BluesteinLeafNode (K : Type*) extends BluesteinNode where
  leaf : (ℕ → K) → ℕ → K
  preparePack : ℕ
  finishPack : ℕ
  preparePositive : 0 < preparePack
  finishPositive : 0 < finishPack

namespace BluesteinLeafNode
variable (node : BluesteinLeafNode K) (schedule : Schedule)

def prepare (input : Address) (batch : ℕ) : Memory K → Memory K :=
  (prepareLeafKernel node.length node.convLength node.preparePack batch node.leaf).launch
    (besideTable node.length (input.row node.length) node.chirp) (node.workBuf.row node.convLength) schedule

def finish (output : Address) (batch : ℕ) : Memory K → Memory K :=
  (finishLeafKernel node.length node.convLength node.finishPack batch node.leaf).launch
    (besideTable (node.convLength + node.convLength) (besideTable node.convLength (node.workBuf.row node.convLength)
      node.bFftBuf) node.chirp) (output.row node.length) schedule

def kernels (input output : Address) (batch : ℕ) (m : Memory K) : Except Failure (Memory K) :=
  .ok (node.finish schedule output batch (node.prepare schedule input batch m))

def execute (fft : Execute K) : Execute K := node.executeFused fft (node.kernels schedule)

end BluesteinLeafNode

variable {child : ℕ → Prop} {z v : K} {input output : Address}

omit [Field K] [StarRing K] in
/- Whole rows, some in each program. -/
theorem packedRowsCover {kernel : Direct.LineKernel K} {pack m batch : ℕ} (positive : 0 < pack) (lines : kernel.lines = pack)
    (outputs : kernel.outputs = m) (gridX : kernel.gridX = ceilDiv batch pack) (gridY : kernel.gridY = 1)
    (inside : kernel.length ≤ m) (some_ : 0 < m) (live : ∀ x row, kernel.live x row = decide (row < batch)) :
    kernel.Covers batch where
  lines := lines ▸ positive
  outputs := outputs ▸ some_
  live x l _ := by rw [live, decide_eq_true_iff]
  reach b hb := by
    rw [gridX, lines, ltCeilDiv positive]
    exact (Nat.div_mul_le_self b pack).trans_lt hb
  wide k hk := by
    rw [outputs, gridY, Nat.div_eq_of_lt (hk.trans_le inside)]
    exact Nat.one_pos

variable {node : BluesteinLeafNode K} (fresh : Fresh node.toBluesteinNode child)
  (placed : Placed node.toBluesteinNode child input output) (schedule : Schedule) (batch : ℕ)

include fresh placed

omit [StarRing K] in
theorem prepareLeafMap (some_ : 0 < node.convLength) :
    LayoutMap (node.prepare schedule input batch) (fun _ => False) (besideTable node.length (input.row node.length) node.chirp)
      (node.workBuf.row node.convLength) node.convLength batch
      (fun y => node.leaf fun i => if i < node.length then y i * y (node.length + i) else 0) := by
  have covers : (prepareLeafKernel node.length node.convLength node.preparePack batch node.leaf).Covers batch :=
    packedRowsCover node.preparePositive rfl rfl rfl rfl le_rfl some_ fun _ _ => rfl
  have apart := outsideWork fun inner => placed.source (.inl inner)
  exact (Direct.LineKernel.writes covers fun _ _ _ => rfl).layoutMap Address.rowInjective
    (fun r j _ _ => besideApart (fun _ _ => Address.atApart apart _ _) (outsideWork fresh.chirp) r j) schedule _

omit fresh in
theorem finishLeafMap (some_ : 0 < node.convLength) (room : node.length ≤ node.convLength) :
    LayoutMap (node.finish schedule output batch) (fun _ => False)
      (besideTable (node.convLength + node.convLength) (besideTable node.convLength (node.workBuf.row node.convLength)
        node.bFftBuf) node.chirp) (output.row node.length) node.length batch
      (fun y k => star (node.leaf (fun i => star (y i * y (node.convLength + i))) k) / node.convLength *
        y (node.convLength + node.convLength + k)) := by
  have covers : (finishLeafKernel node.length node.convLength node.finishPack batch node.leaf).Covers batch :=
    packedRowsCover node.finishPositive rfl rfl rfl rfl room some_ fun _ _ => rfl
  have target : ¬ node.Own child output.buffer := fun inner => placed.target (.inl inner)
  refine (Direct.LineKernel.writes covers fun _ _ _ => rfl).layoutMap Address.rowInjective (fun r j _ _ => ?_) schedule _
  exact besideApart (fun _ _ => besideApart (fun _ _ => Address.atApart (outsideWork target).symm _ _)
    (outsideSpectrum target).symm _ _) (fun same => placed.target (.inr same.symm)) r j

omit placed in
/- Two launches: the input may be overwritten by the second, since the first has read all of it. -/
theorem leafKernels (roots : BluesteinRoots node.toBluesteinNode z v) (transform : ComputesDft node.convLength v node.leaf) :
    FusedKernels node.toBluesteinNode child z v (node.kernels schedule) := by
  have wide := roots.room
  have positive : 0 < node.convLength := Nat.pos_of_ne_zero fun zero => roots.length (by rw [zero, Nat.cast_zero])
  have room : node.length ≤ node.convLength := by omega
  intro input output batch placed
  have prepared := prepareLeafMap fresh placed schedule batch positive
  have finished := finishLeafMap placed schedule batch positive room
  refine ⟨_, fun _ => rfl, ?_, ?_⟩
  · intro m tables b hb k hk
    have kept : ∀ a : Address, a.buffer ≠ node.workBuf.buffer → node.prepare schedule input batch m a = m a :=
      fun a other => prepared.frame m a not_false fun _ _ _ _ same => other (same ▸ rfl)
    have spectra : ∀ i < node.convLength, node.prepare schedule input batch m (node.workBuf.row node.convLength b i) =
        dft node.convLength v (chirped node.length z fun j => m (input.row node.length b j)) i := by
      intro i hi
      rw [prepared.writes m b hb i hi, transform _ i hi]
      refine dftCongr fun j _ => ?_
      unfold chirped
      split_ifs with inside
      · beta_reduce
        rw [besideRow inside, besideEntry, tables.chirp j inside]
      · rfl
    have row := fusedRow roots spectra (fun i hi => transform _ i hi) hk
    rw [finished.writes _ b hb k hk, ← row]
    beta_reduce
    rw [besideEntry, kept (node.chirp.at k) (outsideWork fresh.chirp), tables.chirp k hk]
    congr 3
    refine transform.rowLocal _ _ (fun i hi => ?_) k (hk.trans_le room)
    rw [besideRow (by omega), besideRow hi, besideRow (by omega), besideEntry,
      kept (node.bFftBuf.at i) fresh.apart.workFft.symm, tables.spectrum i hi]
  · intro m a unused beside
    refine (finished.frame _ a not_false beside).trans ?_
    exact prepared.frame m a not_false fun _ _ _ _ same => unused (.inr (same ▸ rfl))

end Leaf

/- Four kernels of a four-step transform, the boundary folded into the first, the third and the last. -/
section FourStep

/- The chirp or the spectrum stands behind the input. -/
inductive BoundaryParam where
  | inPtr
  | tablePtr
  | twiddlePtr
  | outPtr
  deriving DecidableEq, Repr

structure BoundaryPointers (K : Type*) where
  inPtr : Address
  tablePtr : Address
  twiddlePtr : ℕ → K
  outPtr : Address

def boundaryParams (includeTwiddle : Bool) : List BoundaryParam :=
  [.inPtr, .tablePtr] ++ (if includeTwiddle then [.twiddlePtr] else []) ++ [.outPtr]

def bindBoundary {K : Type*} [Zero K] : List BoundaryParam → List (Pointer K) → Option (BoundaryPointers K)
  | [.inPtr, .tablePtr, .outPtr], [.buffer i, .buffer t, .buffer o] => some ⟨i, t, fun _ => 0, o⟩
  | [.inPtr, .tablePtr, .twiddlePtr, .outPtr], [.buffer i, .buffer t, .table w, .buffer o] => some ⟨i, t, w, o⟩
  | _, _ => none

variable {K : Type*} [Field K] [StarRing K]

section Kernels
variable (target : Target) (n n1 n2 pack nbatch : ℕ) (fft : (ℕ → K) → ℕ → K) (w : K) (pointers : BoundaryPointers K)

/- A row kernel with a load of its own. -/
def boundaryRow (load : Memory K → ℕ → ℕ → K) : PackedLeaf K where
  inners := n2
  outs := n1
  pack := pack
  nbatch := nbatch
  keep _ _ := true
  index inner out := inner * n1 + out
  value m batch inner out :=
    let value := fft (fun j => load m batch (j * n2 + inner)) out
    if fuseTwiddleIntoRow target .fourStepRow n1 n2 then
      value * (if target.isDouble then pointers.twiddlePtr (inner * n1 + out) else w ^ (inner * out))
    else value

def prepareRow : PackedLeaf K :=
  boundaryRow target n1 n2 pack nbatch fft w pointers fun m batch src =>
    if src < n then m (pointers.inPtr.at (batch * n + src)) * m (pointers.tablePtr.at src) else 0

def pointwiseRow : PackedLeaf K :=
  boundaryRow target n1 n2 pack nbatch fft w pointers fun m batch src =>
    star (m (pointers.inPtr.at (batch * (n1 * n2) + src)) * m (pointers.tablePtr.at src))

/- Only the first `n` outputs are stored. -/
def finishCol : PackedLeaf K where
  inners := n1
  outs := n2
  pack := pack
  nbatch := nbatch
  keep inner out := out * n1 + inner < n
  index inner out := out * n1 + inner
  value m batch inner out :=
    let value := fft (fun j =>
      let value := m (pointers.inPtr.at (batch * (n1 * n2) + (j * n1 + inner)))
      if fuseTwiddleIntoRow target .fourStepCol n1 n2 then value
      else value * pointers.twiddlePtr (j * n1 + inner)) out
    star value / (n1 * n2 : ℕ) * m (pointers.tablePtr.at (out * n1 + inner))

end Kernels

/- The host tells from the prepare kernel's metadata where the twiddles go. -/
structure BluesteinFourStepNode (K : Type*) extends BluesteinNode where
  n1 : ℕ
  n2 : ℕ
  target : Target
  rowFft : (ℕ → K) → ℕ → K
  colFft : (ℕ → K) → ℕ → K
  w : K
  rowPack : ℕ
  colPack : ℕ
  rowPackPositive : 0 < rowPack
  colPackPositive : 0 < colPack

namespace BluesteinFourStepNode
variable (node : BluesteinFourStepNode K) (schedule : Schedule)

def fusedTwiddle : Bool := tleFusedTwiddle node.target .fourStepRow node.n1 node.n2

def stage1 : Address := node.aBuf

/- A row kernel takes the twiddles if they are fused, a column kernel if they are not. -/
def rowArgs (input table output : Address) : List (Pointer K) :=
  let twiddle := buildRawFourStepTwiddle node.w node.n1 node.n2
  if node.fusedTwiddle then [.buffer input, .buffer table, .table twiddle, .buffer output]
  else [.buffer input, .buffer table, .buffer output]

def finishArgs (input table output : Address) : List (Pointer K) :=
  let twiddle := buildRawFourStepTwiddle node.w node.n1 node.n2
  if node.fusedTwiddle then [.buffer input, .buffer table, .buffer output]
  else [.buffer input, .buffer table, .table twiddle, .buffer output]

/- The column kernel between the two row kernels is that of a plain four-step node. -/
def plain : FusedNode :=
  ⟨node.n1, node.n2, node.target, node.rowPack, node.colPack, node.aBuf, node.rowPackPositive, node.colPackPositive⟩

/- A launch of a boundary kernel on the rows from the output on. -/
def launchBoundary (mode : IoMode) (kernel : BoundaryPointers K → PackedLeaf K) (n : ℕ) (args : List (Pointer K)) (batch : ℕ)
    (m : Memory K) : Except Failure (Memory K) :=
  match bindBoundary (boundaryParams (includeFourStepTwiddle node.target mode node.n1 node.n2)) args with
  | none => .error .execFailed
  | some pointers => .ok ((kernel pointers).kernel.launch (pointers.outPtr.row n) batch schedule m)

def launchPrepare (input : Address) (batch : ℕ) : Memory K → Except Failure (Memory K) :=
  node.launchBoundary schedule .fourStepRow
    (prepareRow node.target node.length node.n1 node.n2 node.rowPack batch node.rowFft node.w) (node.n1 * node.n2)
    (node.rowArgs input node.chirp node.stage1) batch

def launchCol (batch : ℕ) : Memory K → Except Failure (Memory K) :=
  node.plain.launchCol node.colFft schedule (node.plain.colArgs node.w node.stage1 node.workBuf) batch

def launchPointwise (batch : ℕ) : Memory K → Except Failure (Memory K) :=
  node.launchBoundary schedule .fourStepRow
    (pointwiseRow node.target node.n1 node.n2 node.rowPack batch node.rowFft node.w) (node.n1 * node.n2)
    (node.rowArgs node.workBuf node.bFftBuf node.stage1) batch

def launchFinish (output : Address) (batch : ℕ) : Memory K → Except Failure (Memory K) :=
  node.launchBoundary schedule .fourStepCol
    (finishCol node.target node.length node.n1 node.n2 node.colPack batch node.colFft) node.length
    (node.finishArgs node.stage1 node.chirp output) batch

def kernels (input output : Address) (batch : ℕ) (m : Memory K) : Except Failure (Memory K) :=
  node.launchPrepare schedule input batch m >>= node.launchCol schedule batch >>= node.launchPointwise schedule batch >>=
    node.launchFinish schedule output batch

def execute (fft : Execute K) : Execute K := node.executeFused fft (node.kernels schedule)

end BluesteinFourStepNode

section Passes
variable {target : Target} {n n1 n2 pack nbatch : ℕ} {fft : (ℕ → K) → ℕ → K} {w w' : K} {pointers : BoundaryPointers K}
  {src : Layout}

/- The twiddles are only read where they are bound. -/
def BoundaryBound (target : Target) (mode : IoMode) (n1 n2 : ℕ) (w : K) (pointers : BoundaryPointers K) : Prop :=
  includeFourStepTwiddle target mode n1 n2 → pointers.twiddlePtr = buildRawFourStepTwiddle w n1 n2

omit [StarRing K] in
theorem boundaryRowValue (pack nbatch : ℕ) (bound : BoundaryBound target .fourStepRow n1 n2 w pointers)
    (transform : ComputesDft n1 w' fft) {load : Memory K → ℕ → ℕ → K} {x : ℕ → K} {m : Memory K} {b inner out : ℕ}
    (each : ∀ s < n1 * n2, load m b s = x s) (hInner : inner < n2) (hOut : out < n1) :
    (boundaryRow target n1 n2 pack nbatch fft w pointers load).value m b inner out =
      rowPass target n1 n2 fft w x (inner * n1 + out) := by
  have row : fft (fun j => load m b (j * n2 + inner)) out = fft (fun j => x (j * n2 + inner)) out :=
    transform.rowLocal _ _ (fun j hj => each _ (mulAddLt hj hInner)) out hOut
  unfold rowPass boundaryRow
  simp only [mulAddDiv hOut, mulAddMod hOut, row]
  cases fused : fuseTwiddleIntoRow target .fourStepRow n1 n2 with
  | false => rfl
  | true =>
      have table := bound (by unfold includeFourStepTwiddle; simp [fused])
      simp only [if_true, table]
      cases target.isDouble with
      | false => rfl
      | true =>
          simp only [if_true, buildRawFourStepTwiddleAt hInner hOut]

omit [StarRing K] in
theorem boundaryRowWrites (positive : 0 < pack) (bound : BoundaryBound target .fourStepRow n1 n2 w pointers)
    (transform : ComputesDft n1 w' fft) {load : Memory K → ℕ → ℕ → K} {loaded : (ℕ → K) → ℕ → K}
    (each : ∀ m b, ∀ s < n1 * n2, load m b s = loaded (fun j => m (src b j)) s) :
    ((boundaryRow target n1 n2 pack nbatch fft w pointers load).kernel.element (pointers.outPtr.row (n1 * n2))).Writes
      (ceilDiv n2 pack * nbatch) src (pointers.outPtr.row (n1 * n2)) (n1 * n2) nbatch
      (fun y => rowPass target n1 n2 fft w (loaded y))
      (fun b k => (b * ceilDiv n2 pack + k / n1 / pack, (k / n1 % pack, k % n1))) := by
  -- the programs and threads are those of the plain row kernel
  have plain := @rowLeafCovers _ _ target n1 n2 pack nbatch fft w ⟨pointers.inPtr, pointers.twiddlePtr, pointers.outPtr⟩ positive
  have covers : (boundaryRow target n1 n2 pack nbatch fft w pointers load).kernel.Covers (n1 * n2) nbatch
      (fun k => (k / n1 / pack, (k / n1 % pack, k % n1))) := ⟨plain.nodup, plain.place, plain.onto⟩
  refine covers.writes fun b hb x _ t ht m => ?_
  obtain ⟨_, hOut, hInner, _⟩ := (PackedLeaf.memThreads hb).mp ht
  exact boundaryRowValue pack nbatch bound transform (each m b) hInner hOut

theorem finishColCovers (positive : 0 < pack) (room : n ≤ n1 * n2) :
    (finishCol target n n1 n2 pack nbatch fft pointers).kernel.Covers n nbatch
      (fun k => (k % n1 / pack, (k % n1 % pack, k / n1))) := by
  refine PackedLeaf.covers (finishCol target n n1 n2 pack nbatch fft pointers) (fun k => k % n1) (fun k => k / n1) positive ?_ ?_
  · intro inner hInner out _ keep
    exact ⟨of_decide_eq_true keep, mulAddMod hInner, mulAddDiv hInner⟩
  · intro k hk
    have inside : k < n1 * n2 := hk.trans_le room
    have index : k / n1 * n1 + k % n1 = k := by
      rw [Nat.mul_comm]
      exact Nat.div_add_mod k n1
    refine ⟨Nat.mod_lt _ (Nat.pos_of_mul_pos_right (Nat.zero_lt_of_lt inside)), divLtOfLtMul inside, ?_, index⟩
    change decide (k / n1 * n1 + k % n1 < n) = true
    rw [index, decide_eq_true hk]

theorem finishColValue (n pack nbatch : ℕ) (bound : BoundaryBound target .fourStepCol n1 n2 w pointers)
    (transform : ComputesDft n2 w' fft) {m : Memory K} {b inner out : ℕ} (hInner : inner < n1) (hOut : out < n2) :
    (finishCol target n n1 n2 pack nbatch fft pointers).value m b inner out =
      star (colPass target n1 n2 fft w (fun j => m (besideTable (n1 * n2) (pointers.inPtr.row (n1 * n2)) pointers.tablePtr b j))
        (out * n1 + inner)) / (n1 * n2 : ℕ) * m (pointers.tablePtr.at (out * n1 + inner)) := by
  unfold colPass finishCol
  simp only [mulAddDiv hInner, mulAddMod hInner]
  congr 3
  refine transform.rowLocal _ _ (fun j hj => ?_) out hOut
  have inside : j * n1 + inner < n1 * n2 := by
    rw [Nat.mul_comm n1]
    exact mulAddLt hj hInner
  rw [besideRow inside]
  cases fused : fuseTwiddleIntoRow target .fourStepCol n1 n2 with
  | true => rfl
  | false =>
      have table := bound (by unfold includeFourStepTwiddle; simp [fused])
      simp only [table, buildRawFourStepTwiddleAt hj hInner]
      rfl

/- The column kernel against the last table: one row of the stage buffer, and the chirp behind it. -/
theorem finishColWrites (positive : 0 < pack) (room : n ≤ n1 * n2) (bound : BoundaryBound target .fourStepCol n1 n2 w pointers)
    (transform : ComputesDft n2 w' fft) :
    ((finishCol target n n1 n2 pack nbatch fft pointers).kernel.element (pointers.outPtr.row n)).Writes
      (ceilDiv n1 pack * nbatch) (besideTable (n1 * n2) (pointers.inPtr.row (n1 * n2)) pointers.tablePtr)
      (pointers.outPtr.row n) n nbatch
      (fun y k => star (colPass target n1 n2 fft w y k) / (n1 * n2 : ℕ) * y (n1 * n2 + k))
      (fun b k => (b * ceilDiv n1 pack + k % n1 / pack, (k % n1 % pack, k / n1))) := by
  refine (finishColCovers positive room).writes fun b hb x _ t ht m => ?_
  obtain ⟨_, hOut, hInner, _⟩ := (PackedLeaf.memThreads hb).mp ht
  beta_reduce
  rw [besideEntry]
  exact finishColValue n pack nbatch bound transform hInner hOut

end Passes

section Run
variable {node : BluesteinFourStepNode K} {child : ℕ → Prop} {z v : K} {input output table : Address} {batch : ℕ}
  {schedule : Schedule}

/- The leaves are transforms of the two sides of the split. -/
structure SplitOk (node : BluesteinFourStepNode K) (v : K) : Prop where
  product : node.convLength = node.n1 * node.n2
  root : node.w = v
  row : ComputesDft node.n1 (v ^ node.n2) node.rowFft
  col : ComputesDft node.n2 (v ^ node.n1) node.colFft

omit [StarRing K] in
theorem rowArgsBound (node : BluesteinFourStepNode K) (i t o : Address) :
    ∃ pointers, bindBoundary (boundaryParams (includeFourStepTwiddle node.target .fourStepRow node.n1 node.n2))
      (node.rowArgs i t o) = some pointers ∧ pointers.inPtr = i ∧ pointers.tablePtr = t ∧ pointers.outPtr = o ∧
      BoundaryBound node.target .fourStepRow node.n1 node.n2 node.w pointers := by
  unfold BluesteinFourStepNode.rowArgs BluesteinFourStepNode.fusedTwiddle tleFusedTwiddle BoundaryBound includeFourStepTwiddle
    fuseTwiddleIntoRow IoMode.strided
  cases useFourStepRowFusedTwiddle node.target node.n1 node.n2 with
  | true => exact ⟨_, rfl, rfl, rfl, rfl, fun _ => rfl⟩
  | false => exact ⟨_, rfl, rfl, rfl, rfl, fun absent => by simp at absent⟩

omit [StarRing K] in
theorem finishArgsBound (node : BluesteinFourStepNode K) (i t o : Address) :
    ∃ pointers, bindBoundary (boundaryParams (includeFourStepTwiddle node.target .fourStepCol node.n1 node.n2))
      (node.finishArgs i t o) = some pointers ∧ pointers.inPtr = i ∧ pointers.tablePtr = t ∧ pointers.outPtr = o ∧
      BoundaryBound node.target .fourStepCol node.n1 node.n2 node.w pointers := by
  unfold BluesteinFourStepNode.finishArgs BluesteinFourStepNode.fusedTwiddle tleFusedTwiddle BoundaryBound
    includeFourStepTwiddle fuseTwiddleIntoRow IoMode.strided
  cases useFourStepRowFusedTwiddle node.target node.n1 node.n2 with
  | true => exact ⟨_, rfl, rfl, rfl, rfl, fun absent => by simp at absent⟩
  | false => exact ⟨_, rfl, rfl, rfl, rfl, fun _ => rfl⟩

omit [StarRing K] in
/- A row launch, whatever it loads. -/
theorem rowRun (ok : SplitOk node v) (i t o : Address) (schedule : Schedule) (batch : ℕ) {src : Layout}
    {load : BoundaryPointers K → Memory K → ℕ → ℕ → K} {loaded : (ℕ → K) → ℕ → K}
    (each : ∀ pointers : BoundaryPointers K, pointers.inPtr = i → pointers.tablePtr = t → ∀ m b, ∀ s < node.n1 * node.n2,
      load pointers m b s = loaded (fun j => m (src b j)) s)
    (apart : ∀ b j b' k, src b j ≠ o.row (node.n1 * node.n2) b' k) :
    LayoutRun (node.launchBoundary schedule .fourStepRow (fun pointers => boundaryRow node.target node.n1 node.n2 node.rowPack
        batch node.rowFft node.w pointers (load pointers)) (node.n1 * node.n2) (node.rowArgs i t o) batch) (fun _ => False) src
      (o.row (node.n1 * node.n2)) (node.n1 * node.n2) batch
      (fun y => rowPass node.target node.n1 node.n2 node.rowFft node.w (loaded y)) := by
  obtain ⟨pointers, bound, here, there, rfl, twiddles⟩ := rowArgsBound node i t o
  unfold BluesteinFourStepNode.launchBoundary
  simp only [bound]
  exact ((boundaryRowWrites node.rowPackPositive twiddles ok.row (each pointers here there)).layoutMap Address.rowInjective apart
    schedule _).run

omit [StarRing K] in
theorem prepareRun (ok : SplitOk node v) (apart : input.buffer ≠ node.aBuf.buffer) (tableApart : node.chirp.buffer ≠ node.aBuf.buffer)
    (schedule : Schedule) (batch : ℕ) :
    LayoutRun (node.launchPrepare schedule input batch) (fun _ => False) (besideTable node.length (input.row node.length) node.chirp)
      (node.aBuf.row (node.n1 * node.n2)) (node.n1 * node.n2) batch
      (fun y => rowPass node.target node.n1 node.n2 node.rowFft node.w fun i =>
        if i < node.length then y i * y (node.length + i) else 0) := by
  refine rowRun ok input node.chirp node.aBuf schedule batch ?_ fun b j _ _ =>
    besideApart (fun _ _ => Address.atApart apart _ _) tableApart b j
  rintro pointers rfl there m b s _
  rw [there]
  split_ifs with inside
  · beta_reduce
    rw [besideRow inside, besideEntry]
    rfl
  · rfl

theorem pointwiseRun (ok : SplitOk node v) (apart : node.workBuf.buffer ≠ node.aBuf.buffer)
    (tableApart : node.bFftBuf.buffer ≠ node.aBuf.buffer) (schedule : Schedule) (batch : ℕ) :
    LayoutRun (node.launchPointwise schedule batch) (fun _ => False)
      (besideTable (node.n1 * node.n2) (node.workBuf.row (node.n1 * node.n2)) node.bFftBuf)
      (node.aBuf.row (node.n1 * node.n2)) (node.n1 * node.n2) batch
      (fun y => rowPass node.target node.n1 node.n2 node.rowFft node.w fun i => star (y i * y (node.n1 * node.n2 + i))) := by
  refine rowRun ok node.workBuf node.bFftBuf node.aBuf schedule batch ?_ fun b j _ _ =>
    besideApart (fun _ _ => Address.atApart apart _ _) tableApart b j
  intro pointers here there m b s inside
  beta_reduce
  rw [here, there, besideRow inside, besideEntry]
  rfl

theorem finishRun (ok : SplitOk node v) (room : node.length ≤ node.n1 * node.n2) (apart : node.aBuf.buffer ≠ output.buffer)
    (tableApart : node.chirp.buffer ≠ output.buffer) (schedule : Schedule) (batch : ℕ) :
    LayoutRun (node.launchFinish schedule output batch) (fun _ => False)
      (besideTable (node.n1 * node.n2) (node.aBuf.row (node.n1 * node.n2)) node.chirp) (output.row node.length) node.length batch
      (fun y k => star (colPass node.target node.n1 node.n2 node.colFft node.w y k) / (node.n1 * node.n2 : ℕ) *
        y (node.n1 * node.n2 + k)) := by
  obtain ⟨pointers, bound, here, there, rfl, twiddles⟩ := finishArgsBound node node.stage1 node.chirp output
  have writes := @finishColWrites _ _ _ _ _ _ _ _ batch _ _ _ _ node.colPackPositive room twiddles ok.col
  rw [here, there] at writes
  unfold BluesteinFourStepNode.launchFinish BluesteinFourStepNode.launchBoundary
  simp only [bound]
  exact (writes.layoutMap Address.rowInjective (fun b j _ _ => besideApart (fun _ _ => Address.atApart apart _ _) tableApart b j)
    schedule _).run

/- Four launches. Between them the rows lie in the stage and the work buffer, so the input may be overwritten. -/
theorem fourStepKernels (roots : BluesteinRoots node.toBluesteinNode z v) (fresh : Fresh node.toBluesteinNode child)
    (ok : SplitOk node v) (schedule : Schedule) : FusedKernels node.toBluesteinNode child z v (node.kernels schedule) := by
  have wide := roots.room
  have room : node.length ≤ node.n1 * node.n2 := by
    rw [← ok.product]
    omega
  have root : node.w ^ (node.n1 * node.n2) = 1 := by
    rw [ok.root, ← ok.product]
    exact roots.primitive.pow_eq_one
  have through : ∀ {first y : ℕ → K}, (∀ i < node.n1 * node.n2, first i =
      rowPass node.target node.n1 node.n2 node.rowFft node.w y i) → ∀ k < node.n1 * node.n2,
      colPass node.target node.n1 node.n2 node.colFft node.w first k = dft (node.n1 * node.n2) v y k := by
    intro first y same k hk
    have local_ := @colPassLocal _ _ node.w node.colFft node.target node.n1 node.n2 _ ok.col first _ same k hk
    rw [local_, passesComputeDft root (ok.root ▸ ok.row) (ok.root ▸ ok.col) y hk, ok.root]
  intro input output batch placed
  have source : ¬ node.Own child input.buffer := fun inner => placed.source (.inl inner)
  have target : ¬ node.Own child output.buffer := fun inner => placed.target (.inl inner)
  obtain ⟨prepare, prepareOk, prepared⟩ := prepareRun ok (outsideA source) (outsideA fresh.chirp) schedule batch
  obtain ⟨col, colOk, columns⟩ := node.plain.launchColRun node.w schedule ok.col node.aBuf node.workBuf batch fresh.apart.aWork
    fun _ => False
  obtain ⟨point, pointOk, product⟩ := pointwiseRun ok fresh.apart.aWork.symm fresh.apart.aFft.symm schedule batch
  obtain ⟨finish, finishOk, finished⟩ := finishRun ok room (outsideA target).symm (fun same => placed.target (.inr same.symm))
    schedule batch
  -- the tables lie outside of both buffers
  have keptCol : ∀ m (a : Address), ¬ node.Scratch a → col (prepare m) a = m a := by
    intro m a unused
    rw [columns.frame _ a not_false fun _ _ _ _ same => unused (.inr (same ▸ rfl)),
      prepared.frame _ a not_false fun _ _ _ _ same => unused (.inl (same ▸ rfl))]
  have kept : ∀ m (a : Address), ¬ node.Scratch a → point (col (prepare m)) a = m a := by
    intro m a unused
    rw [product.frame _ a not_false fun _ _ _ _ same => unused (.inl (same ▸ rfl)), keptCol m a unused]
  have spectrumKept : ∀ i, ¬ node.Scratch (node.bFftBuf.at i) := by
    rintro i (same | same)
    · exact fresh.apart.aFft same.symm
    · exact fresh.apart.workFft same.symm
  have chirpKept : ∀ i, ¬ node.Scratch (node.chirp.at i) := by
    rintro i (same | same)
    · exact outsideA fresh.chirp same
    · exact outsideWork fresh.chirp same
  refine ⟨fun m => finish (point (col (prepare m))), fun m => ?_, ?_, fun m a unused beside => ?_⟩
  · have middle : ∀ m, node.launchCol schedule batch m = .ok (col m) := colOk
    simp only [BluesteinFourStepNode.kernels, prepareOk, middle, pointOk, finishOk, bind, Except.bind]
  · intro m tables b hb k hk
    have spectra : ∀ i < node.n1 * node.n2, col (prepare m) (node.workBuf.row (node.n1 * node.n2) b i) =
        dft (node.n1 * node.n2) v (chirped node.length z fun j => m (input.row node.length b j)) i := by
      intro i hi
      refine (columns.writes _ b hb i hi).trans ((through (fun j hj => prepared.writes m b hb j hj) i hi).trans (dftCongr fun j _ => ?_))
      unfold chirped
      split_ifs with inside
      · beta_reduce
        rw [besideRow inside, besideEntry, tables.chirp j inside]
      · rfl
    have second : ∀ i < node.n1 * node.n2, colPass node.target node.n1 node.n2 node.colFft node.w
        (fun j => point (col (prepare m)) (node.aBuf.row (node.n1 * node.n2) b j)) i = dft (node.n1 * node.n2) v (fun i =>
          star (col (prepare m) (node.workBuf.row (node.n1 * node.n2) b i) *
            dft (node.n1 * node.n2) v (mirroredChirp node.length (node.n1 * node.n2) z) i)) i := by
      intro i hi
      refine (through (fun j hj => product.writes _ b hb j hj) i hi).trans (dftCongr fun s hs => ?_)
      have spectrum := tables.spectrum s (hs.trans_eq ok.product.symm)
      rw [ok.product] at spectrum
      beta_reduce
      rw [besideRow hs, besideEntry, keptCol m _ (spectrumKept s), spectrum]
    have last : colPass node.target node.n1 node.n2 node.colFft node.w (fun j => point (col (prepare m))
        (besideTable (node.n1 * node.n2) (node.aBuf.row (node.n1 * node.n2)) node.chirp b j)) k =
        colPass node.target node.n1 node.n2 node.colFft node.w
          (fun j => point (col (prepare m)) (node.aBuf.row (node.n1 * node.n2) b j)) k :=
      colPassLocal ok.col _ _ (fun j hj => by rw [besideRow hj]) k (hk.trans_le room)
    have image := finished.writes (point (col (prepare m))) b hb k hk
    beta_reduce at image
    rw [last, besideEntry, kept m _ (chirpKept k), tables.chirp k hk] at image
    rw [← ok.product] at spectra second image
    exact image.trans (fusedRow roots spectra second hk)
  · exact (finished.frame _ a not_false beside).trans (kept m a unused)

end Run

end FourStep

end FlagFft.Compiled.Bluestein
