import FlagFft.Compiled.Tree

/-! Every compiled tree is the transform of its length. The buffers of a node are those between the counter before it
and the counter after it, so nodes share nothing; each kind of node adds its own to what its children have shown. -/
namespace FlagFft.Compiled
open Library.Indexing Library.Stores Library.Dft Library.ArbitraryLength FlagFft.FourStep

def Between (first next i : ℕ) : Prop := first ≤ i ∧ i < next

/- What is shown of a node: the transform, the invariant after the upload, and that the upload stays inside. -/
structure Correct (node : RawNode) (good : State ℂ → Prop) (first n limit : ℕ) (row : (ℕ → ℂ) → ℕ → ℂ) : Prop where
  grows : first ≤ node.next
  transforms : Transforms node.execute good (Between first node.next) n limit row
  fresh : ∀ s, good (node.upload s)
  memory : ∀ s a, ¬ Between first node.next a.buffer → (node.upload s).memory a = s.memory a
  ready : ∀ s i, ¬ Between first node.next i → (node.upload s).ready i = s.ready i

def BluesteinForm.radices : BluesteinForm → List ℕ
  | .generic => []
  | .leaf plan _ _ => plan.factors
  | .fourStep rowLeaf colLeaf _ _ => rowLeaf.factors ++ colLeaf.factors

def RawPlan.radices : RawPlan → List ℕ
  | .leaf plan => plan.factors
  | .directDft _ _ => []
  | .stockham factors _ => factors
  | .fourStep rowPlan colPlan _ _ => rowPlan.radices ++ colPlan.radices
  | .bluestein _ form fftPlan => form.radices ++ fftPlan.radices
  | .rader _ _ _ convPlan => convPlan.radices

/- The codelet of a radix is the transform of the radix, in both directions. -/
def Compiler.Exact (compiler : Compiler) (radices : List ℕ) : Prop :=
  ∀ direction, ∀ f ∈ radices, ∀ x q, q < f → compiler.codelets direction f x q = dft f (root direction f) x q

structure Compiler.Works (compiler : Compiler) : Prop where
  launches : compiler.adaptor.npu → 0 < compiler.adaptor.maxLaunchBlocks

theorem RawPlan.Sound.positive {plan : RawPlan} (sound : plan.Sound) : 0 < plan.length := by
  induction plan with
  | leaf plan => exact plan.positive
  | directDft length form => exact sound.1
  | stockham factors blocks => exact sound.1
  | fourStep rowPlan colPlan rowPack colPack rowIh colIh => exact Nat.mul_pos (rowIh sound.2.2.1) (colIh sound.2.2.2)
  | bluestein length form fftPlan ih => exact sound.1
  | rader prime root idx convPlan ih => exact sound.1.pos

section Leaves
variable {compiler : Compiler} {direction : Direction} {plan : Leaf.LeafPlan}

theorem leafButterflies (exact_ : compiler.Exact plan.factors) :
    Leaf.Butterflies plan (compiler.codelets direction) (root direction plan.length) := by
  intro f member v q inside
  rw [exact_ direction f member v q inside, Leaf.LeafPlan.length, rootFactor plan.positive (List.dvd_prod member)]

theorem leafTablesBuilt (plan : Leaf.LeafPlan) (direction : Direction) :
    ∃ tables, Compiler.leafTables plan direction = some tables ∧ Leaf.TablesOk plan (root direction plan.length) tables := by
  obtain ⟨tables, built, ok⟩ := Leaf.leafTablesOk plan (root direction plan.length)
  exact ⟨tables, by rw [Compiler.leafTables, built]; rfl, ok⟩

variable {tables : List (ℕ → ℂ)}

theorem leafRowMap (exact_ : compiler.Exact plan.factors) (built : Leaf.TablesOk plan (root direction plan.length) tables)
    {src dst : Address} (compatible : Compatible src dst) (batch : ℕ) (scratch : Address → Prop) :
    RowMap (compiler.leafLaunch plan tables direction src dst batch) scratch src dst plan.length plan.length batch
      (dft plan.length (root direction plan.length)) := by
  have run := fun m => Leaf.leafLaunch (rootWhole plan.positive) (leafButterflies exact_) built compiler.shared m compatible
    (compiler.schedule.complete (Leaf.leafGrid plan batch))
  exact ⟨fun m b hb k hk => (run m).1 b hb k hk, fun m a _ outside => (run m).2 a outside⟩

theorem leafRowDft (exact_ : compiler.Exact plan.factors) (built : Leaf.TablesOk plan (root direction plan.length) tables) :
    ComputesDft plan.length (root direction plan.length) (compiler.leafRow plan tables direction) := by
  intro x k inside
  have apart : Compatible ⟨0, 0⟩ ⟨1, 0⟩ := .inr Nat.zero_ne_one
  have written := (leafRowMap exact_ built apart 1 (fun _ => False)).writes (fun a => x a.offset) 0 Nat.one_pos k inside
  simpa only [Compiler.leafRow, Address.row, Address.at, Nat.zero_mul, Nat.zero_add] using written

theorem leafCorrect (exact_ : compiler.Exact plan.factors) (built : Leaf.TablesOk plan (root direction plan.length) tables)
    (first limit : ℕ) : Correct (compiler.leafNode plan tables direction first) (fun _ => True) first plan.length limit
      (dft plan.length (root direction plan.length)) where
  grows := le_rfl
  transforms := by
    have runs : ∀ src dst batch, batch ≤ limit → Compatible src dst → ¬ Between first first src.buffer →
        ¬ Between first first dst.buffer → RowRun (fun m => .ok (compiler.leafLaunch plan tables direction src dst batch m))
          (fun _ => False) src dst plan.length plan.length batch (dft plan.length (root direction plan.length)) :=
      fun _ _ batch _ compatible _ _ => (leafRowMap exact_ built compatible batch fun _ => False).run
    exact Transforms.ofRuns (fun _ none => none.elim) runs
  fresh _ := trivial
  memory _ _ _ := rfl
  ready _ _ _ := rfl

/- A node on rows copies its input where it would overwrite it. -/
theorem directRowMap {node : Direct.DirectDftNode} (rows : node.form.Rows node.length) {w : ℂ} {src dst : Address} {batch : ℕ}
    (small : batch ≤ node.compiledBatch) (compatible : Compatible src dst) (own : dst.buffer ≠ node.inputCopy.buffer)
    (schedule : Schedule) : RowMap (node.execute w src dst batch schedule) (fun a => a.buffer = node.inputCopy.buffer) src dst
      node.length node.length batch (dft node.length w) := by
  have launched : ∀ from_, Compatible from_ dst → RowMap (node.form.launch w node.length batch from_ dst schedule)
      (fun _ => False) from_ dst node.length node.length batch (dft node.length w) := by
    intro from_ placed
    have map := Direct.formMap (w := w) (rows.supported batch) (rows.placed placed) schedule
    rwa [(rows.layouts from_).1, (rows.layouts dst).2] at map
  by_cases copied : node.copies = true ∧ src = dst
  · have whole := Direct.copiedMap src Direct.dftLineLocal (launched node.inputCopy (.inr own.symm)) fun b hb j hj =>
      (mulAddLt hb hj).trans_le (Nat.mul_le_mul_right node.length small)
    have same : node.execute w src dst batch schedule = _ := funext fun m => if_pos copied
    rw [same]
    exact whole.mono fun a inside => inside.resolve_left not_false
  · have same : node.execute w src dst batch schedule = _ := funext fun m => if_neg copied
    rw [same]
    exact (launched src compatible).mono fun _ none => none.elim

theorem directCorrect {length : ℕ} {form : Direct.DirectDftForm} (rows : form.Rows length) (batch first : ℕ) :
    Correct (compiler.directNode ⟨length, form, ⟨first, 0⟩, batch⟩ direction (first + 1)) (fun _ => True) first length batch
      (dft length (root direction length)) where
  grows := Nat.le_succ first
  transforms := by
    have inside : ∀ a : Address, a.buffer = first → Between first (first + 1) a.buffer :=
      fun a same => ⟨same.ge, same.trans_lt (Nat.lt_succ_self _)⟩
    let node : Direct.DirectDftNode := ⟨length, form, ⟨first, 0⟩, batch⟩
    have map := fun src dst count => @directRowMap node rows (root direction length) src dst count
    exact Transforms.ofRuns inside fun src dst count small compatible _ target =>
      (map src dst count small compatible (fun same => target (inside dst same)) compiler.schedule).run
  fresh _ := trivial
  memory _ _ _ := rfl
  ready _ _ _ := rfl

theorem stockhamCorrect {factors blocks : List ℕ} (sound : 0 < factors.prod ∧ ∀ block ∈ blocks, 0 < block)
    (exact_ : compiler.Exact factors) (first limit : ℕ) :
    Correct (compiler.stockhamNode (Compiler.stockhamScratch factors blocks first sound) direction (first + 2)) (fun _ => True)
      first factors.prod limit (dft factors.prod (root direction factors.prod)) where
  grows := Nat.le_add_right _ _
  transforms := by
    have inside : ∀ a, (Compiler.stockhamScratch factors blocks first sound).scratch a → Between first (first + 2) a.buffer := by
      rintro a (same | same)
      · exact ⟨same.ge, same.trans_lt (Nat.lt_add_of_pos_right Nat.two_pos)⟩
      · exact ⟨(Nat.le_succ _).trans same.ge, same.trans_lt (Nat.lt_succ_self _)⟩
    have butterflies : Stockham.Butterflies (Compiler.stockhamScratch factors blocks first sound) (compiler.codelets direction)
        (root direction factors.prod) := by
      intro f member v q small
      rw [exact_ direction f member v q small]
      exact congrArg (dft f · v q) (rootFactor sound.1 (List.dvd_prod member)).symm
    have whole : root direction factors.prod ^ (Compiler.stockhamScratch factors blocks first sound).length = 1 :=
      rootWhole sound.1
    have child := Stockham.childComputes compiler.schedule compiler.adaptor.blockLimitPerLaunch whole butterflies
    exact Transforms.ofRuns inside fun src dst batch _ compatible source target =>
      child src dst batch compatible (fun i inner => source (inside (src.at i) inner))
        fun i inner => target (inside (dst.at i) inner)
  fresh _ := trivial
  memory _ _ _ := rfl
  ready _ _ _ := rfl

theorem fusedCorrect {rowPlan colPlan : Leaf.LeafPlan} {rowTables colTables : List (ℕ → ℂ)} {node : FusedNode}
    (works : compiler.Works) (rowLength : node.n1 = rowPlan.length) (colLength : node.n2 = colPlan.length)
    (rowExact : compiler.Exact rowPlan.factors) (colExact : compiler.Exact colPlan.factors)
    (rowBuilt : Leaf.TablesOk rowPlan (root direction rowPlan.length) rowTables)
    (colBuilt : Leaf.TablesOk colPlan (root direction colPlan.length) colTables) (first limit : ℕ)
    (stage : node.stage1 = ⟨first, 0⟩) :
    Correct (compiler.fusedNode node rowPlan colPlan rowTables colTables direction (first + 1)) (fun _ => True) first
      node.length limit (dft node.length (root direction node.length)) where
  grows := Nat.le_succ first
  transforms := by
    have n1 : 0 < node.n1 := rowLength ▸ rowPlan.positive
    have n2 : 0 < node.n2 := colLength ▸ colPlan.positive
    have inside : ∀ a, node.scratch a → Between first (first + 1) a.buffer := by
      intro a same
      rw [FusedNode.scratch, stage] at same
      exact ⟨same.ge, same.trans_lt (Nat.lt_succ_self _)⟩
    have row : ComputesDft node.n1 (root direction node.length ^ node.n2) (compiler.leafRow rowPlan rowTables direction) := by
      rw [FusedNode.length, rootMul n2, rowLength]
      exact leafRowDft rowExact rowBuilt
    have col : ComputesDft node.n2 (root direction node.length ^ node.n1) (compiler.leafRow colPlan colTables direction) := by
      rw [FusedNode.length, Nat.mul_comm, rootMul n1, colLength]
      exact leafRowDft colExact colBuilt
    refine Transforms.ofRuns inside fun src dst batch _ compatible source target => ?_
    exact node.computesDft (rootWhole (Nat.mul_pos n1 n2)) n2 row col works.launches batch
      ⟨compatible, fun same => source (inside src same), fun same => target (inside dst same)⟩
  fresh _ := trivial
  memory _ _ _ := rfl
  ready _ _ _ := rfl

end Leaves

section Inner
variable {compiler : Compiler} {direction : Direction}

theorem uploadFrame {R : Type*} {buffer count : ℕ} {values : ℕ → R} {m : Memory R} {a : Address} (other : a.buffer ≠ buffer) :
    uploadTable buffer count values m a = m a := if_neg fun inside => other inside.1

theorem uploadEntry {R : Type*} {buffer count i : ℕ} {values : ℕ → R} {m : Memory R} (inside : i < count) :
    uploadTable buffer count values m ((⟨buffer, 0⟩ : Address).at i) = values i := by
  rw [Address.at, Nat.zero_add]
  exact if_pos ⟨rfl, inside⟩

theorem genericCorrect {rowChild colChild : RawNode} {rowGood colGood : State ℂ → Prop} {n1 n2 first limit : ℕ}
    (n1Positive : 0 < n1) (n2Positive : 0 < n2)
    (row : Correct rowChild rowGood first n1 (limit * n2) (dft n1 (root direction n1)))
    (col : Correct colChild colGood rowChild.next n2 (limit * n1) (dft n2 (root direction n2))) :
    Correct (compiler.genericNode n1 n2 rowChild colChild direction) (fun s => rowGood s ∧ colGood s) first (n1 * n2) limit
      (dft (n1 * n2) (root direction (n1 * n2))) := by
  have rowGrows := row.grows
  have colGrows := col.grows
  have apart : (Compiler.genericStages n1 n2 rowChild colChild).Apart (Between first rowChild.next)
      (Between rowChild.next colChild.next) := by
    refine ⟨(Nat.succ_ne_self _).symm, fun i inner outer => ?_, fun inner => ?_, fun inner => ?_, fun inner => ?_, fun inner => ?_⟩
    · exact absurd inner.2 (Nat.not_lt.mpr outer.1)
    · exact absurd inner.2 (Nat.not_lt.mpr colGrows)
    · exact absurd inner.2 (Nat.not_lt.mpr (colGrows.trans (Nat.le_succ _)))
    · exact lt_irrefl _ inner.2
    · exact absurd inner.2 (Nat.not_lt.mpr (Nat.le_succ _))
  have owned : ∀ i, (Compiler.genericStages n1 n2 rowChild colChild).Owned (Between first rowChild.next)
      (Between rowChild.next colChild.next) i → Between first (colChild.next + 2) i := by
    intro i inner
    simp only [FourStepGenericNode.Owned, Compiler.genericStages, Between] at inner ⊢
    omega
  have rowRoot : root direction (n1 * n2) ^ n2 = root direction n1 := rootMul n2Positive
  have colRoot : root direction (n1 * n2) ^ n1 = root direction n2 := by rw [Nat.mul_comm, rootMul n1Positive]
  have both : Transforms ((Compiler.genericStages n1 n2 rowChild colChild).execute (root direction (n1 * n2))
      compiler.schedule compiler.adaptor) (fun s => rowGood s ∧ colGood s) _ (n1 * n2) limit
      (dft (n1 * n2) (root direction (n1 * n2))) :=
    fourStepTransforms (rootWhole (Nat.mul_pos n1Positive n2Positive)) (rowRoot.symm ▸ row.transforms)
      (colRoot.symm ▸ col.transforms) apart compiler.adaptor
  have inRow : ∀ i, Between first rowChild.next i → Between first (colChild.next + 2) i := fun i inner => owned i (.inl inner)
  have inCol : ∀ i, Between rowChild.next colChild.next i → Between first (colChild.next + 2) i :=
    fun i inner => owned i (.inr (.inl inner))
  refine ⟨rowGrows.trans (colGrows.trans (Nat.le_add_right _ _)), both.mono owned, fun s => ⟨?_, col.fresh _⟩, ?_, ?_⟩
  · -- the uploads of the column child stay out of the row child
    have outside : ∀ i, Between first rowChild.next i → ¬ Between rowChild.next colChild.next i := apart.children
    exact row.transforms.keeps _ _ (fun a inner => col.memory _ a (outside _ inner))
      (fun i inner => col.ready _ i (outside _ inner)) (row.fresh s)
  · exact fun s a outside => (col.memory _ a fun inner => outside (inCol _ inner)).trans
      (row.memory s a fun inner => outside (inRow _ inner))
  · exact fun s i outside => (col.ready _ i fun inner => outside (inCol _ inner)).trans
      (row.ready s i fun inner => outside (inRow _ inner))

/- Its buffers are the five behind those of the child. -/
theorem bluesteinFresh (first length convLength chunk next : ℕ) :
    Bluestein.Fresh (Compiler.bluesteinNode length convLength chunk next) (Between first next) := by
  refine ⟨?_, ?_⟩
  · constructor <;> simp [Compiler.bluesteinNode, Between]
  · simp [Compiler.bluesteinNode, ConvolutionBuffers.Own, Between]

theorem bluesteinRoots {length convLength : ℕ} (direction : Direction) (chunk next : ℕ) (room : 2 * length - 1 ≤ convLength)
    (positive : 0 < convLength) : Bluestein.BluesteinRoots (Compiler.bluesteinNode length convLength chunk next)
      (root direction (2 * length)) (root .forward convLength) :=
  ⟨rootNonzero, room, rootPrimitive positive, rootStar, Nat.cast_ne_zero.mpr positive.ne'⟩

/- Whatever form it takes, a node of arbitrary length is the transform with the square of the chirp's root. -/
def ExecutesBluestein (fft : RawNode) (fftGood : State ℂ → Prop) (first length convLength chunk : ℕ) (direction : Direction)
    (limit : ℕ) (execute : Bluestein.BluesteinNode → Execute ℂ) : Prop :=
  Transforms (execute (Compiler.bluesteinNode length convLength chunk fft.next))
    ((Compiler.bluesteinNode length convLength chunk fft.next).Good fftGood (root direction (2 * length)) (root .forward convLength))
    ((Compiler.bluesteinNode length convLength chunk fft.next).Owned (Between first fft.next)) length limit
    (dft length (root direction (2 * length) * root direction (2 * length)))

theorem leafForward {plan : Leaf.LeafPlan} (exact_ : compiler.Exact plan.factors) : ∃ tables,
    Compiler.leafTables plan .forward = some tables ∧
      ComputesDft plan.length (root .forward plan.length) (compiler.leafRow plan tables .forward) := by
  obtain ⟨tables, built, ok⟩ := leafTablesBuilt plan .forward
  exact ⟨tables, built, leafRowDft exact_ ok⟩

theorem BluesteinForm.Fits.split {rowLeaf colLeaf : Leaf.LeafPlan} {rowPack colPack : ℕ} {fftPlan : RawPlan}
    (fits : (BluesteinForm.fourStep rowLeaf colLeaf rowPack colPack).Fits fftPlan) : ∃ row col belowRow belowCol,
      fftPlan = .fourStep (.leaf row) (.leaf col) belowRow belowCol ∧ rowLeaf.length = row.length ∧
        colLeaf.length = col.length ∧ 0 < rowPack ∧ 0 < colPack := by
  unfold BluesteinForm.Fits at fits
  split at fits
  case h_3 row col belowRow belowCol same =>
    cases same
    exact ⟨row, col, belowRow, belowCol, rfl, fits⟩
  all_goals first | exact fits.elim | contradiction

theorem formExecutes {fft : RawNode} {fftGood : State ℂ → Prop} {length chunk first : ℕ} {form : BluesteinForm} {fftPlan : RawPlan}
    (room : 2 * length - 1 ≤ fftPlan.length) (sound : 0 < fftPlan.length) (fits : form.Fits fftPlan)
    (exact_ : compiler.Exact form.radices) (chunks : 0 < chunk)
    (child : Correct fft fftGood first fftPlan.length chunk (dft fftPlan.length (root .forward fftPlan.length))) (limit : ℕ) :
    ∃ execute, compiler.executeBluestein fft.execute form = some execute ∧
      ExecutesBluestein fft fftGood first length fftPlan.length chunk direction limit execute := by
  have roots := bluesteinRoots direction chunk fft.next room sound
  have fresh := bluesteinFresh first length fftPlan.length chunk fft.next
  cases form with
  | generic =>
    exact ⟨_, rfl, Bluestein.bluesteinTransforms roots child.transforms fresh chunks le_rfl limit⟩
  | leaf plan preparePack finishPack =>
    cases fftPlan with
    | leaf below =>
      obtain ⟨length_, prepares, finishes⟩ := fits
      obtain ⟨tables, built, transform⟩ := leafForward exact_
      rw [length_] at transform
      refine ⟨_, by rw [Compiler.executeBluestein, dif_pos ⟨prepares, finishes⟩, built]; rfl, ?_⟩
      let node : Bluestein.BluesteinLeafNode ℂ :=
        ⟨Compiler.bluesteinNode length below.length chunk fft.next, compiler.leafRow plan tables .forward, preparePack,
          finishPack, prepares, finishes⟩
      have kernels := @Bluestein.leafKernels _ _ _ _ _ _ node fresh compiler.schedule roots transform
      exact Bluestein.fusedTransforms child.transforms fresh chunks kernels limit
    | directDft | stockham | fourStep | bluestein | rader => exact fits.elim
  | fourStep rowLeaf colLeaf rowPack colPack =>
    obtain ⟨row, col, belowRow, belowCol, rfl, rowLength, colLength, rowPacks, colPacks⟩ := fits.split
    have product : rowLeaf.length * colLeaf.length = (RawPlan.fourStep (.leaf row) (.leaf col) belowRow belowCol).length := by
      rw [rowLength, colLength]
      rfl
    obtain ⟨rowTables, rowBuilt, rowTransform⟩ :=
      leafForward fun d f member => exact_ d f (List.mem_append_left _ member)
    obtain ⟨colTables, colBuilt, colTransform⟩ :=
      leafForward fun d f member => exact_ d f (List.mem_append_right _ member)
    rw [← rootMul colLeaf.positive] at rowTransform
    rw [← rootMul rowLeaf.positive, Nat.mul_comm] at colTransform
    rw [← product] at roots fresh ⊢
    let node : Bluestein.BluesteinFourStepNode ℂ :=
      ⟨Compiler.bluesteinNode length (rowLeaf.length * colLeaf.length) chunk fft.next, rowLeaf.length, colLeaf.length,
        compiler.target, compiler.leafRow rowLeaf rowTables .forward, compiler.leafRow colLeaf colTables .forward,
        root .forward (rowLeaf.length * colLeaf.length), rowPack, colPack, rowPacks, colPacks⟩
    have split : Bluestein.SplitOk node (root .forward (rowLeaf.length * colLeaf.length)) :=
      ⟨rfl, rfl, rowTransform, colTransform⟩
    have kernels := Bluestein.fourStepKernels roots fresh split compiler.schedule
    have below := child.transforms
    rw [← product] at below
    refine ⟨_, by rw [Compiler.executeBluestein, dif_pos ⟨rowPacks, colPacks⟩, rowBuilt, colBuilt]; rfl, ?_⟩
    exact Bluestein.fusedTransforms below fresh chunks kernels limit

theorem bluesteinCorrect {fft : RawNode} {fftGood : State ℂ → Prop} {length convLength chunk first limit : ℕ}
    {execute : Bluestein.BluesteinNode → Execute ℂ} (positive : 0 < length) (small : length ≤ 94906267)
    (room : 2 * length - 1 ≤ convLength)
    (child : Correct fft fftGood first convLength chunk (dft convLength (root .forward convLength)))
    (executes : ExecutesBluestein fft fftGood first length convLength chunk direction limit execute) :
    Correct (Compiler.bluesteinRaw length convLength chunk fft direction execute)
      ((Compiler.bluesteinNode length convLength chunk fft.next).Good fftGood (root direction (2 * length))
        (root .forward convLength)) first length limit (dft length (root direction length)) := by
  have grows := child.grows
  have owned : ∀ i, (Compiler.bluesteinNode length convLength chunk fft.next).Owned (Between first fft.next) i →
      Between first (fft.next + 5) i := by
    intro i inner
    simp only [Bluestein.BluesteinNode.Owned, ConvolutionBuffers.Own, Compiler.bluesteinNode, Between] at inner ⊢
    omega
  unfold ExecutesBluestein at executes
  rw [rootSquare] at executes
  have kept : ∀ s (a : Address), a.buffer ≠ fft.next → a.buffer ≠ fft.next + 1 →
      ((Compiler.bluesteinRaw length convLength chunk fft direction execute).upload s).memory a = (fft.upload s).memory a :=
    fun s a chirp time => (uploadFrame time).trans (uploadFrame chirp)
  have flags : ∀ s i, i ≠ fft.next + 2 →
      ((Compiler.bluesteinRaw length convLength chunk fft direction execute).upload s).ready i = (fft.upload s).ready i :=
    fun s i other => Function.update_of_ne other _ _
  refine ⟨grows.trans (Nat.le_add_right _ _), executes.mono owned, fun s => ⟨⟨?_, ?_, ?_⟩, ?_⟩, ?_, ?_⟩
  · exact child.transforms.keeps _ _ (fun a inner => kept s a inner.2.ne (inner.2.trans (Nat.lt_succ_self _)).ne)
      (fun i inner => flags s i (inner.2.trans (Nat.lt_add_of_pos_right Nat.two_pos)).ne) (child.fresh s)
  · exact fun i inside => (uploadEntry inside).trans (convolutionTableEntry positive small room inside)
  · intro set
    have blank : ((Compiler.bluesteinRaw length convLength chunk fft direction execute).upload s).ready (fft.next + 2) = false :=
      Function.update_self _ _ _
    exact absurd (set.symm.trans blank) (by decide)
  · intro i inside
    have chirp : ((Compiler.bluesteinRaw length convLength chunk fft direction execute).upload s).memory
        ((⟨fft.next, 0⟩ : Address).at i) = chirpTable direction length i :=
      (uploadFrame (Nat.succ_ne_self _).symm).trans (uploadEntry inside)
    exact chirp.trans (chirpTableEntry inside small)
  · intro s a outside
    have inner : ∀ i, a.buffer = i → first ≤ i → ¬ i < fft.next + 5 := by
      rintro i rfl low high
      exact outside ⟨low, high⟩
    exact (kept s a (fun same => inner _ same grows (by omega)) fun same => inner _ same (by omega) (by omega)).trans
      (child.memory s a fun within => outside ⟨within.1, within.2.trans_le (Nat.le_add_right _ _)⟩)
  · intro s i outside
    have other : i ≠ fft.next + 2 := by
      rintro rfl
      exact outside ⟨by omega, by change _ < fft.next + 5; omega⟩
    exact (flags s i other).trans (child.ready s i fun within => outside ⟨within.1, within.2.trans_le (Nat.le_add_right _ _)⟩)

theorem raderCorrect {fft : RawNode} {fftGood : State ℂ → Prop} {prime g batch first limit : ℕ} {idx : List ℕ}
    (isPrime : prime.Prime) (rootPositive : 0 < g) (rootLess : g < prime) (order : orderOf (g : ZMod prime) = prime - 1)
    (table : idx = (List.range (prime - 1)).map fun i => g ^ i % prime) (several : 1 ≤ limit) (fits : limit ≤ batch)
    (child : Correct fft fftGood first (prime - 1) limit (dft (prime - 1) (root .forward (prime - 1)))) :
    Correct (compiler.raderRaw prime idx batch fft direction)
      ((Compiler.raderNode prime idx batch fft.next).Good fftGood g (root direction prime) (root .forward (prime - 1)))
      first prime limit (dft prime (root direction prime)) := by
  have grows := child.grows
  have two := isPrime.two_le
  have entry : ∀ i < prime - 1, idx.getD i 0 = g ^ i % prime := by
    intro i inside
    rw [table, List.getD_eq_getElem _ _ (by simpa using inside), List.getElem_map, List.getElem_range]
  have tables : Rader.RaderTables (Compiler.raderNode prime idx batch fft.next) g :=
    ⟨isPrime, rootPositive, rootLess, order, rfl, entry⟩
  have roots : Rader.RaderRoots prime (root direction prime) (root .forward (prime - 1)) :=
    ⟨rootWhole isPrime.pos, rootPrimitive (by omega), rootStar, Nat.cast_ne_zero.mpr (by omega)⟩
  have apart : (Compiler.raderNode prime idx batch fft.next).Apart (Between first fft.next) := by
    constructor <;> simp [Compiler.raderNode, Between]
  have copyApart : ¬ (Compiler.raderNode prime idx batch fft.next).Own (Between first fft.next) (fft.next + 4) := by
    simp [Compiler.raderNode, ConvolutionBuffers.Own, Between]
  have owned : ∀ i, (Compiler.raderNode prime idx batch fft.next).Owned (Between first fft.next) i →
      Between first (fft.next + 5) i := by
    intro i inner
    simp only [Rader.RaderNode.Owned, ConvolutionBuffers.Own, Compiler.raderNode, Between] at inner ⊢
    omega
  have computes : Transforms (compiler.raderRaw prime idx batch fft direction).execute
      ((Compiler.raderNode prime idx batch fft.next).Good fftGood g (root direction prime) (root .forward (prime - 1))) _ prime
      limit (dft prime (root direction prime)) :=
    Rader.raderTransforms tables roots child.transforms apart copyApart several fits
  have kept : ∀ s (a : Address), a.buffer ≠ fft.next →
      ((compiler.raderRaw prime idx batch fft direction).upload s).memory a = (fft.upload s).memory a :=
    fun s a time => uploadFrame time
  have flags : ∀ s i, i ≠ fft.next + 3 →
      ((compiler.raderRaw prime idx batch fft direction).upload s).ready i = (fft.upload s).ready i :=
    fun s i other => Function.update_of_ne other _ _
  refine ⟨grows.trans (Nat.le_add_right _ _), computes.mono owned, fun s => ⟨?_, ?_, ?_⟩, ?_, ?_⟩
  · exact child.transforms.keeps _ _ (fun a inner => kept s a inner.2.ne)
      (fun i inner => flags s i (inner.2.trans (Nat.lt_add_of_pos_right (by decide : 0 < 3))).ne) (child.fresh s)
  · intro i inside
    refine (uploadEntry inside).trans ((raderConvKernel idx i).trans ?_)
    rw [entry i inside]
    rfl
  · intro set
    have blank : ((compiler.raderRaw prime idx batch fft direction).upload s).ready (fft.next + 3) = false :=
      Function.update_self _ _ _
    exact absurd (set.symm.trans blank) (by decide)
  · intro s a outside
    have time : a.buffer ≠ fft.next := fun same => outside (same ▸ ⟨grows, Nat.lt_add_of_pos_right (by decide)⟩)
    exact (kept s a time).trans (child.memory s a fun within => outside ⟨within.1, within.2.trans_le (Nat.le_add_right _ _)⟩)
  · intro s i outside
    have other : i ≠ fft.next + 3 := by
      rintro rfl
      exact outside ⟨by omega, by change _ < fft.next + 5; omega⟩
    exact (flags s i other).trans (child.ready s i fun within => outside ⟨within.1, within.2.trans_le (Nat.le_add_right _ _)⟩)

end Inner

section Trees
variable {compiler : Compiler}

theorem chunkBatchPositive {convLength batch : ℕ} (positive : 0 < batch) : 0 < compiler.chunkBatch convLength batch :=
  lt_min positive (lt_min (lt_max_of_lt_left Nat.one_pos) (lt_max_of_lt_left Nat.one_pos))

theorem asLeafSome {plan : RawPlan} {leaf : Leaf.LeafPlan} (found : plan.asLeaf = some leaf) : plan = .leaf leaf := by
  cases plan <;> simp [RawPlan.asLeaf] at found
  rw [found]

/- Compilation succeeds, and the node it returns is right for every batch up to the one it was compiled for. -/
theorem compiles (works : compiler.Works) {plan : RawPlan} (sound : plan.Sound) (exact_ : compiler.Exact plan.radices)
    (direction : Direction) {batch : ℕ} (positive : 0 < batch) (first : ℕ) :
    ∃ node good, compiler.compileRawNode plan direction batch first = some node ∧
      Correct node good first plan.length batch (dft plan.length (root direction plan.length)) := by
  induction plan generalizing direction batch first with
  | leaf plan =>
    obtain ⟨tables, built, ok⟩ := leafTablesBuilt plan direction
    exact ⟨_, _, by rw [Compiler.compileRawNode, built]; rfl, leafCorrect exact_ ok first batch⟩
  | directDft length form =>
    exact ⟨_, _, rfl, directCorrect sound.2 batch first⟩
  | stockham factors blocks =>
    exact ⟨_, _, by rw [Compiler.compileRawNode, dif_pos ⟨sound.1, sound.2⟩],
      stockhamCorrect ⟨sound.1, sound.2⟩ exact_ first batch⟩
  | fourStep rowPlan colPlan rowPack colPack rowIh colIh =>
    obtain ⟨rowPacks, colPacks, rowSound, colSound⟩ := sound
    have rowExact : compiler.Exact rowPlan.radices := fun d f member => exact_ d f (List.mem_append_left _ member)
    have colExact : compiler.Exact colPlan.radices := fun d f member => exact_ d f (List.mem_append_right _ member)
    have generic : ∃ node good, (do
        let rowChild ← compiler.compileRawNode rowPlan direction (batch * colPlan.length) first
        let colChild ← compiler.compileRawNode colPlan direction (batch * rowPlan.length) rowChild.next
        some (compiler.genericNode rowPlan.length colPlan.length rowChild colChild direction)) = some node ∧
        Correct node good first (rowPlan.length * colPlan.length) batch
          (dft (rowPlan.length * colPlan.length) (root direction (rowPlan.length * colPlan.length))) := by
      obtain ⟨rowChild, rowGood, rowRun, row⟩ :=
        rowIh rowSound rowExact direction (Nat.mul_pos positive colSound.positive) first
      obtain ⟨colChild, colGood, colRun, col⟩ :=
        colIh colSound colExact direction (Nat.mul_pos positive rowSound.positive) rowChild.next
      refine ⟨compiler.genericNode rowPlan.length colPlan.length rowChild colChild direction, _, ?_,
        genericCorrect rowSound.positive colSound.positive row col⟩
      simp only [rowRun, colRun, Option.bind_eq_bind, Option.bind_some]
    rw [Compiler.compileRawNode]
    split
    next rowLeaf colLeaf rowFound colFound =>
      obtain rfl := asLeafSome rowFound
      obtain rfl := asLeafSome colFound
      obtain ⟨rowTables, rowBuilt, rowOk⟩ := leafTablesBuilt rowLeaf direction
      obtain ⟨colTables, colBuilt, colOk⟩ := leafTablesBuilt colLeaf direction
      let node : FusedNode :=
        ⟨rowLeaf.length, colLeaf.length, compiler.target, rowPack, colPack, ⟨first, 0⟩, rowPacks, colPacks⟩
      have fused : Correct (compiler.fusedNode node rowLeaf colLeaf rowTables colTables direction (first + 1)) (fun _ => True)
          first node.length batch (dft node.length (root direction node.length)) :=
        fusedCorrect works rfl rfl rowExact colExact rowOk colOk first batch rfl
      refine ⟨_, _, ?_, fused⟩
      rw [Compiler.compileFused, dif_pos ⟨rowPacks, colPacks⟩, rowBuilt, colBuilt]
      rfl
    next => exact generic
  | bluestein length form fftPlan ih =>
    obtain ⟨lengthPositive, small, room, fits, childSound⟩ := sound
    have chunks : 0 < compiler.chunkBatch fftPlan.length batch := chunkBatchPositive positive
    have formExact : compiler.Exact form.radices := fun d f member => exact_ d f (List.mem_append_left _ member)
    have childExact : compiler.Exact fftPlan.radices := fun d f member => exact_ d f (List.mem_append_right _ member)
    obtain ⟨fft, good, run, child⟩ := ih childSound childExact .forward chunks first
    obtain ⟨execute, built, executes⟩ := formExecutes room childSound.positive fits formExact chunks child batch
    refine ⟨_, _, ?_, bluesteinCorrect lengthPositive small room child executes⟩
    rw [Compiler.compileRawNode, run, Option.bind_eq_bind, Option.bind_some, built]
    rfl
  | rader prime g idx convPlan ih =>
    obtain ⟨isPrime, rootPositive, rootLess, order, table, length, childSound⟩ := sound
    obtain ⟨fft, good, run, child⟩ := ih childSound exact_ .forward positive first
    rw [length] at child
    have size : idx.length = prime - 1 := by rw [table, List.length_map, List.length_range]
    refine ⟨compiler.raderRaw prime idx batch fft direction, _, ?_,
      raderCorrect isPrime rootPositive rootLess order table positive le_rfl child⟩
    rw [Compiler.compileRawNode, run, Option.bind_eq_bind, Option.bind_some, if_pos size]

end Trees

end FlagFft.Compiled
