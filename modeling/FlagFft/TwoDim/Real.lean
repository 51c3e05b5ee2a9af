import FlagFft.TwoDim.Passes
import FlagFft.Real.Packed

/-! The real two-dimensional nodes. Every schedule is rows and then turned columns, or the other way
round; memory holds scalars and a complex element is two of them. -/
namespace FlagFft.TwoDim
open Library.Dft Library.RealDft Library.Indexing FlagFft.Real
open scoped ComplexConjugate

section Nodes
variable {S : Type*}

abbrev Work (S : Type*) := Memory S → Except Failure (Memory S)

def runPasses (passes : List (Pass (Work S))) (m : Memory S) : Except Failure (Memory S) :=
  passes.foldlM (fun m pass => pass.work m) m

/- A compiled child that also reads the distances of its context. -/
abbrev ContextChild (S : Type*) := Address → Address → BatchContext → Work S

abbrev TransposeKernel (S : Type*) := Address → Address → ℕ → Memory S → Memory S

def transposePass (kernel : TransposeKernel S) (batch : ℕ) : Address → Address → Pass (Work S) :=
  .between fun src dst m => .ok (kernel src dst batch m)

/- Transpose, transform the rows, transpose back. -/
def turnedColumns (fwd inv : TransposeKernel S) (col : ContextChild S) (context : BatchContext) (batch : ℕ)
    (source first second target : Address) : List (Pass (Work S)) :=
  [transposePass fwd batch source first, .between (fun src dst => col src dst context) first second,
    transposePass inv batch second target]

structure Raw2DR2CRowNode (S : Type*) where
  n0 : ℕ
  n1 : ℕ
  rowR2c : ContextChild S
  colFft : ContextChild S
  transposeFwd : TransposeKernel S
  transposeInv : TransposeKernel S
  temp1 : Address
  temp2 : Address

def Raw2DR2CRowNode.passes (node : Raw2DR2CRowNode S) (batch : ℕ) (input output : Address) : List (Pass (Work S)) :=
  let half := node.n1 / 2 + 1
  .between (fun src dst => node.rowR2c src dst ⟨batch * node.n0, node.n1, half⟩) input node.temp1 ::
    turnedColumns node.transposeFwd node.transposeInv node.colFft ⟨batch * half, node.n0, node.n0⟩ batch
      node.temp1 node.temp2 node.temp1 output

def Raw2DR2CRowNode.execute (node : Raw2DR2CRowNode S) (batch : ℕ) (input output : Address) : Work S :=
  runPasses (node.passes batch input output)

structure Raw2DC2RRowNode (S : Type*) where
  n0 : ℕ
  n1 : ℕ
  colFft : ContextChild S
  rowC2r : ContextChild S
  transposeFwd : TransposeKernel S
  transposeInv : TransposeKernel S
  temp1 : Address
  temp2 : Address

def Raw2DC2RRowNode.passes (node : Raw2DC2RRowNode S) (batch : ℕ) (input output : Address) : List (Pass (Work S)) :=
  let half := node.n1 / 2 + 1
  turnedColumns node.transposeFwd node.transposeInv node.colFft ⟨batch * half, node.n0, node.n0⟩ batch
      input node.temp1 node.temp2 node.temp1 ++
    [.between (fun src dst => node.rowC2r src dst ⟨batch * node.n0, half, node.n1⟩) node.temp1 output]

def Raw2DC2RRowNode.execute (node : Raw2DC2RRowNode S) (batch : ℕ) (input output : Address) : Work S :=
  runPasses (node.passes batch input output)

variable [Field S]

def chunksPass (kernel : TileKernel S) (rows blockLimit : ℕ) (schedule : Schedule) :
    Address → Address → Pass (Work S) :=
  .between fun src dst m => .ok (kernel.launchChunks src dst rows blockLimit schedule m)

structure Raw2DR2CNode (S : Type*) where
  n0 : ℕ
  n1 : ℕ
  elements : ℕ
  rowFft : ContextChild S
  colFft : ContextChild S
  transposeFwd : TransposeKernel S
  transposeInv : TransposeKernel S
  rowFftBuf : Address
  temp1 : Address
  temp2 : Address
  wide : 256 ≤ elements

/- The half spectrum goes to the user's output and is transposed from there. -/
def Raw2DR2CNode.passes (node : Raw2DR2CNode S) (batch blockLimit : ℕ) (schedule : Schedule)
    (input output : Address) : List (Pass (Work S)) :=
  let half := node.n1 / 2 + 1
  chunksPass (realToComplex node.n1 node.elements node.n1) (batch * node.n0) blockLimit schedule input node.rowFftBuf ::
    .between (fun src dst => node.rowFft src dst ⟨batch * node.n0, 0, 0⟩) node.rowFftBuf node.rowFftBuf ::
    chunksPass (r2cHalfPack node.n1 node.elements half) (batch * node.n0) blockLimit schedule node.rowFftBuf output ::
    turnedColumns node.transposeFwd node.transposeInv node.colFft ⟨batch * half, 0, 0⟩ batch
      output node.temp1 node.temp2 output

def Raw2DR2CNode.execute (node : Raw2DR2CNode S) (batch blockLimit : ℕ) (schedule : Schedule) (input output : Address) :
    Work S :=
  runPasses (node.passes batch blockLimit schedule input output)

structure Raw2DC2RNode (S : Type*) where
  n0 : ℕ
  n1 : ℕ
  elements : ℕ
  colFft : ContextChild S
  rowFft : ContextChild S
  transposeFwd : TransposeKernel S
  transposeInv : TransposeKernel S
  temp1 : Address
  temp2 : Address
  temp3 : Address
  wide : 256 ≤ elements

def Raw2DC2RNode.passes (node : Raw2DC2RNode S) (batch blockLimit : ℕ) (schedule : Schedule)
    (input output : Address) : List (Pass (Work S)) :=
  let half := node.n1 / 2 + 1
  turnedColumns node.transposeFwd node.transposeInv node.colFft ⟨batch * half, 0, 0⟩ batch
      input node.temp1 node.temp2 node.temp1 ++
    [chunksPass (compactToHermitianFull node.n1 node.elements half) (batch * node.n0) blockLimit schedule
        node.temp1 node.temp3,
      .between (fun src dst => node.rowFft src dst ⟨batch * node.n0, 0, 0⟩) node.temp3 node.temp3,
      chunksPass (complexToReal node.n1 node.elements node.n1) (batch * node.n0) blockLimit schedule
        node.temp3 output]

def Raw2DC2RNode.execute (node : Raw2DC2RNode S) (batch blockLimit : ℕ) (schedule : Schedule) (input output : Address) :
    Work S :=
  runPasses (node.passes batch blockLimit schedule input output)

end Nodes

section Rows

theorem liftScalars (f : (ℕ → ℂ) → ℕ → ℂ) (z : ℕ → ℂ) : lift f (scalars z) = scalars (f z) := by
  unfold lift
  rw [interleavedScalars]

theorem liftTwice (f g : (ℕ → ℂ) → ℕ → ℂ) (x : ℕ → ℝ) : lift f (lift g x) = lift (fun z => f (g z)) x :=
  liftScalars f (g (interleaved x))

theorem liftCongr {f g : (ℕ → ℂ) → ℕ → ℂ} {x : ℕ → ℝ} {i : ℕ}
    (same : f (interleaved x) (i / 2) = g (interleaved x) (i / 2)) : lift f x i = lift g x i := by
  unfold lift scalars
  rw [same]

theorem interleavedShift (x : ℕ → ℝ) (b n : ℕ) :
    interleaved (fun j => x (b * (2 * n) + j)) = fun j => interleaved x (b * n + j) := by
  funext j
  have even : b * (2 * n) + 2 * j = 2 * (b * n + j) := by ring
  have odd : b * (2 * n) + (2 * j + 1) = 2 * (b * n + j) + 1 := by ring
  simp only [interleaved, even, odd]

/- Rows of complex elements, as rows of scalars. -/
theorem scalarsBlock {n : ℕ} (z : ℕ → ℕ → ℂ) (i : ℕ) :
    scalars (z (i / (2 * n))) (i % (2 * n)) = scalars (fun o => z (o / n) (o % n)) i := by
  unfold scalars
  rw [Nat.mod_mul_right_div_self, Nat.mod_mul_right_mod, ← Nat.div_div_eq_div_mul]

theorem liftBlockRows {nIn nOut : ℕ} (f : (ℕ → ℂ) → ℕ → ℂ) (x : ℕ → ℝ) :
    blockRows (2 * nIn) (2 * nOut) (lift f) x = lift (blockRows nIn nOut f) x := by
  funext i
  unfold blockRows lift
  rw [interleavedShift]
  exact scalarsBlock (fun b => f fun j => interleaved x (b * nIn + j)) i

/- The half spectrum of every real row. -/
theorem r2cBlockRows {n1 h : ℕ} (x : ℕ → ℝ) :
    blockRows n1 (2 * h) (r2cRow n1) x = scalars (blockRows n1 h (dft n1 (forwardRoot n1)) fun j => (x j : ℂ)) := by
  funext i
  unfold blockRows r2cRow
  exact scalarsBlock (fun b => dft n1 (forwardRoot n1) fun j => ((x (b * n1 + j) : ℝ) : ℂ)) i

end Rows

section Columns
variable {scratch child : Address → Prop} {batch n0 h : ℕ} {w : ℂ}

/- A child on contiguous rows, with the distances it is called with. -/
def ContextChild.Computes (child : ContextChild ℝ) (scratch : Address → Prop) (inputDistance outputDistance nIn nOut : ℕ)
    (row : (ℕ → ℝ) → ℕ → ℝ) : Prop :=
  ∀ src dst batch, Disjoint src dst nIn nOut → (∀ i, ¬ scratch (src.at i)) → (∀ i, ¬ scratch (dst.at i)) →
    RowRun (child src dst ⟨batch, inputDistance, outputDistance⟩) scratch src dst nIn nOut batch row

theorem runPassesCons {S : Type*} {pass : Pass (Work S)} {rest : List (Pass (Work S))} :
    runPasses (pass :: rest) = fun m => pass.work m >>= runPasses rest := rfl

theorem runPassesSingle {S : Type*} {pass : Pass (Work S)} : runPasses [pass] = pass.work := by
  funext m
  exact bind_pure (pass.work m)

theorem runPassesTriple {S : Type*} {one two three : Pass (Work S)} :
    runPasses [one, two, three] = fun m => (one.work m >>= two.work) >>= three.work := by
  rw [runPassesCons, runPassesCons, runPassesSingle]
  funext m
  exact (bind_assoc _ _ _).symm

theorem runPassesAppend {S : Type*} (first second : List (Pass (Work S))) :
    runPasses (first ++ second) = fun m => runPasses first m >>= runPasses second := by
  funext m
  unfold runPasses
  exact List.foldlM_append

/- The columns of one (n0, h) block of complex elements. -/
noncomputable def columnRow (n0 h : ℕ) (w : ℂ) : (ℕ → ℝ) → ℕ → ℝ := lift (columns h (dft n0 w))

theorem columnRowLocal : RowLocal (2 * (n0 * h)) (2 * (n0 * h)) (columnRow n0 h w) :=
  liftLocal (columnsLocal fun _ _ same _ _ => dftCongr same)

/- What the nodes rely on for their two transposes and the transforms between them. -/
structure TurnsOk (fwd inv : TransposeKernel ℝ) (col : ContextChild ℝ) (child : Address → Prop) (distance n0 h : ℕ)
    (w : ℂ) : Prop where
  fwd : Transposes fwd (2 * (n0 * h)) (lift (transposeRow n0 h))
  inv : Transposes inv (2 * (n0 * h)) (lift (transposeRow h n0))
  col : col.Computes child distance distance (2 * n0) (2 * n0) (lift (dft n0 w))

theorem turnedColumnsRun {fwd inv : TransposeKernel ℝ} {col : ContextChild ℝ} {distance : ℕ}
    (ok : TurnsOk fwd inv col child distance n0 h w) {source first second target : Address}
    (entry : source.buffer ≠ first.buffer) (between : first.buffer ≠ second.buffer)
    (leave : second.buffer ≠ target.buffer) (firstKept : ∀ i, ¬ child (first.at i))
    (secondKept : ∀ i, ¬ child (second.at i)) (sub : ∀ a, child a → scratch a)
    (firstScratch : ∀ i, scratch (first.at i)) (secondScratch : ∀ i, scratch (second.at i)) :
    RowRun (runPasses (turnedColumns fwd inv col ⟨batch * h, distance, distance⟩ batch source first second target))
      scratch source target (2 * (n0 * h)) (2 * (n0 * h)) batch (columnRow n0 h w) := by
  have turn := (ok.fwd source first batch entry).run.mono fun a absurd => (absurd.elim : scratch a)
  have rows := blockRowsRun ((ok.col first second (batch * h) (.inr between) firstKept secondKept).mono sub)
  have back := (ok.inv second target batch leave).run.mono fun a absurd => (absurd.elim : scratch a)
  have size : h * (2 * n0) = 2 * (n0 * h) := by ring
  have rowsLocal : RowLocal (h * (2 * n0)) (h * (2 * n0)) (blockRows (2 * n0) (2 * n0) (lift (dft n0 w))) :=
    blockRowsLocal dftLocal
  have backLocal : RowLocal (2 * (n0 * h)) (2 * (n0 * h)) (lift (transposeRow h n0)) := by
    have turned : RowLocal (2 * (h * n0)) (2 * (n0 * h)) (lift (transposeRow h n0)) := liftLocal transposeLocal
    rwa [Nat.mul_comm h n0] at turned
  rw [size] at rows rowsLocal
  have all := (turn.comp rows rowsLocal fun _ _ _ _ => firstScratch _).comp back backLocal fun _ _ _ _ => secondScratch _
  have same : runPasses (turnedColumns fwd inv col ⟨batch * h, distance, distance⟩ batch source first second target) =
      fun m => (.ok (fwd source first batch m) >>= col first second ⟨batch * h, distance, distance⟩) >>=
        fun m => .ok (inv second target batch m) := runPassesTriple
  rw [same]
  refine LayoutRun.congr all fun x i hi => ?_
  have inside : i / 2 < n0 * h := by omega
  have columnLocal : RowLocal n0 n0 (dft n0 w) := fun _ _ same _ _ => dftCongr same
  rw [liftBlockRows, liftTwice, liftTwice]
  exact liftCongr (transposedRows columnLocal (interleaved x) inside)

end Columns

section Specifications

/- The first `n1 / 2 + 1` frequencies of every row of the transform of a real block. -/
noncomputable def r2c2Row (n0 n1 : ℕ) (x : ℕ → ℝ) : ℕ → ℝ :=
  scalars fun o => dft2 n0 n1 (forwardRoot n0) (forwardRoot n1) (fun j => (x j : ℂ))
    (o / (n1 / 2 + 1) * n1 + o % (n1 / 2 + 1))

/- The inverse transform of a half spectrum: the real part of that of the completed spectrum. -/
noncomputable def c2r2Row (n0 n1 : ℕ) (x : ℕ → ℝ) (t : ℕ) : ℝ :=
  (dft2 n0 n1 (conj (forwardRoot n0)) (conj (forwardRoot n1)) (mirrored2 n0 n1 (interleaved x)) t).re

theorem r2c2Passes {n0 n1 i : ℕ} (positive : 0 < n1) (x : ℕ → ℝ) (hi : i < 2 * (n0 * (n1 / 2 + 1))) :
    columnRow n0 (n1 / 2 + 1) (forwardRoot n0) (blockRows n1 (2 * (n1 / 2 + 1)) (r2cRow n1) x) i = r2c2Row n0 n1 x i := by
  unfold columnRow r2c2Row
  rw [r2cBlockRows, liftScalars]
  unfold scalars
  rw [columnsOfRows _ _ _ (by omega) (by omega)]

theorem forwardRootHalf {n : ℕ} (positive : 0 < n) (even : n % 2 = 0) : conj (forwardRoot n) ^ (n / 2) = -1 := by
  obtain ⟨P, rfl⟩ : ∃ P, n = 2 * P := ⟨n / 2, by omega⟩
  rw [Nat.mul_div_cancel_left P Nat.two_pos, ← map_pow, forwardRootMiddle (by omega), map_neg, map_one]

theorem c2r2Passes {n0 n1 t : ℕ} (x : ℕ → ℝ) (ht : t < n0 * n1) :
    blockRows (2 * (n1 / 2 + 1)) n1 (c2rRow n1 (conj (forwardRoot n1)))
      (columnRow n0 (n1 / 2 + 1) (conj (forwardRoot n0)) x) t = c2r2Row n0 n1 x t := by
  have cols : 0 < n1 := Nat.pos_of_mul_pos_left (Nat.zero_lt_of_lt ht)
  have inside : t / n1 < n0 := Nat.div_lt_of_lt_mul (by rwa [Nat.mul_comm] at ht)
  have unit := UnitRoot.conj (forwardRootUnit (Nat.zero_lt_of_lt inside))
  have row := mirroredColumns unit (conj (forwardRoot n1)) (interleaved x) (t / n1) (Nat.mod_lt t cols)
  rw [Nat.mul_comm (t / n1), Nat.div_add_mod] at row
  unfold blockRows c2rRow columnRow c2r2Row
  rw [interleavedShift, hermitianFullRe (forwardRootHalf cols), ← row]
  refine congrArg Complex.re (dftCongr fun k hk => mirroredCongr (fun j hj => ?_) hk)
  unfold lift
  rw [interleavedScalars]
  unfold columns
  rw [mulAddDiv hj, mulAddMod hj]

end Specifications

section Rc
variable {child : Address → Prop} {input output : Address} {batch : ℕ}

def Raw2DR2CRowNode.scratch (node : Raw2DR2CRowNode ℝ) (child : Address → Prop) (a : Address) : Prop :=
  a.buffer = node.temp1.buffer ∨ a.buffer = node.temp2.buffer ∨ child a

structure Raw2DR2CRowNode.Ok (node : Raw2DR2CRowNode ℝ) (child : Address → Prop) (input output : Address) : Prop where
  row : node.rowR2c.Computes child node.n1 (node.n1 / 2 + 1) node.n1 (2 * (node.n1 / 2 + 1)) (r2cRow node.n1)
  turns : TurnsOk node.transposeFwd node.transposeInv node.colFft child node.n0 node.n0 (node.n1 / 2 + 1)
    (forwardRoot node.n0)
  temps : node.temp1.buffer ≠ node.temp2.buffer
  temp1 : ∀ i, ¬ child (node.temp1.at i)
  temp2 : ∀ i, ¬ child (node.temp2.at i)
  input : ∀ i, ¬ node.scratch child (input.at i)
  output : ∀ i, ¬ node.scratch child (output.at i)

theorem Raw2DR2CRowNode.executeRun {node : Raw2DR2CRowNode ℝ} (positive : 0 < node.n1) (ok : node.Ok child input output) :
    RowRun (node.execute batch input output) (node.scratch child) input output (node.n0 * node.n1)
      (2 * (node.n0 * (node.n1 / 2 + 1))) batch (r2c2Row node.n0 node.n1) := by
  have entry : input.buffer ≠ node.temp1.buffer := fun same => ok.input 0 (.inl same)
  have leave : node.temp1.buffer ≠ output.buffer := fun same => ok.output 0 (.inl same.symm)
  have sub : ∀ a, child a → node.scratch child a := fun _ inner => .inr (.inr inner)
  have rows := blockRowsRun ((ok.row input node.temp1 (batch * node.n0) (.inr entry)
    (fun i inner => ok.input i (sub _ inner)) ok.temp1).mono sub)
  have size : node.n0 * (2 * (node.n1 / 2 + 1)) = 2 * (node.n0 * (node.n1 / 2 + 1)) := by ring
  rw [size] at rows
  have cols : RowRun _ (node.scratch child) node.temp1 output _ _ batch _ := turnedColumnsRun ok.turns ok.temps
    ok.temps.symm leave ok.temp2 ok.temp1 sub (fun _ => .inr (.inl rfl)) (fun _ => .inl rfl)
  unfold Raw2DR2CRowNode.execute Raw2DR2CRowNode.passes
  rw [runPassesCons]
  exact (LayoutRun.comp rows cols columnRowLocal fun _ _ _ _ => .inl rfl).congr fun x i hi => r2c2Passes positive x hi

def Raw2DC2RRowNode.scratch (node : Raw2DC2RRowNode ℝ) (child : Address → Prop) (a : Address) : Prop :=
  a.buffer = node.temp1.buffer ∨ a.buffer = node.temp2.buffer ∨ child a

structure Raw2DC2RRowNode.Ok (node : Raw2DC2RRowNode ℝ) (child : Address → Prop) (input output : Address) : Prop where
  row : node.rowC2r.Computes child (node.n1 / 2 + 1) node.n1 (2 * (node.n1 / 2 + 1)) node.n1
    (c2rRow node.n1 (conj (forwardRoot node.n1)))
  turns : TurnsOk node.transposeFwd node.transposeInv node.colFft child node.n0 node.n0 (node.n1 / 2 + 1)
    (conj (forwardRoot node.n0))
  temps : node.temp1.buffer ≠ node.temp2.buffer
  temp1 : ∀ i, ¬ child (node.temp1.at i)
  temp2 : ∀ i, ¬ child (node.temp2.at i)
  input : ∀ i, ¬ node.scratch child (input.at i)
  output : ∀ i, ¬ node.scratch child (output.at i)

theorem c2rRowLocal {n : ℕ} {c : ℂ} : RowLocal (2 * (n / 2 + 1)) n (c2rRow n c) := by
  intro x y same k _
  unfold c2rRow
  refine congrArg Complex.re (dftCongr fun j hj => ?_)
  have source : (if j < n / 2 + 1 then j else n - j) < n / 2 + 1 := by split <;> omega
  have entry : interleaved x (if j < n / 2 + 1 then j else n - j) = interleaved y (if j < n / 2 + 1 then j else n - j) := by
    unfold interleaved
    rw [same _ (by omega), same _ (by omega)]
  unfold hermitianFull
  simp only [entry]

theorem Raw2DC2RRowNode.executeRun {node : Raw2DC2RRowNode ℝ} (ok : node.Ok child input output) :
    RowRun (node.execute batch input output) (node.scratch child) input output
      (2 * (node.n0 * (node.n1 / 2 + 1))) (node.n0 * node.n1) batch (c2r2Row node.n0 node.n1) := by
  have entry : input.buffer ≠ node.temp1.buffer := fun same => ok.input 0 (.inl same)
  have leave : node.temp1.buffer ≠ output.buffer := fun same => ok.output 0 (.inl same.symm)
  have sub : ∀ a, child a → node.scratch child a := fun _ inner => .inr (.inr inner)
  have cols : RowRun _ (node.scratch child) input node.temp1 _ _ batch _ := turnedColumnsRun ok.turns entry ok.temps
    ok.temps.symm ok.temp1 ok.temp2 sub (fun _ => .inl rfl) (fun _ => .inr (.inl rfl))
  have rows := blockRowsRun ((ok.row node.temp1 output (batch * node.n0) (.inr leave) ok.temp1
    (fun i inner => ok.output i (sub _ inner))).mono sub)
  have rowsLocal : RowLocal (node.n0 * (2 * (node.n1 / 2 + 1))) (node.n0 * node.n1)
      (blockRows (2 * (node.n1 / 2 + 1)) node.n1 (c2rRow node.n1 (conj (forwardRoot node.n1)))) :=
    blockRowsLocal c2rRowLocal
  have size : node.n0 * (2 * (node.n1 / 2 + 1)) = 2 * (node.n0 * (node.n1 / 2 + 1)) := by ring
  rw [size] at rows rowsLocal
  unfold Raw2DC2RRowNode.execute Raw2DC2RRowNode.passes
  rw [runPassesAppend, runPassesSingle]
  exact (LayoutRun.comp cols rows rowsLocal fun _ _ _ _ => .inl rfl).congr fun x t ht => c2r2Passes x ht

end Rc

section Generic
variable {child scratch : Address → Prop} {input output : Address} (rows blockLimit : ℕ) (schedule : Schedule)

/- A real row as complex elements. -/
def complexified (x : ℕ → ℝ) : ℕ → ℝ := scalars fun j => (x j : ℂ)

theorem realToComplexComputes {n elements : ℕ} (wide : 256 ≤ elements) :
    (realToComplex n elements n).Computes (2 * n) complexified where
  wide := wide
  total := Nat.mul_comm _ _
  fits := le_rfl
  value x k _ _ h := (scalarsPart (fun j => (x j : ℂ)) k h).symm

theorem r2cHalfPackComputes {n elements d : ℕ} (wide : 256 ≤ elements) (fits : n / 2 + 1 ≤ d) :
    (r2cHalfPack (S := ℝ) n elements d).Computes (2 * (n / 2 + 1)) (fun x => x) where
  wide := wide
  total := Nat.mul_comm _ _
  fits := Nat.mul_le_mul_left 2 fits
  value x k _ index (h : index < 2) := by
    have cases : index = 0 ∨ index = 1 := by omega
    rcases cases with rfl | rfl
    · exact congrArg x (Nat.mul_comm 2 k)
    · exact congrArg x (congrArg (· + 1) (Nat.mul_comm 2 k))

theorem complexifiedLocal {n : ℕ} : RowLocal n (2 * n) complexified := by
  intro x y same k hk
  unfold complexified scalars
  simp only [same (k / 2) (by omega)]

theorem halfLocal {n : ℕ} (positive : 0 < n) : RowLocal (2 * n) (2 * (n / 2 + 1)) (fun x : ℕ → ℝ => x) :=
  fun _ _ same k _ => same k (by omega)

/- Expand, transform in place, keep half: every row becomes its half spectrum. -/
theorem expandTransformPack {fft : ContextChild ℝ} {n elements : ℕ} {buffer : Address} (wide : 256 ≤ elements)
    (positive : 0 < n) (computes : fft.Computes child 0 0 (2 * n) (2 * n) (lift (dft n (forwardRoot n))))
    (entry : input.buffer ≠ buffer.buffer) (leave : buffer.buffer ≠ output.buffer)
    (kept : ∀ i, ¬ child (buffer.at i)) (sub : ∀ a, child a → scratch a) (middle : ∀ i, scratch (buffer.at i)) :
    RowRun (runPasses [chunksPass (realToComplex n elements n) rows blockLimit schedule input buffer,
        .between (fun src dst => fft src dst ⟨rows, 0, 0⟩) buffer buffer,
        chunksPass (r2cHalfPack n elements (n / 2 + 1)) rows blockLimit schedule buffer output])
      scratch input output n (2 * (n / 2 + 1)) rows (r2cRow n) := by
  have expand := (realToComplexComputes (n := n) wide).launchChunksMap input buffer complexifiedLocal entry rows
    blockLimit schedule scratch
  have transform := (computes buffer buffer rows (.inl ⟨rfl, rfl⟩) kept kept).mono sub
  have pack := (r2cHalfPackComputes (d := n / 2 + 1) wide le_rfl).launchChunksMap buffer output (halfLocal positive) leave
    rows blockLimit schedule scratch
  have all := (expand.run.comp transform dftLocal fun _ _ _ _ => middle _).comp pack.run (halfLocal positive)
    fun _ _ _ _ => middle _
  rw [runPassesTriple]
  refine LayoutRun.congr all fun x i _ => ?_
  unfold complexified
  rw [liftScalars]
  rfl

/- Expand, transform in place, keep the real parts: every half spectrum becomes its real row. -/
theorem expandTransformReal {fft : ContextChild ℝ} {n elements : ℕ} {buffer : Address} (wide : 256 ≤ elements)
    (computes : fft.Computes child 0 0 (2 * n) (2 * n) (lift (dft n (conj (forwardRoot n)))))
    (entry : input.buffer ≠ buffer.buffer) (leave : buffer.buffer ≠ output.buffer)
    (kept : ∀ i, ¬ child (buffer.at i)) (sub : ∀ a, child a → scratch a) (middle : ∀ i, scratch (buffer.at i)) :
    RowRun (runPasses [chunksPass (compactToHermitianFull n elements (n / 2 + 1)) rows blockLimit schedule input buffer,
        .between (fun src dst => fft src dst ⟨rows, 0, 0⟩) buffer buffer,
        chunksPass (complexToReal n elements n) rows blockLimit schedule buffer output])
      scratch input output (2 * (n / 2 + 1)) n rows (c2rRow n (conj (forwardRoot n))) := by
  have expand := (hermitianComputes (n := n) (d := n / 2 + 1) wide).launchChunksMap input buffer hermitianLocal entry rows
    blockLimit schedule scratch
  have transform := (computes buffer buffer rows (.inl ⟨rfl, rfl⟩) kept kept).mono sub
  have pack := (complexToRealComputes (n := n) (d := n) wide le_rfl).launchChunksMap buffer output realPartsLocal leave
    rows blockLimit schedule scratch
  have all := (expand.run.comp transform dftLocal fun _ _ _ _ => middle _).comp pack.run realPartsLocal
    fun _ _ _ _ => middle _
  rw [runPassesTriple]
  refine LayoutRun.congr all fun x t _ => ?_
  unfold realParts c2rRow
  rw [liftTwice]
  unfold lift
  rw [interleavedScalars]

/- Rows of the destination may hold anything in between: they are all written in the end. -/
theorem shrinkRun {op : Work ℝ} {src dst : Layout} {nOut rows : ℕ} {row : (ℕ → ℝ) → ℕ → ℝ}
    (ok : LayoutRun op (fun a => scratch a ∨ ∃ b < rows, ∃ k < nOut, a = dst b k) src dst nOut rows row) :
    LayoutRun op scratch src dst nOut rows row := by
  obtain ⟨run, returns, map⟩ := ok
  refine ⟨run, returns, ⟨map.writes, fun m a kept outside => map.frame m a ?_ outside⟩⟩
  intro inside
  cases inside with
  | inl inner => exact kept inner
  | inr written =>
    obtain ⟨b, hb, k, hk, same⟩ := written
    exact outside b hb k hk same

end Generic

section GenericNodes
variable {child : Address → Prop} {input output : Address} {batch : ℕ} (blockLimit : ℕ) (schedule : Schedule)

def Raw2DR2CNode.scratch (node : Raw2DR2CNode ℝ) (child : Address → Prop) (a : Address) : Prop :=
  a.buffer = node.rowFftBuf.buffer ∨ a.buffer = node.temp1.buffer ∨ a.buffer = node.temp2.buffer ∨ child a

structure Raw2DR2CNode.Ok (node : Raw2DR2CNode ℝ) (child : Address → Prop) (input output : Address) : Prop where
  row : node.rowFft.Computes child 0 0 (2 * node.n1) (2 * node.n1) (lift (dft node.n1 (forwardRoot node.n1)))
  turns : TurnsOk node.transposeFwd node.transposeInv node.colFft child 0 node.n0 (node.n1 / 2 + 1) (forwardRoot node.n0)
  temps : node.temp1.buffer ≠ node.temp2.buffer
  rowFftBuf : ∀ i, ¬ child (node.rowFftBuf.at i)
  temp1 : ∀ i, ¬ child (node.temp1.at i)
  temp2 : ∀ i, ¬ child (node.temp2.at i)
  input : ∀ i, ¬ node.scratch child (input.at i)
  output : ∀ i, ¬ node.scratch child (output.at i)

theorem Raw2DR2CNode.executeRun {node : Raw2DR2CNode ℝ} (positive : 0 < node.n1) (ok : node.Ok child input output) :
    RowRun (node.execute batch blockLimit schedule input output) (node.scratch child) input output (node.n0 * node.n1)
      (2 * (node.n0 * (node.n1 / 2 + 1))) batch (r2c2Row node.n0 node.n1) := by
  have entry : input.buffer ≠ node.rowFftBuf.buffer := fun same => ok.input 0 (.inl same)
  have leave : node.rowFftBuf.buffer ≠ output.buffer := fun same => ok.output 0 (.inl same.symm)
  have first : output.buffer ≠ node.temp1.buffer := fun same => ok.output 0 (.inr (.inl same))
  have second : node.temp2.buffer ≠ output.buffer := fun same => ok.output 0 (.inr (.inr (.inl same.symm)))
  -- the half spectrum lies in the output until it has been transposed
  let wide : Address → Prop := fun a => node.scratch child a ∨ ∃ b < batch,
    ∃ k < 2 * (node.n0 * (node.n1 / 2 + 1)), a = output.row (2 * (node.n0 * (node.n1 / 2 + 1))) b k
  have sub : ∀ a, child a → wide a := fun _ inner => .inl (.inr (.inr (.inr inner)))
  have rows : RowRun _ wide input output _ _ (batch * node.n0) _ := expandTransformPack _ blockLimit schedule
    node.wide positive ok.row entry leave ok.rowFftBuf sub (fun _ => .inl (.inl rfl))
  have rows := blockRowsRun rows
  have size : node.n0 * (2 * (node.n1 / 2 + 1)) = 2 * (node.n0 * (node.n1 / 2 + 1)) := by ring
  rw [size] at rows
  have cols : RowRun _ wide output output _ _ batch _ := turnedColumnsRun ok.turns first ok.temps second ok.temp1 ok.temp2
    sub (fun _ => .inl (.inr (.inl rfl))) (fun _ => .inl (.inr (.inr (.inl rfl))))
  have same : node.execute batch blockLimit schedule input output = fun m => runPasses _ m >>= runPasses _ :=
    runPassesAppend [_, _, _] (turnedColumns _ _ _ _ _ _ _ _ _)
  rw [same]
  exact shrinkRun ((LayoutRun.comp rows cols columnRowLocal fun b hb k hk => .inr ⟨b, hb, k, hk, rfl⟩).congr
    fun x i hi => r2c2Passes positive x hi)

def Raw2DC2RNode.scratch (node : Raw2DC2RNode ℝ) (child : Address → Prop) (a : Address) : Prop :=
  a.buffer = node.temp1.buffer ∨ a.buffer = node.temp2.buffer ∨ a.buffer = node.temp3.buffer ∨ child a

structure Raw2DC2RNode.Ok (node : Raw2DC2RNode ℝ) (child : Address → Prop) (input output : Address) : Prop where
  row : node.rowFft.Computes child 0 0 (2 * node.n1) (2 * node.n1) (lift (dft node.n1 (conj (forwardRoot node.n1))))
  turns : TurnsOk node.transposeFwd node.transposeInv node.colFft child 0 node.n0 (node.n1 / 2 + 1)
    (conj (forwardRoot node.n0))
  temps : node.temp1.buffer ≠ node.temp2.buffer
  full : node.temp1.buffer ≠ node.temp3.buffer
  temp1 : ∀ i, ¬ child (node.temp1.at i)
  temp2 : ∀ i, ¬ child (node.temp2.at i)
  temp3 : ∀ i, ¬ child (node.temp3.at i)
  input : ∀ i, ¬ node.scratch child (input.at i)
  output : ∀ i, ¬ node.scratch child (output.at i)

theorem Raw2DC2RNode.executeRun {node : Raw2DC2RNode ℝ} (ok : node.Ok child input output) :
    RowRun (node.execute batch blockLimit schedule input output) (node.scratch child) input output
      (2 * (node.n0 * (node.n1 / 2 + 1))) (node.n0 * node.n1) batch (c2r2Row node.n0 node.n1) := by
  have entry : input.buffer ≠ node.temp1.buffer := fun same => ok.input 0 (.inl same)
  have leave : node.temp3.buffer ≠ output.buffer := fun same => ok.output 0 (.inr (.inr (.inl same.symm)))
  have sub : ∀ a, child a → node.scratch child a := fun _ inner => .inr (.inr (.inr inner))
  have cols : RowRun _ (node.scratch child) input node.temp1 _ _ batch _ := turnedColumnsRun ok.turns entry ok.temps
    ok.temps.symm ok.temp1 ok.temp2 sub (fun _ => .inl rfl) (fun _ => .inr (.inl rfl))
  have rows : RowRun _ (node.scratch child) node.temp1 output _ _ (batch * node.n0) _ :=
    expandTransformReal _ blockLimit schedule node.wide ok.row ok.full leave ok.temp3 sub
      (fun _ => .inr (.inr (.inl rfl)))
  have rows := blockRowsRun rows
  have rowsLocal : RowLocal (node.n0 * (2 * (node.n1 / 2 + 1))) (node.n0 * node.n1)
      (blockRows (2 * (node.n1 / 2 + 1)) node.n1 (c2rRow node.n1 (conj (forwardRoot node.n1)))) :=
    blockRowsLocal c2rRowLocal
  have size : node.n0 * (2 * (node.n1 / 2 + 1)) = 2 * (node.n0 * (node.n1 / 2 + 1)) := by ring
  rw [size] at rows rowsLocal
  unfold Raw2DC2RNode.execute Raw2DC2RNode.passes
  rw [runPassesAppend]
  exact (LayoutRun.comp cols rows rowsLocal fun _ _ _ _ => .inl rfl).congr fun x t ht => c2r2Passes x ht

end GenericNodes
end FlagFft.TwoDim
