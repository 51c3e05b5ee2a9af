import FlagFft.ThreeDim.Complex

/-! The real three-dimensional nodes: the contiguous axis through full complex rows, the two outer axes
on half spectra. -/
namespace FlagFft.ThreeDim
open Library.Dft Library.RealDft Library.Indexing FlagFft.Real FlagFft.TwoDim
open scoped ComplexConjugate

section Nodes
variable {S : Type*} [Field S]

structure Raw3DR2CNode (S : Type*) where
  n0 : ℕ
  n1 : ℕ
  n2 : ℕ
  elements : ℕ
  n2Fft : ContextChild S
  n1Fft : ContextChild S
  n0Fft : ContextChild S
  perm021 : Perm3dKernel S
  perm210 : Perm3dKernel S
  perm201 : Perm3dKernel S
  rowFftBuf : Address
  temp1 : Address
  temp2 : Address
  native : Option (NativeTranspose S)
  wide : 256 ≤ elements

/- The half spectra go to the user's output and are permuted from there. -/
def Raw3DR2CNode.passes (node : Raw3DR2CNode S) (context : Context3d) (schedule : Schedule) (input output : Address) :
    List (Pass (Work S)) :=
  let half := node.n2 / 2 + 1
  let totalRows := context.batch * node.n0 * node.n1
  let permute kernel d0 d1 d2 order := permutePass kernel node.native d0 d1 d2 order context
  [chunksPass (realToComplex node.n2 node.elements node.n2) totalRows context.blockLimit schedule input node.rowFftBuf,
    fftPass node.n2Fft totalRows node.rowFftBuf node.rowFftBuf,
    chunksPass (r2cHalfPack node.n2 node.elements half) totalRows context.blockLimit schedule node.rowFftBuf output,
    permute node.perm021 node.n0 node.n1 half .a021 output node.temp1,
    fftPass node.n1Fft (context.batch * node.n0 * half) node.temp1 node.temp2,
    permute node.perm210 node.n0 half node.n1 .a210 node.temp2 node.temp1,
    fftPass node.n0Fft (context.batch * node.n1 * half) node.temp1 node.temp2,
    permute node.perm201 node.n1 half node.n0 .a201 node.temp2 output]

def Raw3DR2CNode.execute (node : Raw3DR2CNode S) (context : Context3d) (schedule : Schedule) (input output : Address) :
    Work S :=
  runPasses (node.passes context schedule input output)

structure Raw3DC2RNode (S : Type*) where
  n0 : ℕ
  n1 : ℕ
  n2 : ℕ
  elements : ℕ
  perm120 : Perm3dKernel S
  perm210 : Perm3dKernel S
  perm021 : Perm3dKernel S
  n0Fft : ContextChild S
  n1Fft : ContextChild S
  n2Fft : ContextChild S
  temp1 : Address
  temp2 : Address
  fullBuf : Address
  native : Option (NativeTranspose S)
  wide : 256 ≤ elements

def Raw3DC2RNode.passes (node : Raw3DC2RNode S) (context : Context3d) (schedule : Schedule) (input output : Address) :
    List (Pass (Work S)) :=
  let half := node.n2 / 2 + 1
  let totalRows := context.batch * node.n0 * node.n1
  let permute kernel d0 d1 d2 order := permutePass kernel node.native d0 d1 d2 order context
  [permute node.perm120 node.n0 node.n1 half .a120 input node.temp1,
    fftPass node.n0Fft (context.batch * node.n1 * half) node.temp1 node.temp2,
    permute node.perm210 node.n1 half node.n0 .a210 node.temp2 node.temp1,
    fftPass node.n1Fft (context.batch * node.n0 * half) node.temp1 node.temp2,
    permute node.perm021 node.n0 half node.n1 .a021 node.temp2 node.temp1,
    chunksPass (compactToHermitianFull node.n2 node.elements half) totalRows context.blockLimit schedule node.temp1
      node.fullBuf,
    fftPass node.n2Fft totalRows node.fullBuf node.fullBuf,
    chunksPass (complexToReal node.n2 node.elements node.n2) totalRows context.blockLimit schedule node.fullBuf output]

def Raw3DC2RNode.execute (node : Raw3DC2RNode S) (context : Context3d) (schedule : Schedule) (input output : Address) :
    Work S :=
  runPasses (node.passes context schedule input output)

end Nodes

section Specifications

/- The first `n2 / 2 + 1` frequencies of every row of the transform of a real block. -/
noncomputable def r2c3Row (n0 n1 n2 : ℕ) (x : ℕ → ℝ) : ℕ → ℝ :=
  let half := n2 / 2 + 1
  scalars fun o => dft3 n0 n1 n2 (forwardRoot n0) (forwardRoot n1) (forwardRoot n2) (fun j => (x j : ℂ))
    (cube n1 n2 (o / half / n1) (o / half % n1) (o % half))

/- The inverse transform of a half spectrum: the real part of that of the completed spectrum. -/
noncomputable def c2r3Row (n0 n1 n2 : ℕ) (x : ℕ → ℝ) (t : ℕ) : ℝ :=
  (dft3 n0 n1 n2 (conj (forwardRoot n0)) (conj (forwardRoot n1)) (conj (forwardRoot n2))
    (mirrored3 n0 n1 n2 (interleaved x)) t).re

noncomputable def planeRow (n0 n1 d2 : ℕ) (w0 w1 : ℂ) : (ℕ → ℝ) → ℕ → ℝ := lift (planes n0 n1 d2 w0 w1)

theorem r2c3Passes {n0 n1 n2 i : ℕ} (positive : 0 < n2) (x : ℕ → ℝ) (hi : i < 2 * (n0 * n1 * (n2 / 2 + 1))) :
    planeRow n0 n1 (n2 / 2 + 1) (forwardRoot n0) (forwardRoot n1) (blockRows n2 (2 * (n2 / 2 + 1)) (r2cRow n2) x) i =
      r2c3Row n0 n1 n2 x i := by
  unfold planeRow r2c3Row
  rw [r2cBlockRows, liftScalars]
  unfold scalars
  obtain ⟨k0, _, k1, h1, k2, h2, place⟩ := cubeOf (show i / 2 < n0 * n1 * (n2 / 2 + 1) by omega)
  rw [place, planesOfRows _ (by omega) h1 h2]
  simp only [cubeMod h2, cubeDiv h2, mulAddDiv h1, mulAddMod h1]

theorem c2r3Passes {n0 n1 n2 t : ℕ} (x : ℕ → ℝ) (ht : t < n0 * n1 * n2) :
    blockRows (2 * (n2 / 2 + 1)) n2 (c2rRow n2 (conj (forwardRoot n2)))
      (planeRow n0 n1 (n2 / 2 + 1) (conj (forwardRoot n0)) (conj (forwardRoot n1)) x) t = c2r3Row n0 n1 n2 x t := by
  obtain ⟨k0, h0, k1, h1, k2, h2, rfl⟩ := cubeOf ht
  have unit0 := UnitRoot.conj (forwardRootUnit (Nat.zero_lt_of_lt h0))
  have unit1 := UnitRoot.conj (forwardRootUnit (Nat.zero_lt_of_lt h1))
  have row := mirroredPlanes unit0 unit1 (conj (forwardRoot n2)) (interleaved x) k0 h1 h2
  unfold blockRows c2rRow planeRow c2r3Row
  rw [interleavedShift, hermitianFullRe (forwardRootHalf (Nat.zero_lt_of_lt h2)), ← row, cubeMod h2, cubeDiv h2]
  refine congrArg Complex.re (dftCongr fun k hk => mirroredCongr (fun j hj => ?_) hk)
  unfold lift
  rw [interleavedScalars]
  exact planesAt _ h1 hj

theorem planesLocal {n0 n1 d2 : ℕ} {w0 w1 : ℂ} : RowLocal (n0 * n1 * d2) (n0 * n1 * d2) (planes n0 n1 d2 w0 w1) := by
  intro x y same o ho
  obtain ⟨k0, _, k1, h1, k2, h2, rfl⟩ := cubeOf ho
  rw [planesAt x h1 h2, planesAt y h1 h2]
  exact dftCongr fun j0 h0 => dftCongr fun j1 hj1 => same _ (cubeLt h0 hj1 h2)

end Specifications

section Execute
variable {context : Context3d} {schedule : Schedule} {child : Address → Prop} {input output : Address}

def Raw3DR2CNode.scratch (node : Raw3DR2CNode ℝ) (child : Address → Prop) (a : Address) : Prop :=
  a.buffer = node.rowFftBuf.buffer ∨ a.buffer = node.temp1.buffer ∨ a.buffer = node.temp2.buffer ∨ child a

structure Raw3DR2CNode.Ok (node : Raw3DR2CNode ℝ) (context : Context3d) (child : Address → Prop)
    (input output : Address) : Prop where
  n2 : node.n2Fft.Computes child 0 0 (2 * node.n2) (2 * node.n2) (lift (dft node.n2 (forwardRoot node.n2)))
  n1 : node.n1Fft.Computes child 0 0 (2 * node.n1) (2 * node.n1) (lift (dft node.n1 (forwardRoot node.n1)))
  n0 : node.n0Fft.Computes child 0 0 (2 * node.n0) (2 * node.n0) (lift (dft node.n0 (forwardRoot node.n0)))
  turn021 : Permutes node.perm021 node.native context .a021 node.n0 node.n1 (node.n2 / 2 + 1)
  turn210 : Permutes node.perm210 node.native context .a210 node.n0 (node.n2 / 2 + 1) node.n1
  turn201 : Permutes node.perm201 node.native context .a201 node.n1 (node.n2 / 2 + 1) node.n0
  temps : node.temp1.buffer ≠ node.temp2.buffer
  rowFftBuf : ∀ i, ¬ child (node.rowFftBuf.at i)
  temp1 : ∀ i, ¬ child (node.temp1.at i)
  temp2 : ∀ i, ¬ child (node.temp2.at i)
  input : ∀ i, ¬ node.scratch child (input.at i)
  output : ∀ i, ¬ node.scratch child (output.at i)

theorem Raw3DR2CNode.executeRun {node : Raw3DR2CNode ℝ} (positive : 0 < node.n2) (ok : node.Ok context child input output) :
    RowRun (node.execute context schedule input output) (node.scratch child) input output (node.n0 * node.n1 * node.n2)
      (2 * (node.n0 * node.n1 * (node.n2 / 2 + 1))) context.batch (r2c3Row node.n0 node.n1 node.n2) := by
  have entry : input.buffer ≠ node.rowFftBuf.buffer := fun same => ok.input 0 (.inl same)
  have leave : node.rowFftBuf.buffer ≠ output.buffer := fun same => ok.output 0 (.inl same.symm)
  have first : output.buffer ≠ node.temp1.buffer := fun same => ok.output 0 (.inr (.inl same))
  have second : node.temp2.buffer ≠ output.buffer := fun same => ok.output 0 (.inr (.inr (.inl same.symm)))
  -- the half spectra lie in the output until they have been permuted
  let wide : Address → Prop := fun a => node.scratch child a ∨ ∃ b < context.batch,
    ∃ k < 2 * (node.n0 * node.n1 * (node.n2 / 2 + 1)), a = output.row (2 * (node.n0 * node.n1 * (node.n2 / 2 + 1))) b k
  have sub : ∀ a, child a → wide a := fun _ inner => .inl (.inr (.inr (.inr inner)))
  have at1 : ∀ i, wide (node.temp1.at i) := fun _ => .inl (.inr (.inl rfl))
  have at2 : ∀ i, wide (node.temp2.at i) := fun _ => .inl (.inr (.inr (.inl rfl)))
  have rows : RowRun _ wide input output _ _ (context.batch * (node.n0 * node.n1)) _ :=
    expandTransformPack _ context.blockLimit schedule node.wide positive ok.n2 entry leave ok.rowFftBuf sub
      (fun _ => .inl (.inl rfl))
  have rows := blockRowsRun rows
  have size : node.n0 * node.n1 * (2 * (node.n2 / 2 + 1)) = 2 * (node.n0 * node.n1 * (node.n2 / 2 + 1)) := by ring
  have sizes : node.n0 * (node.n2 / 2 + 1) * node.n1 = node.n0 * node.n1 * (node.n2 / 2 + 1) := by ring
  have sizes' : node.n1 * (node.n2 / 2 + 1) * node.n0 = node.n0 * node.n1 * (node.n2 / 2 + 1) := by ring
  rw [size] at rows
  have p021 := permuteStage wide ok.turn021 first
  have n1 := (axisStage ok.n1 (.inr ok.temps) ok.temp1 ok.temp2 sub
    (show context.batch * node.n0 * (node.n2 / 2 + 1) = context.batch * (node.n0 * (node.n2 / 2 + 1)) by ring)).resize sizes sizes
  have p210 := (permuteStage wide ok.turn210 ok.temps.symm).resize sizes sizes
  have n0 := (axisStage ok.n0 (.inr ok.temps) ok.temp1 ok.temp2 sub
    (show context.batch * node.n1 * (node.n2 / 2 + 1) = context.batch * (node.n1 * (node.n2 / 2 + 1)) by ring)).resize sizes' sizes'
  have p201 := (permuteStage wide ok.turn201 second).resize sizes' sizes'
  have chain := p021.cons at1 (n1.cons at2 (p210.cons at1 (n0.cons at2 p201.single)))
  have outer : RowRun _ wide output output _ _ context.batch (planeRow node.n0 node.n1 (node.n2 / 2 + 1) _ _) :=
    chain.rows fun x o ho => forwardPlanes x ho
  have count : context.batch * node.n0 * node.n1 = context.batch * (node.n0 * node.n1) := by ring
  have same : node.execute context schedule input output = fun m => runPasses _ m >>= runPasses _ :=
    runPassesAppend [_, _, _] [_, _, _, _, _]
  rw [same, count]
  exact shrinkRun ((LayoutRun.comp rows outer (liftLocal planesLocal) fun b hb k hk => .inr ⟨b, hb, k, hk, rfl⟩).congr
    fun x i hi => r2c3Passes positive x hi)

def Raw3DC2RNode.scratch (node : Raw3DC2RNode ℝ) (child : Address → Prop) (a : Address) : Prop :=
  a.buffer = node.temp1.buffer ∨ a.buffer = node.temp2.buffer ∨ a.buffer = node.fullBuf.buffer ∨ child a

structure Raw3DC2RNode.Ok (node : Raw3DC2RNode ℝ) (context : Context3d) (child : Address → Prop)
    (input output : Address) : Prop where
  n2 : node.n2Fft.Computes child 0 0 (2 * node.n2) (2 * node.n2) (lift (dft node.n2 (conj (forwardRoot node.n2))))
  n1 : node.n1Fft.Computes child 0 0 (2 * node.n1) (2 * node.n1) (lift (dft node.n1 (conj (forwardRoot node.n1))))
  n0 : node.n0Fft.Computes child 0 0 (2 * node.n0) (2 * node.n0) (lift (dft node.n0 (conj (forwardRoot node.n0))))
  turn120 : Permutes node.perm120 node.native context .a120 node.n0 node.n1 (node.n2 / 2 + 1)
  turn210 : Permutes node.perm210 node.native context .a210 node.n1 (node.n2 / 2 + 1) node.n0
  turn021 : Permutes node.perm021 node.native context .a021 node.n0 (node.n2 / 2 + 1) node.n1
  temps : node.temp1.buffer ≠ node.temp2.buffer
  full : node.temp1.buffer ≠ node.fullBuf.buffer
  temp1 : ∀ i, ¬ child (node.temp1.at i)
  temp2 : ∀ i, ¬ child (node.temp2.at i)
  fullBuf : ∀ i, ¬ child (node.fullBuf.at i)
  input : ∀ i, ¬ node.scratch child (input.at i)
  output : ∀ i, ¬ node.scratch child (output.at i)

theorem Raw3DC2RNode.executeRun {node : Raw3DC2RNode ℝ} (ok : node.Ok context child input output) :
    RowRun (node.execute context schedule input output) (node.scratch child) input output
      (2 * (node.n0 * node.n1 * (node.n2 / 2 + 1))) (node.n0 * node.n1 * node.n2) context.batch
      (c2r3Row node.n0 node.n1 node.n2) := by
  have entry : input.buffer ≠ node.temp1.buffer := fun same => ok.input 0 (.inl same)
  have leave : node.fullBuf.buffer ≠ output.buffer := fun same => ok.output 0 (.inr (.inr (.inl same.symm)))
  have sub : ∀ a, child a → node.scratch child a := fun _ inner => .inr (.inr (.inr inner))
  have at1 : ∀ i, node.scratch child (node.temp1.at i) := fun _ => .inl rfl
  have at2 : ∀ i, node.scratch child (node.temp2.at i) := fun _ => .inr (.inl rfl)
  have size : node.n0 * node.n1 * (2 * (node.n2 / 2 + 1)) = 2 * (node.n0 * node.n1 * (node.n2 / 2 + 1)) := by ring
  have sizes : node.n0 * (node.n2 / 2 + 1) * node.n1 = node.n0 * node.n1 * (node.n2 / 2 + 1) := by ring
  have sizes' : node.n1 * (node.n2 / 2 + 1) * node.n0 = node.n0 * node.n1 * (node.n2 / 2 + 1) := by ring
  have p120 := permuteStage (node.scratch child) ok.turn120 entry
  have n0 := (axisStage ok.n0 (.inr ok.temps) ok.temp1 ok.temp2 sub
    (show context.batch * node.n1 * (node.n2 / 2 + 1) = context.batch * (node.n1 * (node.n2 / 2 + 1)) by ring)).resize sizes' sizes'
  have p210 := (permuteStage (node.scratch child) ok.turn210 ok.temps.symm).resize sizes' sizes'
  have n1 := (axisStage ok.n1 (.inr ok.temps) ok.temp1 ok.temp2 sub
    (show context.batch * node.n0 * (node.n2 / 2 + 1) = context.batch * (node.n0 * (node.n2 / 2 + 1)) by ring)).resize sizes sizes
  have p021 := (permuteStage (node.scratch child) ok.turn021 ok.temps.symm).resize sizes sizes
  have chain := p120.cons at1 (n0.cons at2 (p210.cons at1 (n1.cons at2 p021.single)))
  have outer : RowRun _ (node.scratch child) input node.temp1 _ _ context.batch
      (planeRow node.n0 node.n1 (node.n2 / 2 + 1) _ _) := chain.rows fun x o ho => inversePlanes x ho
  have rows : RowRun _ (node.scratch child) node.temp1 output _ _ (context.batch * (node.n0 * node.n1)) _ :=
    expandTransformReal _ context.blockLimit schedule node.wide ok.n2 ok.full leave ok.fullBuf sub
      (fun _ => .inr (.inr (.inl rfl)))
  have rows := blockRowsRun rows
  have rowsLocal : RowLocal (node.n0 * node.n1 * (2 * (node.n2 / 2 + 1))) (node.n0 * node.n1 * node.n2)
      (blockRows (2 * (node.n2 / 2 + 1)) node.n2 (c2rRow node.n2 (conj (forwardRoot node.n2)))) :=
    blockRowsLocal c2rRowLocal
  rw [size] at rows rowsLocal
  have count : context.batch * node.n0 * node.n1 = context.batch * (node.n0 * node.n1) := by ring
  have same : node.execute context schedule input output = fun m => runPasses _ m >>= runPasses _ :=
    runPassesAppend [_, _, _, _, _] [_, _, _]
  rw [same, count]
  exact (LayoutRun.comp outer rows rowsLocal fun _ _ _ _ => .inl rfl).congr fun x t ht => c2r3Passes x ht

end Execute

end FlagFft.ThreeDim
