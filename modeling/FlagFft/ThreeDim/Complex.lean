import FlagFft.ThreeDim.Stores

/-! The complex three-dimensional node: axis by axis between two temporary buffers, each axis made
contiguous by a permutation. -/
namespace FlagFft.ThreeDim
open Library.Dft Library.RealDft Library.Indexing FlagFft.Real FlagFft.TwoDim

structure Raw3DNode (S : Type*) where
  n0 : ℕ
  n1 : ℕ
  n2 : ℕ
  n2Fft : ContextChild S
  n1Fft : ContextChild S
  n0Fft : ContextChild S
  perm021Fwd : Perm3dKernel S
  perm210Fwd : Perm3dKernel S
  perm201Fwd : Perm3dKernel S
  perm120Inv : Perm3dKernel S
  perm210Inv : Perm3dKernel S
  perm021Inv : Perm3dKernel S
  temp1 : Address
  temp2 : Address
  native : Option (NativeTranspose S)
  npuPairFusedStore : Bool
  finalPermutedStore : Bool

def Raw3DNode.passes {S : Type*} (node : Raw3DNode S) (context : Context3d) (input output : Address) :
    List (Pass (Work S)) :=
  let total := node.n0 * node.n1 * node.n2
  let n2 := fftPass node.n2Fft (context.batch * node.n0 * node.n1)
  let n1 := fftPass node.n1Fft (context.batch * node.n0 * node.n2)
  let n0 := fftPass node.n0Fft (context.batch * node.n1 * node.n2)
  let permute kernel d0 d1 d2 order := permutePass kernel node.native d0 d1 d2 order context
  if node.npuPairFusedStore then [n2 input node.temp1, n1 node.temp1 node.temp2, n0 node.temp2 output]
  else if node.finalPermutedStore then
    [n2 input node.temp1, permuteKernelPass node.perm021Fwd total context node.temp1 node.temp2,
      n1 node.temp2 node.temp1, permuteKernelPass node.perm210Fwd total context node.temp1 node.temp2,
      n0 node.temp2 output]
  else if context.inverse then
    [permute node.perm120Inv node.n0 node.n1 node.n2 .a120 input node.temp1, n0 node.temp1 node.temp2,
      permute node.perm210Inv node.n1 node.n2 node.n0 .a210 node.temp2 node.temp1, n1 node.temp1 node.temp2,
      permute node.perm021Inv node.n0 node.n2 node.n1 .a021 node.temp2 node.temp1, n2 node.temp1 output]
  else
    [n2 input node.temp1, permute node.perm021Fwd node.n0 node.n1 node.n2 .a021 node.temp1 node.temp2,
      n1 node.temp2 node.temp1, permute node.perm210Fwd node.n0 node.n2 node.n1 .a210 node.temp1 node.temp2,
      n0 node.temp2 node.temp1, permute node.perm201Fwd node.n1 node.n2 node.n0 .a201 node.temp1 output]

def Raw3DNode.execute {S : Type*} (node : Raw3DNode S) (context : Context3d) (input output : Address) : Work S :=
  runPasses (node.passes context input output)

section Axes
variable {n0 n1 d2 k0 k1 k2 : ℕ} {w0 w1 : ℂ}

/- Along the middle axis and then along the outer one, whatever the inner axis holds. -/
def planes (n0 n1 d2 : ℕ) (w0 w1 : ℂ) (x : ℕ → ℂ) (o : ℕ) : ℂ :=
  dft n0 w0 (fun j0 => dft n1 w1 (fun j1 => x (cube n1 d2 j0 j1 (o % d2))) (o / d2 % n1)) (o / d2 / n1)

theorem planesAt (x : ℕ → ℂ) (h1 : k1 < n1) (h2 : k2 < d2) :
    planes n0 n1 d2 w0 w1 x (cube n1 d2 k0 k1 k2) =
      dft n0 w0 (fun j0 => dft n1 w1 (fun j1 => x (cube n1 d2 j0 j1 k2)) k1) k0 := by
  unfold planes
  rw [cubeMod h2, cubeDiv h2, mulAddDiv h1, mulAddMod h1]

/- The middle axis of a block that lies as (n0, d2, n1); the result lies as (n1, d2, n0). -/
def middleRow (n0 n1 d2 : ℕ) (w1 : ℂ) (x : ℕ → ℂ) (o : ℕ) : ℂ :=
  dft n1 w1 (fun j1 => x (cube d2 n1 (o % n0) (o / n0 % d2) j1)) (o / n0 / d2)

/- The outer axis of a block that lies as (n1, d2, n0); the result lies as (n0, n1, d2). -/
def outerRow (n0 n1 d2 : ℕ) (w0 : ℂ) (y : ℕ → ℂ) (o : ℕ) : ℂ :=
  dft n0 w0 (fun j0 => y (cube d2 n0 (o / d2 % n1) (o % d2) j0)) (o / d2 / n1)

theorem middleAt (x : ℕ → ℂ) {i0 : ℕ} (h0 : i0 < n0) (h2 : k2 < d2) :
    middleRow n0 n1 d2 w1 x (cube d2 n0 k1 k2 i0) = dft n1 w1 (fun j1 => x (cube d2 n1 i0 k2 j1)) k1 := by
  unfold middleRow
  rw [cubeMod h0, cubeDiv h0, mulAddDiv h2, mulAddMod h2]

theorem outerAt (y : ℕ → ℂ) (h1 : k1 < n1) (h2 : k2 < d2) :
    outerRow n0 n1 d2 w0 y (cube n1 d2 k0 k1 k2) = dft n0 w0 (fun j0 => y (cube d2 n0 k1 k2 j0)) k0 := by
  unfold outerRow
  rw [cubeMod h2, cubeDiv h2, mulAddDiv h1, mulAddMod h1]

theorem middleTurned (x : ℕ → ℂ) {o : ℕ} (ho : o < n0 * n1 * d2) :
    permuteRow .a210 n0 d2 n1 (blockRows n1 n1 (dft n1 w1) x) o = middleRow n0 n1 d2 w1 x o := by
  obtain ⟨k1, h1, k2, h2, i0, h0, rfl⟩ := cubeOf (ho.trans_eq (show n0 * n1 * d2 = n1 * d2 * n0 by ring))
  rw [middleAt x h0 h2]
  exact (permuteAt .a210 _ h0 h2 h1).trans (blockRowsAt _ h1)

theorem outerTurned (y : ℕ → ℂ) {o : ℕ} (ho : o < n0 * n1 * d2) :
    permuteRow .a201 n1 d2 n0 (blockRows n0 n0 (dft n0 w0) y) o = outerRow n0 n1 d2 w0 y o := by
  obtain ⟨k0, h0, k1, h1, k2, h2, rfl⟩ := cubeOf ho
  rw [outerAt y h1 h2]
  exact (permuteAt .a201 _ h1 h2 h0).trans (blockRowsAt _ h0)

/- The same with a store that permutes: all rows of the block are one group. -/
theorem outerStored (y : ℕ → ℂ) {o : ℕ} (ho : o < n0 * n1 * d2) :
    permuteRow .a021 1 (n1 * d2) n0 (blockRows n0 n0 (dft n0 w0) y) o = outerRow n0 n1 d2 w0 y o := by
  obtain ⟨k0, h0, k1, h1, k2, h2, rfl⟩ := cubeOf ho
  have place : cube n1 d2 k0 k1 k2 = AxisOrder.place .a021 1 (n1 * d2) n0 0 (k1 * d2 + k2) k0 := by
    unfold AxisOrder.place cube
    ring
  rw [outerAt y h1 h2, place, permuteAt .a021 _ Nat.one_pos (mulAddLt h1 h2) h0, blockRowsAt _ h0]
  refine dftCongr fun j0 _ => congrArg y ?_
  unfold cube
  ring

/- Both outer axes, after the middle one has been turned in. -/
theorem turnedPlanes (x : ℕ → ℂ) {o : ℕ} (ho : o < n0 * n1 * d2) :
    outerRow n0 n1 d2 w0 (middleRow n0 n1 d2 w1 (permuteRow .a021 n0 n1 d2 x)) o = planes n0 n1 d2 w0 w1 x o := by
  obtain ⟨k0, h0, k1, h1, k2, h2, rfl⟩ := cubeOf ho
  rw [planesAt x h1 h2, outerAt _ h1 h2]
  refine dftCongr fun j0 hj0 => ?_
  rw [middleAt _ hj0 h2]
  exact dftCongr fun j1 hj1 => permuteAt .a021 x hj0 hj1 h2

theorem middleLocal : RowLocal (n0 * n1 * d2) (n0 * n1 * d2) (middleRow n0 n1 d2 w1) := by
  intro x y same o ho
  obtain ⟨k1, h1, k2, h2, i0, h0, rfl⟩ := cubeOf (ho.trans_eq (show n0 * n1 * d2 = n1 * d2 * n0 by ring))
  rw [middleAt x h0 h2, middleAt y h0 h2]
  exact dftCongr fun j1 hj1 => same _ ((cubeLt h0 h2 hj1).trans_eq (by ring))

theorem outerLocal : RowLocal (n0 * n1 * d2) (n0 * n1 * d2) (outerRow n0 n1 d2 w0) := by
  intro x y same o ho
  obtain ⟨k0, h0, k1, h1, k2, h2, rfl⟩ := cubeOf ho
  rw [outerAt x h1 h2, outerAt y h1 h2]
  exact dftCongr fun j0 hj0 => same _ ((cubeLt h1 h2 hj0).trans_eq (by ring))

theorem forwardPlanes (x : ℕ → ℂ) {o : ℕ} (ho : o < n0 * n1 * d2) :
    permuteRow .a201 n1 d2 n0 (blockRows n0 n0 (dft n0 w0) (permuteRow .a210 n0 d2 n1
      (blockRows n1 n1 (dft n1 w1) (permuteRow .a021 n0 n1 d2 x)))) o = planes n0 n1 d2 w0 w1 x o := by
  rw [outerTurned _ ho, ← turnedPlanes x ho]
  exact outerLocal _ _ (fun j hj => middleTurned _ hj) o ho

theorem storedPlanes (x : ℕ → ℂ) {o : ℕ} (ho : o < n0 * n1 * d2) :
    permuteRow .a021 1 (n1 * d2) n0 (blockRows n0 n0 (dft n0 w0) (permuteRow .a210 n0 d2 n1
      (blockRows n1 n1 (dft n1 w1) (permuteRow .a021 n0 n1 d2 x)))) o = planes n0 n1 d2 w0 w1 x o := by
  rw [outerStored _ ho, ← turnedPlanes x ho]
  exact outerLocal _ _ (fun j hj => middleTurned _ hj) o ho

/- The inverse chain turns the outer axis in first. -/
theorem inversePlanes (x : ℕ → ℂ) {o : ℕ} (ho : o < n0 * n1 * d2) :
    permuteRow .a021 n0 d2 n1 (blockRows n1 n1 (dft n1 w1) (permuteRow .a210 n1 d2 n0
      (blockRows n0 n0 (dft n0 w0) (permuteRow .a120 n0 n1 d2 x)))) o = planes n0 n1 d2 w0 w1 x o := by
  obtain ⟨k0, h0, k1, h1, k2, h2, rfl⟩ := cubeOf ho
  rw [planesAt x h1 h2, dftSwap n0 n1 w0 w1 (fun j1 j0 => x (cube n1 d2 j0 j1 k2))]
  have last := permuteAt .a021 (blockRows n1 n1 (dft n1 w1) (permuteRow .a210 n1 d2 n0
    (blockRows n0 n0 (dft n0 w0) (permuteRow .a120 n0 n1 d2 x)))) h0 h2 h1
  refine last.trans ((blockRowsAt _ h1).trans (dftCongr fun j1 hj1 => ?_))
  have middle := permuteAt .a210 (blockRows n0 n0 (dft n0 w0) (permuteRow .a120 n0 n1 d2 x)) hj1 h2 h0
  refine middle.trans ((blockRowsAt _ h0).trans (dftCongr fun j0 hj0 => ?_))
  exact permuteAt .a120 x hj0 hj1 h2

/- Rows first: planes of transformed rows. -/
theorem planesOfRows {n2 h : ℕ} {w2 : ℂ} (x : ℕ → ℂ) (fits : h ≤ n2) (h1 : k1 < n1) (h2 : k2 < h) :
    planes n0 n1 h w0 w1 (blockRows n2 h (dft n2 w2) x) (cube n1 h k0 k1 k2) =
      dft3 n0 n1 n2 w0 w1 w2 x (cube n1 n2 k0 k1 k2) := by
  rw [planesAt _ h1 h2, ← dft3Split h1 (h2.trans_le fits)]
  refine dftCongr fun j0 _ => dftCongr fun j1 _ => ?_
  unfold blockRows
  rw [cubeMod h2, cubeDiv h2]
  rfl

end Axes

section Node
variable {context : Context3d} {child : Address → Prop} {w0 w1 w2 : ℂ} {input output : Address}

def Raw3DNode.scratch (node : Raw3DNode ℝ) (child : Address → Prop) (a : Address) : Prop :=
  a.buffer = node.temp1.buffer ∨ a.buffer = node.temp2.buffer ∨ child a

/- Contiguous children and named permutations, of which each schedule uses its own. -/
structure Raw3DNode.Ok (node : Raw3DNode ℝ) (context : Context3d) (child : Address → Prop) (w0 w1 w2 : ℂ)
    (input output : Address) : Prop where
  n2 : node.n2Fft.Computes child 0 0 (2 * node.n2) (2 * node.n2) (lift (dft node.n2 w2))
  n1 : node.n1Fft.Computes child 0 0 (2 * node.n1) (2 * node.n1) (lift (dft node.n1 w1))
  n0 : node.finalPermutedStore = false →
    node.n0Fft.Computes child 0 0 (2 * node.n0) (2 * node.n0) (lift (dft node.n0 w0))
  n0Store : node.finalPermutedStore = true →
    StoresOuter node.n0Fft child 0 (2 * node.n0) node.n0 (node.n1 * node.n2) (lift (dft node.n0 w0))
  forward : node.finalPermutedStore = false → context.inverse = false →
    Permutes node.perm021Fwd node.native context .a021 node.n0 node.n1 node.n2 ∧
    Permutes node.perm210Fwd node.native context .a210 node.n0 node.n2 node.n1 ∧
    Permutes node.perm201Fwd node.native context .a201 node.n1 node.n2 node.n0
  inverse : node.finalPermutedStore = false → context.inverse = true →
    Permutes node.perm120Inv node.native context .a120 node.n0 node.n1 node.n2 ∧
    Permutes node.perm210Inv node.native context .a210 node.n1 node.n2 node.n0 ∧
    Permutes node.perm021Inv node.native context .a021 node.n0 node.n2 node.n1
  final : node.finalPermutedStore = true →
    node.perm021Fwd.Permutes .a021 node.n0 node.n1 node.n2 ∧ node.perm210Fwd.Permutes .a210 node.n0 node.n2 node.n1
  unpaired : node.npuPairFusedStore = false
  temps : node.temp1.buffer ≠ node.temp2.buffer
  temp1 : ∀ i, ¬ child (node.temp1.at i)
  temp2 : ∀ i, ¬ child (node.temp2.at i)
  input : ∀ i, ¬ node.scratch child (input.at i)
  output : ∀ i, ¬ node.scratch child (output.at i)

theorem Raw3DNode.executeRun {node : Raw3DNode ℝ} (ok : node.Ok context child w0 w1 w2 input output) :
    RowRun (node.execute context input output) (node.scratch child) input output (2 * (node.n0 * node.n1 * node.n2))
      (2 * (node.n0 * node.n1 * node.n2)) context.batch (lift (dft3 node.n0 node.n1 node.n2 w0 w1 w2)) := by
  have inputApart : input.buffer ≠ node.temp1.buffer := fun same => ok.input 0 (.inl same)
  have outputApart1 : node.temp1.buffer ≠ output.buffer := fun same => ok.output 0 (.inl same.symm)
  have outputApart2 : node.temp2.buffer ≠ output.buffer := fun same => ok.output 0 (.inr (.inl same.symm))
  have sub : ∀ a, child a → node.scratch child a := fun _ inner => .inr (.inr inner)
  have inputKept : ∀ i, ¬ child (input.at i) := fun i inner => ok.input i (sub _ inner)
  have outputKept : ∀ i, ¬ child (output.at i) := fun i inner => ok.output i (sub _ inner)
  have first : ∀ i, node.scratch child (node.temp1.at i) := fun _ => .inl rfl
  have second : ∀ i, node.scratch child (node.temp2.at i) := fun _ => .inr (.inl rfl)
  have sizes : node.n0 * node.n2 * node.n1 = node.n0 * node.n1 * node.n2 := by ring
  have sizes' : node.n1 * node.n2 * node.n0 = node.n0 * node.n1 * node.n2 := by ring
  have rows2 : context.batch * node.n0 * node.n1 = context.batch * (node.n0 * node.n1) := by ring
  have rows1 : context.batch * node.n0 * node.n2 = context.batch * (node.n0 * node.n2) := by ring
  have rows0 : context.batch * node.n1 * node.n2 = context.batch * (node.n1 * node.n2) := by ring
  unfold Raw3DNode.execute Raw3DNode.passes
  rw [ok.unpaired]
  simp only [Bool.false_eq_true, if_false]
  cases schedule : node.finalPermutedStore with
  | true =>
    obtain ⟨turn021, turn210⟩ := ok.final schedule
    have n2 := axisStage ok.n2 (.inr inputApart) inputKept ok.temp1 sub rows2
    have p021 := kernelStage context (node.scratch child) turn021 ok.temps
    have n1 := (axisStage ok.n1 (.inr ok.temps.symm) ok.temp2 ok.temp1 sub rows1).resize sizes sizes
    have p210 := (kernelStage context (node.scratch child) turn210 ok.temps).resize sizes sizes
    rw [sizes] at p210
    have whole : 1 * (node.n1 * node.n2) * node.n0 = node.n0 * node.n1 * node.n2 := by ring
    have n0 := (outerStage (ok.n0Store schedule) outputApart2 ok.temp2 outputKept sub
      (show context.batch * node.n1 * node.n2 = context.batch * 1 * (node.n1 * node.n2) by ring)).resize whole whole
    simp only [if_true]
    have chain := n2.cons first (p021.cons second (n1.cons first (p210.cons second n0.single)))
    refine chain.rows fun x o ho => ?_
    obtain ⟨k0, h0, k1, h1, k2, h2, rfl⟩ := cubeOf ho
    exact (storedPlanes _ ho).trans (planesOfRows x le_rfl h1 h2)
  | false =>
    simp only [Bool.false_eq_true, if_false]
    cases direction : context.inverse with
    | true =>
      obtain ⟨turn120, turn210, turn021⟩ := ok.inverse schedule direction
      have p120 := permuteStage (node.scratch child) turn120 inputApart
      have n0 := (axisStage (ok.n0 schedule) (.inr ok.temps) ok.temp1 ok.temp2 sub rows0).resize sizes' sizes'
      have p210 := (permuteStage (node.scratch child) turn210 ok.temps.symm).resize sizes' sizes'
      have n1 := (axisStage ok.n1 (.inr ok.temps) ok.temp1 ok.temp2 sub rows1).resize sizes sizes
      have p021 := (permuteStage (node.scratch child) turn021 ok.temps.symm).resize sizes sizes
      have n2 := axisStage ok.n2 (.inr outputApart1) ok.temp1 outputKept sub rows2
      simp only [if_true]
      have chain := p120.cons first (n0.cons second (p210.cons first (n1.cons second (p021.cons first n2.single))))
      refine chain.rows fun x o ho => ?_
      obtain ⟨k0, h0, k1, h1, k2, h2, rfl⟩ := cubeOf ho
      rw [blockRowsAt _ h2, ← dft3Split h1 h2]
      have planar : ∀ j2 < node.n2, _ := fun j2 hj2 =>
        (inversePlanes x (cubeLt h0 h1 hj2)).trans (show planes node.n0 node.n1 node.n2 w0 w1 x _ = _ from planesAt x h1 hj2)
      rw [dftCongr planar, dftSwap]
      refine dftCongr fun j0 _ => ?_
      exact dftSwap node.n2 node.n1 w2 w1 (fun j1 j2 => x (cube node.n1 node.n2 j0 j1 j2)) k1 k2
    | false =>
      obtain ⟨turn021, turn210, turn201⟩ := ok.forward schedule direction
      have n2 := axisStage ok.n2 (.inr inputApart) inputKept ok.temp1 sub rows2
      have p021 := permuteStage (node.scratch child) turn021 ok.temps
      have n1 := (axisStage ok.n1 (.inr ok.temps.symm) ok.temp2 ok.temp1 sub rows1).resize sizes sizes
      have p210 := (permuteStage (node.scratch child) turn210 ok.temps).resize sizes sizes
      have n0 := (axisStage (ok.n0 schedule) (.inr ok.temps.symm) ok.temp2 ok.temp1 sub rows0).resize sizes' sizes'
      have p201 := (permuteStage (node.scratch child) turn201 outputApart1).resize sizes' sizes'
      simp only [Bool.false_eq_true, if_false]
      have chain := n2.cons first (p021.cons second (n1.cons first (p210.cons second (n0.cons first p201.single))))
      refine chain.rows fun x o ho => ?_
      obtain ⟨k0, h0, k1, h1, k2, h2, rfl⟩ := cubeOf ho
      exact (forwardPlanes _ ho).trans (planesOfRows x le_rfl h1 h2)

end Node

end FlagFft.ThreeDim
