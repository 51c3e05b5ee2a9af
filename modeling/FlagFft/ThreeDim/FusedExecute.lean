import FlagFft.ThreeDim.FusedInverse
import FlagFft.ThreeDim.Execute

/-! When the fused stores leave every transform of the batch in its place, over all nodes that use them. -/
namespace FlagFft.ThreeDim
open Library.Dft Library.RealDft Library.Indexing FlagFft.Real FlagFft.TwoDim
open scoped ComplexConjugate

/- Each node is right for every input exactly when a kernel turns its middle axis, or there is one batch
element, or the rows of the middle axis have one frequency in all. -/
theorem fusedStoresCompute (child : Address → Prop) (input output : Address) (context : Context3d) :
    (∀ (node : Raw3DStridedNode ℝ) (w0 w1 w2 : ℂ), node.hybrid.Ok child w0 w1 w2 input output →
      (RowRun (node.execute context input output) (cubeScratch node.temp1 node.temp2 child) input output
        (2 * (node.n0 * node.n1 * node.n2)) (2 * (node.n0 * node.n1 * node.n2)) context.batch
        (lift (dft3 node.n0 node.n1 node.n2 w0 w1 w2)) ↔
      (context.batch ≤ 1 ∨ node.n1 * node.n2 = 1))) ∧
    (∀ (node : Raw3DHybridNode ℝ) (w0 w1 w2 : ℂ), node.Ok child w0 w1 w2 input output →
      (RowRun (node.execute context input output) (cubeScratch node.temp1 node.temp2 child) input output
        (2 * (node.n0 * node.n1 * node.n2)) (2 * (node.n0 * node.n1 * node.n2)) context.batch
        (lift (dft3 node.n0 node.n1 node.n2 w0 w1 w2)) ↔
      (node.perm210.isSome = false → context.batch ≤ 1 ∨ node.n1 * node.n2 = 1))) ∧
    (∀ node : Raw3DRealLeafNode ℝ,
      (node.ForwardOk child (forwardRoot node.n0) (forwardRoot node.n1) input output →
        (RowRun (node.execute context input output) (cubeScratch node.temp2 node.temp1 child) input output
          (node.n0 * node.n1 * node.n2) (2 * (node.n0 * node.n1 * (node.n2 / 2 + 1))) context.batch
          (r2c3Row node.n0 node.n1 node.n2) ↔
        (node.kernel210.isSome = false → context.batch ≤ 1 ∨ node.n1 * (node.n2 / 2 + 1) = 1))) ∧
      (node.InverseOk child input output →
        (RowRun (node.execute context input output) (cubeScratch node.temp1 node.temp2 child) input output
          (2 * (node.n0 * node.n1 * (node.n2 / 2 + 1))) (node.n0 * node.n1 * node.n2) context.batch
          (c2r3Row node.n0 node.n1 node.n2) ↔
        (node.kernel210.isSome = false → context.batch ≤ 1 ∨ node.n1 * (node.n2 / 2 + 1) = 1)))) ∧
    ∀ node : Raw3DRealRTRTNode ℝ,
      (node.ForwardOk child (forwardRoot node.n0) (forwardRoot node.n1) input output →
        (RowRun (node.execute context input output) (cubeScratch node.temp2 node.temp1 child) input output
          (node.n0 * node.n1 * node.n2) (2 * (node.n0 * node.n1 * (node.n2 / 2 + 1))) context.batch
          (r2c3Row node.n0 node.n1 node.n2) ↔
        (node.perm210.isSome = false → context.batch ≤ 1 ∨ node.n1 * (node.n2 / 2 + 1) = 1))) ∧
      (node.InverseOk child input output →
        RowRun (node.execute context input output) (cubeScratch node.temp1 node.temp2 child) input output
          (2 * (node.n0 * node.n1 * (node.n2 / 2 + 1))) (node.n0 * node.n1 * node.n2) context.batch
          (c2r3Row node.n0 node.n1 node.n2)) :=
  ⟨fun _ _ _ _ ok => Raw3DStridedNode.executeIff ok, fun _ _ _ _ ok => Raw3DHybridNode.executeIff context ok,
    fun _ => ⟨Raw3DRealLeafNode.forwardIff, Raw3DRealLeafNode.inverseIff⟩,
    fun _ => ⟨Raw3DRealRTRTNode.forwardIff, Raw3DRealRTRTNode.inverseRun⟩⟩

section Ideal

noncomputable def idealInner (n span : ℕ) (reading : Reading) (row : (ℕ → ℝ) → ℕ → ℝ) : ContextChild ℝ :=
  fun src dst context m => .ok (idealLayout (2 * n) context.batch row (scalarLayout src (reading.form n span))
    (scalarLayout dst (innerForm context.batch span)) m)

theorem idealInnerStores {n span : ℕ} {reading : Reading} {row : (ℕ → ℝ) → ℕ → ℝ} (positive : 0 < span) :
    StoresInner (idealInner n span reading row) (fun _ => False) n span reading row := fun _ _ _ _ _ _ =>
  (idealLayoutMap (scalarLayoutInjective fun _ hb _ hb' _ _ _ _ => innerFormInj positive hb hb')).run

theorem buffersApart {input output : Address} (source : input.buffer < 2) (target : output.buffer < 2) :
    Buffers ⟨2, 0⟩ ⟨3, 0⟩ input output (fun _ => False) := by
  have outside (p : Address) (h : p.buffer < 2) : ∀ i, ¬ cubeScratch ⟨2, 0⟩ ⟨3, 0⟩ (fun _ => False) (p.at i) := by
    intro i inside
    rcases inside with first | second | inner
    · exact absurd (show p.buffer = 2 from first) (by omega)
    · exact absurd (show p.buffer = 3 from second) (by omega)
    · exact inner
  exact ⟨by decide, fun _ => not_false, fun _ => not_false, outside input source, outside output target⟩

/- Every axis is stored where the next one wants it. -/
noncomputable def storedCube (n0 n1 n2 : ℕ) : Raw3DStridedNode ℝ where
  n0 := n0
  n1 := n1
  n2 := n2
  n2Fft := idealStore (2 * n2) n2 n1 (lift (dft n2 (forwardRoot n2)))
  n1Fft := idealInner n1 n2 .contiguous (lift (dft n1 (forwardRoot n1)))
  n0Fft := idealStore (2 * n0) n0 (n1 * n2) (lift (dft n0 (forwardRoot n0)))
  temp1 := ⟨2, 0⟩
  temp2 := ⟨3, 0⟩

theorem storedCubeOk {n0 n1 n2 : ℕ} {input output : Address} (positive : 0 < n0 ∧ 0 < n1 ∧ 0 < n2)
    (source : input.buffer < 2) (target : output.buffer < 2) :
    (storedCube n0 n1 n2).hybrid.Ok (fun _ => False) (forwardRoot n0) (forwardRoot n1) (forwardRoot n2) input output where
  n2 := ⟨fun _ absurd => (nomatch absurd), fun _ => idealStores positive.2.1⟩
  n1 := ⟨fun _ absurd => (nomatch absurd), fun _ => idealInnerStores positive.2.2⟩
  n0 := ⟨fun _ absurd => (nomatch absurd), fun _ => idealStores (Nat.mul_pos positive.2.1 positive.2.2)⟩
  buffers := buffersApart source target
  positive := positive

/- What the compiler asks before it takes the schedule without kernels. -/
def kStridedMaxElements : ℕ := 64 * 64 * 64

def fusedStoreRoute (n2Leaf n1Leaf n0Leaf fused3dStoreEnabled : Bool) (batch n0 n1 n2 : ℕ) : Bool :=
  n2Leaf && n1Leaf && n0Leaf && fused3dStoreEnabled && decide (kStridedMaxElements < batch * n0 * n1 * n2)

/- Two cubes of 64 points a side take that schedule, and it mixes them. -/
theorem fusedStoresMixCubes :
    fusedStoreRoute true true true true 2 64 64 64 = true ∧
    (storedCube 64 64 64).hybrid.Ok (fun _ => False) (forwardRoot 64) (forwardRoot 64) (forwardRoot 64) ⟨0, 0⟩ ⟨1, 0⟩ ∧
    ¬ RowRun ((storedCube 64 64 64).execute ⟨2, false, 8, 65535⟩ ⟨0, 0⟩ ⟨1, 0⟩)
      (cubeScratch ⟨2, 0⟩ ⟨3, 0⟩ fun _ => False) ⟨0, 0⟩ ⟨1, 0⟩ (2 * (64 * 64 * 64)) (2 * (64 * 64 * 64)) 2
      (lift (dft3 64 64 64 (forwardRoot 64) (forwardRoot 64) (forwardRoot 64))) := by
  have ok : (storedCube 64 64 64).hybrid.Ok (fun _ => False) (forwardRoot 64) (forwardRoot 64) (forwardRoot 64) ⟨0, 0⟩
      ⟨1, 0⟩ := storedCubeOk (by decide) Nat.zero_lt_two Nat.one_lt_two
  refine ⟨by decide, ok, fun claimed => ?_⟩
  have alone : 2 ≤ 1 ∨ 64 * 64 = 1 := (Raw3DStridedNode.executeIff ok).mp claimed
  exact absurd alone (by decide)

/- Two points a side; `turned` puts a kernel behind the middle axis. -/
noncomputable def middleAxis (turned : Bool) (d2 : ℕ) (reading : Reading) (w : ℂ) : ContextChild ℝ :=
  if turned then axis 2 w else idealInner 2 d2 reading (lift (dft 2 w))

noncomputable def middleKernel (turned : Bool) (d2 : ℕ) : Option (Perm3dKernel ℝ) :=
  if turned then some (idealPermute .a210 2 d2 2) else none

theorem middleAxisOk (turned : Bool) {d2 : ℕ} {reading : Reading} {w : ℂ} (contiguous : turned = true → reading = .contiguous)
    (positive : 0 < d2) :
    MiddleOk (middleAxis turned d2 reading w) (middleKernel turned d2) reading (fun _ => False) 2 2 d2 w := by
  cases turned with
  | true =>
    refine ⟨fun k present => ⟨contextChildComputes, ?_, contiguous rfl⟩, fun absurd => (nomatch absurd)⟩
    cases present
    exact fun _ _ _ _ => idealRowsMap
  | false => exact ⟨fun _ absurd => (nomatch absurd), fun _ => idealInnerStores positive⟩

theorem outerAxisOk {n0 n1 d2 : ℕ} {w : ℂ} (positive : 0 < n1 * d2) :
    OuterOk (idealStore (2 * n0) n0 (n1 * d2) (lift (dft n0 w))) none (fun _ => False) n0 n1 d2 w :=
  ⟨fun _ absurd => (nomatch absurd), fun _ => idealStores positive⟩

noncomputable def turnedCube2 : Raw3DHybridNode ℝ where
  n0 := 2
  n1 := 2
  n2 := 2
  n2Fft := idealStore (2 * 2) 2 2 (lift (dft 2 (-1)))
  n1Fft := middleAxis true 2 .contiguous (-1)
  n0Fft := idealStore (2 * 2) 2 (2 * 2) (lift (dft 2 (-1)))
  perm210 := middleKernel true 2
  perm021 := none
  perm201 := none
  temp1 := ⟨2, 0⟩
  temp2 := ⟨3, 0⟩

theorem turnedCube2Ok : turnedCube2.Ok (fun _ => False) (-1) (-1) (-1) ⟨0, 0⟩ ⟨1, 0⟩ where
  n2 := ⟨fun _ absurd => (nomatch absurd), fun _ => idealStores Nat.zero_lt_two⟩
  n1 := middleAxisOk true (fun _ => rfl) Nat.zero_lt_two
  n0 := outerAxisOk (by decide)
  buffers := buffersApart Nat.zero_lt_two Nat.one_lt_two
  positive := by decide

/- Real cubes of two points a side, either direction. -/
noncomputable def realLeafCube (inverse : Bool) : Raw3DRealLeafNode ℝ where
  n0 := 2
  n1 := 2
  n2 := 2
  inverse := inverse
  fusedStore := true
  n2Permuted := true
  n1StridedInput := true
  layout := .legacy
  n2RealFft := if inverse then contextChild (2 * 2) 2 (c2rRow 2 (conj (forwardRoot 2))) else idealStore 2 2 2 (r2cRow 2)
  n1Fft := if inverse then middleAxis false 2 .strided (conj (forwardRoot 2)) else middleAxis true 2 .contiguous (forwardRoot 2)
  n0Fft := idealStore (2 * 2) 2 (2 * 2) (lift (dft 2 (if inverse then conj (forwardRoot 2) else forwardRoot 2)))
  perm021 := .absent
  perm210 := middleKernel (!inverse) 2
  permFirst := .absent
  permSecond := .absent
  permThird := .absent
  temp1 := if inverse then ⟨2, 0⟩ else ⟨3, 0⟩
  temp2 := if inverse then ⟨3, 0⟩ else ⟨2, 0⟩

theorem realLeafCubeForward :
    (realLeafCube false).ForwardOk (fun _ => False) (forwardRoot 2) (forwardRoot 2) ⟨0, 0⟩ ⟨1, 0⟩ where
  n2 := ⟨fun _ absurd => (nomatch absurd), fun _ => idealStores Nat.zero_lt_two⟩
  n1 := middleAxisOk true (fun _ => rfl) Nat.zero_lt_two
  n0 := outerAxisOk (by decide)
  buffers := buffersApart Nat.zero_lt_two Nat.one_lt_two
  fused := .inl ⟨rfl, rfl⟩
  forward := rfl
  positive := by decide

theorem realLeafCubeInverse : (realLeafCube true).InverseOk (fun _ => False) ⟨0, 0⟩ ⟨1, 0⟩ where
  turn021 _ absurd := nomatch absurd
  n1 := middleAxisOk false (fun absurd => (nomatch absurd)) Nat.zero_lt_two
  n0 := outerAxisOk (by decide)
  n2 := contextChildComputes
  buffers := buffersApart Nat.zero_lt_two Nat.one_lt_two
  fused := .inl ⟨rfl, rfl⟩
  inverse := rfl
  positive := by decide

noncomputable def realTurnedCube (inverse : Bool) : Raw3DRealRTRTNode ℝ where
  n0 := 2
  n1 := 2
  n2 := 2
  inverse := inverse
  n2RealFft := if inverse then contextChild (2 * 2) 2 (c2rRow 2 (conj (forwardRoot 2))) else idealStore 2 2 2 (r2cRow 2)
  n1Fft := middleAxis true 2 .contiguous (if inverse then conj (forwardRoot 2) else forwardRoot 2)
  n0Fft := idealStore (2 * 2) 2 (2 * 2) (lift (dft 2 (if inverse then conj (forwardRoot 2) else forwardRoot 2)))
  perm021 := if inverse then some (idealPermute .a021 2 2 2) else none
  perm210 := middleKernel true 2
  perm201 := none
  temp1 := if inverse then ⟨2, 0⟩ else ⟨3, 0⟩
  temp2 := if inverse then ⟨3, 0⟩ else ⟨2, 0⟩
  native := none
  npuFusedOuterStores := false
  npuFusedSmallFinalStore := false

theorem realTurnedCubeForward :
    (realTurnedCube false).ForwardOk (fun _ => False) (forwardRoot 2) (forwardRoot 2) ⟨0, 0⟩ ⟨1, 0⟩ where
  n2 := ⟨fun _ absurd => (nomatch absurd), fun _ => idealStores Nat.zero_lt_two⟩
  n1 := middleAxisOk true (fun _ => rfl) Nat.zero_lt_two
  n0 := outerAxisOk (by decide)
  buffers := buffersApart Nat.zero_lt_two Nat.one_lt_two
  generated := ⟨rfl, rfl, rfl⟩
  forward := rfl
  positive := by decide

theorem realTurnedCubeInverse : (realTurnedCube true).InverseOk (fun _ => False) ⟨0, 0⟩ ⟨1, 0⟩ where
  turn021 k present := by
    cases present
    exact fun _ _ _ _ => idealRowsMap
  n1 := middleAxisOk true (fun _ => rfl) Nat.zero_lt_two
  n0 := outerAxisOk (by decide)
  n2 := contextChildComputes
  buffers := buffersApart Nat.zero_lt_two Nat.one_lt_two
  generated := ⟨rfl, rfl, rfl⟩
  inverse := rfl
  turned := ⟨rfl, rfl⟩
  positive := by decide

/- One cube without a kernel, and several with one. -/
theorem fusedStoresComputeSmall :
    RowRun ((storedCube 2 2 2).execute ⟨1, false, 8, 64⟩ ⟨0, 0⟩ ⟨1, 0⟩) (cubeScratch ⟨2, 0⟩ ⟨3, 0⟩ fun _ => False) ⟨0, 0⟩
      ⟨1, 0⟩ 16 16 1 (lift (dft3 2 2 2 (forwardRoot 2) (forwardRoot 2) (forwardRoot 2))) ∧
    RowRun (turnedCube2.execute ⟨3, false, 8, 64⟩ ⟨0, 0⟩ ⟨1, 0⟩) (cubeScratch ⟨2, 0⟩ ⟨3, 0⟩ fun _ => False) ⟨0, 0⟩ ⟨1, 0⟩
      16 16 3 (lift (dft3 2 2 2 (-1) (-1) (-1))) ∧
    RowRun ((realLeafCube false).execute ⟨3, false, 8, 64⟩ ⟨0, 0⟩ ⟨1, 0⟩) (cubeScratch ⟨2, 0⟩ ⟨3, 0⟩ fun _ => False) ⟨0, 0⟩
      ⟨1, 0⟩ 8 16 3 (r2c3Row 2 2 2) ∧
    RowRun ((realLeafCube true).execute ⟨1, true, 8, 64⟩ ⟨0, 0⟩ ⟨1, 0⟩) (cubeScratch ⟨2, 0⟩ ⟨3, 0⟩ fun _ => False) ⟨0, 0⟩
      ⟨1, 0⟩ 16 8 1 (c2r3Row 2 2 2) ∧
    RowRun ((realTurnedCube false).execute ⟨3, false, 8, 64⟩ ⟨0, 0⟩ ⟨1, 0⟩) (cubeScratch ⟨2, 0⟩ ⟨3, 0⟩ fun _ => False)
      ⟨0, 0⟩ ⟨1, 0⟩ 8 16 3 (r2c3Row 2 2 2) ∧
    RowRun ((realTurnedCube true).execute ⟨3, true, 8, 64⟩ ⟨0, 0⟩ ⟨1, 0⟩) (cubeScratch ⟨2, 0⟩ ⟨3, 0⟩ fun _ => False) ⟨0, 0⟩
      ⟨1, 0⟩ 16 8 3 (c2r3Row 2 2 2) := by
  have one := fusedStoresCompute (fun _ => False) ⟨0, 0⟩ ⟨1, 0⟩ ⟨1, false, 8, 64⟩
  have oneInverse := fusedStoresCompute (fun _ => False) ⟨0, 0⟩ ⟨1, 0⟩ ⟨1, true, 8, 64⟩
  have three := fusedStoresCompute (fun _ => False) ⟨0, 0⟩ ⟨1, 0⟩ ⟨3, false, 8, 64⟩
  have threeInverse := fusedStoresCompute (fun _ => False) ⟨0, 0⟩ ⟨1, 0⟩ ⟨3, true, 8, 64⟩
  have cube : (storedCube 2 2 2).hybrid.Ok _ _ _ _ ⟨0, 0⟩ ⟨1, 0⟩ := storedCubeOk (by decide) Nat.zero_lt_two Nat.one_lt_two
  refine ⟨(one.1 _ _ _ _ cube).mpr (.inl le_rfl), (three.2.1 _ _ _ _ turnedCube2Ok).mpr fun absurd => (nomatch absurd),
    ((three.2.2.1 _).1 realLeafCubeForward).mpr fun absurd => (nomatch absurd),
    ((oneInverse.2.2.1 _).2 realLeafCubeInverse).mpr fun _ => .inl le_rfl,
    ((three.2.2.2 _).1 realTurnedCubeForward).mpr fun absurd => (nomatch absurd),
    (threeInverse.2.2.2 _).2 realTurnedCubeInverse⟩

end Ideal

end FlagFft.ThreeDim
