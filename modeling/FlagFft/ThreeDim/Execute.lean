import FlagFft.ThreeDim.Real
import FlagFft.TwoDim.Execute

/-! What the axis-by-axis schedules compute: the three-dimensional transform, its half spectrum and its
inverse, in natural order for every batch element. -/
namespace FlagFft.ThreeDim
open Library.Dft Library.RealDft Library.Indexing FlagFft.Real FlagFft.TwoDim
open scoped ComplexConjugate

/- In every schedule each pass reads what the pass before it wrote, and each batch element ends as its own
transform. Nothing is asked of how input and output lie to each other: they may be one buffer. -/
theorem threeDimComputes (child : Address → Prop) (input output : Address) (context : Context3d) :
    (∀ (node : Raw3DNode ℝ) (w0 w1 w2 : ℂ), node.Ok context child w0 w1 w2 input output →
      Chained input (node.passes context input output) ∧
      RowRun (node.execute context input output) (node.scratch child) input output (2 * (node.n0 * node.n1 * node.n2))
        (2 * (node.n0 * node.n1 * node.n2)) context.batch (lift (dft3 node.n0 node.n1 node.n2 w0 w1 w2))) ∧
    (∀ (node : Raw3DR2CNode ℝ) (schedule : Schedule), 0 < node.n2 → node.Ok context child input output →
      Chained input (node.passes context schedule input output) ∧
      RowRun (node.execute context schedule input output) (node.scratch child) input output
        (node.n0 * node.n1 * node.n2) (2 * (node.n0 * node.n1 * (node.n2 / 2 + 1))) context.batch
        (r2c3Row node.n0 node.n1 node.n2)) ∧
    ∀ (node : Raw3DC2RNode ℝ) (schedule : Schedule), node.Ok context child input output →
      Chained input (node.passes context schedule input output) ∧
      RowRun (node.execute context schedule input output) (node.scratch child) input output
        (2 * (node.n0 * node.n1 * (node.n2 / 2 + 1))) (node.n0 * node.n1 * node.n2) context.batch
        (c2r3Row node.n0 node.n1 node.n2) := by
  refine ⟨?_, ?_, ?_⟩
  · intro node w0 w1 w2 ok
    refine ⟨?_, Raw3DNode.executeRun ok⟩
    unfold Raw3DNode.passes
    rw [ok.unpaired]
    cases node.finalPermutedStore with
    | true => exact ⟨rfl, rfl, rfl, rfl, rfl, trivial⟩
    | false =>
      cases context.inverse with
      | true => exact ⟨rfl, rfl, rfl, rfl, rfl, rfl, trivial⟩
      | false => exact ⟨rfl, rfl, rfl, rfl, rfl, rfl, trivial⟩
  · intro node schedule positive ok
    exact ⟨⟨rfl, rfl, rfl, rfl, rfl, rfl, rfl, rfl, trivial⟩, Raw3DR2CNode.executeRun positive ok⟩
  · intro node schedule ok
    exact ⟨⟨rfl, rfl, rfl, rfl, rfl, rfl, rfl, rfl, trivial⟩, Raw3DC2RNode.executeRun ok⟩

section Ideal

noncomputable def idealPermute (order : AxisOrder) (d0 d1 d2 : ℕ) : Perm3dKernel ℝ where
  gridXOverride := 0
  run := idealRows (2 * (d0 * d1 * d2)) (2 * (d0 * d1 * d2)) (lift (permuteRow order d0 d1 d2))

theorem idealPermutes {context : Context3d} {order : AxisOrder} {d0 d1 d2 : ℕ} :
    Permutes (idealPermute order d0 d1 d2) none context order d0 d1 d2 := fun _ _ _ _ => idealRowsMap

noncomputable def idealStore (nIn n span : ℕ) (row : (ℕ → ℝ) → ℕ → ℝ) : ContextChild ℝ := fun src dst context m =>
  .ok (idealLayout (2 * n) context.batch row (src.row nIn) (scalarLayout dst (outerForm n span)) m)

theorem idealStores {nIn n span outputDistance : ℕ} {row : (ℕ → ℝ) → ℕ → ℝ} (positive : 0 < span) :
    StoresOuter (idealStore nIn n span row) (fun _ => False) outputDistance nIn n span row := fun _ _ _ _ _ _ =>
  (idealLayoutMap (scalarLayoutInjective fun _ _ _ _ _ hk _ hk' => outerFormInj positive hk hk')).run

noncomputable def axis (n : ℕ) (w : ℂ) : ContextChild ℝ := contextChild (2 * n) (2 * n) (lift (dft n w))

/- Two by three by two points, temporary buffers 2 and 3. -/
noncomputable def brick (final : Bool) : Raw3DNode ℝ where
  n0 := 2
  n1 := 3
  n2 := 2
  n2Fft := axis 2 (-1)
  n1Fft := axis 3 1
  n0Fft := if final then idealStore (2 * 2) 2 (3 * 2) (lift (dft 2 (-1))) else axis 2 (-1)
  perm021Fwd := idealPermute .a021 2 3 2
  perm210Fwd := idealPermute .a210 2 2 3
  perm201Fwd := idealPermute .a201 3 2 2
  perm120Inv := idealPermute .a120 2 3 2
  perm210Inv := idealPermute .a210 3 2 2
  perm021Inv := idealPermute .a021 2 2 3
  temp1 := ⟨2, 0⟩
  temp2 := ⟨3, 0⟩
  native := none
  npuPairFusedStore := false
  finalPermutedStore := final

theorem brickOk {final inverse : Bool} {output : Address} (apart : output.buffer < 2) :
    (brick final).Ok ⟨3, inverse, 8, 64⟩ (fun _ => False) (-1) 1 (-1) ⟨0, 0⟩ output := by
  have outside (p : Address) (h : p.buffer < 2) : ∀ i, ¬ (brick final).scratch (fun _ => False) (p.at i) := by
    intro i inside
    rcases inside with first | second | inner
    · exact absurd (show p.buffer = 2 from first) (by omega)
    · exact absurd (show p.buffer = 3 from second) (by omega)
    · exact inner
  refine ⟨contextChildComputes, contextChildComputes, ?_, ?_, fun _ _ => ⟨idealPermutes, idealPermutes, idealPermutes⟩,
    fun _ _ => ⟨idealPermutes, idealPermutes, idealPermutes⟩,
    fun _ => ⟨fun _ _ _ _ => idealRowsMap, fun _ _ _ _ => idealRowsMap⟩, rfl, show 2 ≠ 3 by decide, fun _ => not_false,
    fun _ => not_false, outside _ Nat.zero_lt_two, outside _ apart⟩
  · intro contiguous
    cases contiguous
    exact contextChildComputes
  · intro stored
    cases stored
    exact idealStores (by decide)

noncomputable def realBrick : Raw3DR2CNode ℝ where
  n0 := 2
  n1 := 2
  n2 := 3
  elements := 256
  n2Fft := axis 3 (forwardRoot 3)
  n1Fft := axis 2 (forwardRoot 2)
  n0Fft := axis 2 (forwardRoot 2)
  perm021 := idealPermute .a021 2 2 2
  perm210 := idealPermute .a210 2 2 2
  perm201 := idealPermute .a201 2 2 2
  rowFftBuf := ⟨4, 0⟩
  temp1 := ⟨2, 0⟩
  temp2 := ⟨3, 0⟩
  native := none
  wide := tileWide

theorem realBrickOk : realBrick.Ok ⟨3, false, 8, 64⟩ (fun _ => False) ⟨0, 0⟩ ⟨0, 0⟩ := by
  refine ⟨contextChildComputes, contextChildComputes, contextChildComputes, idealPermutes, idealPermutes, idealPermutes,
    by decide, fun _ => not_false, fun _ => not_false, fun _ => not_false, ?_, ?_⟩ <;>
    simp [Raw3DR2CNode.scratch, realBrick, Address.at]

noncomputable def inverseBrick : Raw3DC2RNode ℝ where
  n0 := 2
  n1 := 2
  n2 := 3
  elements := 256
  perm120 := idealPermute .a120 2 2 2
  perm210 := idealPermute .a210 2 2 2
  perm021 := idealPermute .a021 2 2 2
  n0Fft := axis 2 (conj (forwardRoot 2))
  n1Fft := axis 2 (conj (forwardRoot 2))
  n2Fft := axis 3 (conj (forwardRoot 3))
  temp1 := ⟨2, 0⟩
  temp2 := ⟨3, 0⟩
  fullBuf := ⟨4, 0⟩
  native := none
  wide := tileWide

theorem inverseBrickOk : inverseBrick.Ok ⟨3, true, 8, 64⟩ (fun _ => False) ⟨0, 0⟩ ⟨0, 0⟩ := by
  refine ⟨contextChildComputes, contextChildComputes, contextChildComputes, idealPermutes, idealPermutes, idealPermutes,
    by decide, by decide, fun _ => not_false, fun _ => not_false, fun _ => not_false, ?_, ?_⟩ <;>
    simp [Raw3DC2RNode.scratch, inverseBrick, Address.at]

/- Three batch elements: all five schedules, the forward one between two buffers and the others in place. -/
theorem threeDimComputesSmall :
    RowRun ((brick false).execute ⟨3, false, 8, 64⟩ ⟨0, 0⟩ ⟨1, 0⟩) ((brick false).scratch fun _ => False) ⟨0, 0⟩ ⟨1, 0⟩
      24 24 3 (lift (dft3 2 3 2 (-1) 1 (-1))) ∧
    RowRun ((brick false).execute ⟨3, true, 8, 64⟩ ⟨0, 0⟩ ⟨0, 0⟩) ((brick false).scratch fun _ => False) ⟨0, 0⟩ ⟨0, 0⟩
      24 24 3 (lift (dft3 2 3 2 (-1) 1 (-1))) ∧
    RowRun ((brick true).execute ⟨3, false, 8, 64⟩ ⟨0, 0⟩ ⟨0, 0⟩) ((brick true).scratch fun _ => False) ⟨0, 0⟩ ⟨0, 0⟩
      24 24 3 (lift (dft3 2 3 2 (-1) 1 (-1))) ∧
    RowRun (realBrick.execute ⟨3, false, 8, 64⟩ ascending ⟨0, 0⟩ ⟨0, 0⟩) (realBrick.scratch fun _ => False) ⟨0, 0⟩ ⟨0, 0⟩
      12 16 3 (r2c3Row 2 2 3) ∧
    RowRun (inverseBrick.execute ⟨3, true, 8, 64⟩ ascending ⟨0, 0⟩ ⟨0, 0⟩) (inverseBrick.scratch fun _ => False)
      ⟨0, 0⟩ ⟨0, 0⟩ 16 12 3 (c2r3Row 2 2 3) := by
  have apart := threeDimComputes (fun _ => False) ⟨0, 0⟩ ⟨1, 0⟩ ⟨3, false, 8, 64⟩
  have forward := threeDimComputes (fun _ => False) ⟨0, 0⟩ ⟨0, 0⟩ ⟨3, false, 8, 64⟩
  have inverse := threeDimComputes (fun _ => False) ⟨0, 0⟩ ⟨0, 0⟩ ⟨3, true, 8, 64⟩
  refine ⟨?_, ?_, ?_, ?_, ?_⟩
  · exact (apart.1 (brick false) (-1) 1 (-1) (brickOk Nat.one_lt_two)).2
  · exact (inverse.1 (brick false) (-1) 1 (-1) (brickOk Nat.zero_lt_two)).2
  · exact (forward.1 (brick true) (-1) 1 (-1) (brickOk Nat.zero_lt_two)).2
  · exact (forward.2.1 realBrick ascending (by decide) realBrickOk).2
  · exact (inverse.2.2 inverseBrick ascending inverseBrickOk).2

end Ideal

end FlagFft.ThreeDim
