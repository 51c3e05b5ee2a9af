import FlagFft.TwoDim.Complex
import FlagFft.TwoDim.Real

/-! What the six schedules compute: the two-dimensional transform, its half spectrum and its inverse,
except for a complex node that launches its fresh graph in place. -/
namespace FlagFft.TwoDim
open Library.Dft Library.Indexing Library.RealDft FlagFft.Graph FlagFft.Real
open scoped ComplexConjugate

/- Batch counts, layouts and aliasing fit together in every schedule, and every pass reads what the pass
before it wrote. A complex node goes wrong exactly when the call that builds its graph launches it in
place on more than one point. -/
theorem twoDimComputes (child : Address → Prop) (input output : Address) (batch : ℕ) :
    (∀ (node : Raw2DNode ℂ) (w0 w1 : ℂ), Raw2DNode.Ok node child w0 w1 input output → Compatible input output →
      ∀ (state : NodeState ℂ) (driver : Driver), (node.replayed batch).Faithful state →
      state.stream.capture = none → Answers driver →
      Chained input (node.passes batch input output) ∧
      (RowRun (runCall (node.replayed batch) state input output driver) (Raw2DNode.scratch node child) input output
          (node.n0 * node.n1) (node.n0 * node.n1) batch (dft2 node.n0 node.n1 w0 w1) ↔
        ¬ ((node.replayed batch).Launches input output driver state ∧ input = output ∧ 0 < batch ∧
          1 < node.n0 * node.n1))) ∧
    (∀ (node : Raw2DRCNode ℂ) (w0 w1 : ℂ), Raw2DRCNode.Ok node child w0 w1 input output → Compatible input output →
      ∀ (state : NodeState ℂ) (driver : Driver), (node.replayed batch).Faithful state →
      state.stream.capture = none → Answers driver →
      Chained input (node.passes batch input output) ∧
      (RowRun (runCall (node.replayed batch) state input output driver) (Raw2DRCNode.scratch node child) input output
          (node.n0 * node.n1) (node.n0 * node.n1) batch (dft2 node.n0 node.n1 w0 w1) ↔
        ¬ ((node.replayed batch).Launches input output driver state ∧ input = output ∧ 0 < batch ∧
          1 < node.n0 * node.n1))) ∧
    (∀ node : Raw2DR2CRowNode ℝ, 0 < node.n1 → node.Ok child input output →
      Chained input (node.passes batch input output) ∧
      RowRun (node.execute batch input output) (node.scratch child) input output (node.n0 * node.n1)
        (2 * (node.n0 * (node.n1 / 2 + 1))) batch (r2c2Row node.n0 node.n1)) ∧
    (∀ node : Raw2DC2RRowNode ℝ, node.Ok child input output →
      Chained input (node.passes batch input output) ∧
      RowRun (node.execute batch input output) (node.scratch child) input output
        (2 * (node.n0 * (node.n1 / 2 + 1))) (node.n0 * node.n1) batch (c2r2Row node.n0 node.n1)) ∧
    (∀ (node : Raw2DR2CNode ℝ) (blockLimit : ℕ) (schedule : Schedule), 0 < node.n1 → node.Ok child input output →
      Chained input (node.passes batch blockLimit schedule input output) ∧
      RowRun (node.execute batch blockLimit schedule input output) (node.scratch child) input output
        (node.n0 * node.n1) (2 * (node.n0 * (node.n1 / 2 + 1))) batch (r2c2Row node.n0 node.n1)) ∧
    ∀ (node : Raw2DC2RNode ℝ) (blockLimit : ℕ) (schedule : Schedule), node.Ok child input output →
      Chained input (node.passes batch blockLimit schedule input output) ∧
      RowRun (node.execute batch blockLimit schedule input output) (node.scratch child) input output
        (2 * (node.n0 * (node.n1 / 2 + 1))) (node.n0 * node.n1) batch (c2r2Row node.n0 node.n1) := by
  refine ⟨?_, ?_, ?_, ?_, ?_, ?_⟩
  · intro node w0 w1 ok compatible state driver faithful idle answers
    exact ⟨⟨rfl, rfl, rfl, rfl, trivial⟩,
      callIff (Raw2DNode.transformMap ok) compatible ok.input faithful idle answers⟩
  · intro node w0 w1 ok compatible state driver faithful idle answers
    exact ⟨⟨rfl, rfl, trivial⟩, callIff (Raw2DRCNode.transformMap ok) compatible ok.input faithful idle answers⟩
  · intro node positive ok
    exact ⟨⟨rfl, rfl, rfl, rfl, trivial⟩, Raw2DR2CRowNode.executeRun positive ok⟩
  · intro node ok
    exact ⟨⟨rfl, rfl, rfl, rfl, trivial⟩, Raw2DC2RRowNode.executeRun ok⟩
  · intro node blockLimit schedule positive ok
    exact ⟨⟨rfl, rfl, rfl, rfl, rfl, rfl, trivial⟩, Raw2DR2CNode.executeRun blockLimit schedule positive ok⟩
  · intro node blockLimit schedule ok
    exact ⟨⟨rfl, rfl, rfl, rfl, rfl, rfl, trivial⟩, Raw2DC2RNode.executeRun blockLimit schedule ok⟩

section Ideal

theorem idealTransposes {R : Type*} {size : ℕ} {row : (ℕ → R) → ℕ → R} :
    Transposes (idealRows size size row) size row := fun _ _ _ _ => idealRowsMap

def idealChild {R : Type*} (n : ℕ) (row : (ℕ → R) → ℕ → R) : DeviceChild R := fun src dst batch =>
  [idealRows n n row src dst batch]

theorem idealChildComputes {R : Type*} {n : ℕ} {row : (ℕ → R) → ℕ → R} :
    (asChild (idealChild n row)).Computes (fun _ => False) n row := fun _ _ _ _ _ _ => idealRowsMap.run

/- Whole blocks at once: the columns of each. -/
def idealColumns {R : Type*} (n0 n1 : ℕ) (f : (ℕ → R) → ℕ → R) : DeviceChild R := fun src dst rows =>
  [idealRows (n0 * n1) (n0 * n1) (columns n1 f) src dst (rows / n1)]

theorem idealColumnsCompute {R : Type*} {n0 n1 : ℕ} {f : (ℕ → R) → ℕ → R} (positive : 0 < n1) :
    ComputesColumns (idealColumns n0 n1 f) (fun _ => False) n0 n1 f := by
  intro src dst batch _ _ _
  have whole : batch * n1 / n1 = batch := Nat.mul_div_cancel batch positive
  have map : RowMap (idealRows (n0 * n1) (n0 * n1) (columns n1 f) src dst batch) (fun _ => False) src dst (n0 * n1)
      (n0 * n1) batch (columns n1 f) := idealRowsMap
  refine ⟨fun m => Library.Capture.runAll (idealColumns n0 n1 f src dst (batch * n1)) m, fun _ => rfl, ?_⟩
  change LayoutMap (idealRows (n0 * n1) (n0 * n1) (columns n1 f) src dst (batch * n1 / n1)) _ _ _ _ _ _
  rw [whole]
  constructor
  · intro m r hr k hk
    have slot := Nat.mod_lt r positive
    refine (map.writes m (r / n1) (Nat.div_lt_of_lt_mul (by rwa [Nat.mul_comm] at hr)) _ (mulAddLt hk slot)).trans ?_
    unfold columns
    rw [mulAddMod slot, mulAddDiv slot]
    rfl
  · intro m a kept outside
    refine map.frame m a kept fun b hb o ho same => ?_
    have slot := Nat.mod_lt o positive
    refine outside (b * n1 + o % n1) (mulAddLt hb slot) (o / n1)
      (Nat.div_lt_of_lt_mul (by rwa [Nat.mul_comm] at ho)) (same.trans ?_)
    unfold columnLayout
    rw [mulAddDiv slot, mulAddMod slot, Nat.mul_comm (o / n1), Nat.div_add_mod]

/- Two by two points, temporary buffers 2 and 3. -/
def square : Raw2DNode ℂ where
  n0 := 2
  n1 := 2
  rowFft := idealChild 2 (dft 2 (-1))
  colFft := idealChild 2 (dft 2 (-1))
  transposeFwd := idealRows (2 * 2) (2 * 2) (transposeRow 2 2)
  transposeInv := idealRows (2 * 2) (2 * 2) (transposeRow 2 2)
  temp1 := ⟨2, 0⟩
  temp2 := ⟨3, 0⟩
  graphEnabled := true

theorem squareOk {output : Address} (apart : output.buffer < 2) :
    Raw2DNode.Ok square (fun _ => False) (-1) (-1) ⟨0, 0⟩ output := by
  have outside (p : Address) (h : p.buffer < 2) : ∀ i, ¬ Raw2DNode.scratch square (fun _ => False) (p.at i) := by
    intro i inside
    rcases inside with first | second | inner
    · exact absurd (show p.buffer = 2 from first) (by omega)
    · exact absurd (show p.buffer = 3 from second) (by omega)
    · exact inner
  exact ⟨idealChildComputes, idealChildComputes, idealTransposes, idealTransposes, by decide, fun _ => not_false,
    fun _ => not_false, outside _ Nat.zero_lt_two, outside _ apart⟩

/- One row of three. -/
def line : Raw2DRCNode ℂ where
  n0 := 1
  n1 := 3
  rowFft := idealChild 3 (dft 3 1)
  colFft := idealColumns 1 3 (dft 1 1)
  temp1 := ⟨2, 0⟩
  graphEnabled := true

theorem lineOk : Raw2DRCNode.Ok line (fun _ => False) 1 1 ⟨0, 0⟩ ⟨1, 0⟩ := by
  refine ⟨idealChildComputes, idealColumnsCompute (by decide), fun _ => not_false, ?_, ?_⟩ <;>
    simp [Raw2DRCNode.scratch, line, Address.at]

noncomputable def contextChild (nIn nOut : ℕ) (row : (ℕ → ℝ) → ℕ → ℝ) : ContextChild ℝ := fun src dst context m =>
  .ok (idealRows nIn nOut row src dst context.batch m)

theorem contextChildComputes {nIn nOut inputDistance outputDistance : ℕ} {row : (ℕ → ℝ) → ℕ → ℝ} :
    (contextChild nIn nOut row).Computes (fun _ => False) inputDistance outputDistance nIn nOut row :=
  fun _ _ _ _ _ _ => idealRowsMap.run

/- Two rows of three real points, two frequencies of each. -/
noncomputable def turned (w : ℂ) : ContextChild ℝ × TransposeKernel ℝ × TransposeKernel ℝ :=
  (contextChild (2 * 2) (2 * 2) (lift (dft 2 w)), idealRows (2 * (2 * 2)) (2 * (2 * 2)) (lift (transposeRow 2 2)),
    idealRows (2 * (2 * 2)) (2 * (2 * 2)) (lift (transposeRow 2 2)))

theorem turnedOk {distance : ℕ} {w : ℂ} :
    TurnsOk (turned w).2.1 (turned w).2.2 (turned w).1 (fun _ => False) distance 2 2 w :=
  ⟨fun _ _ _ _ => idealRowsMap, fun _ _ _ _ => idealRowsMap, contextChildComputes⟩

noncomputable def rowForward : Raw2DR2CRowNode ℝ where
  n0 := 2
  n1 := 3
  rowR2c := contextChild 3 (2 * 2) (r2cRow 3)
  colFft := (turned (forwardRoot 2)).1
  transposeFwd := (turned (forwardRoot 2)).2.1
  transposeInv := (turned (forwardRoot 2)).2.2
  temp1 := ⟨2, 0⟩
  temp2 := ⟨3, 0⟩

noncomputable def rowInverse : Raw2DC2RRowNode ℝ where
  n0 := 2
  n1 := 3
  colFft := (turned (conj (forwardRoot 2))).1
  rowC2r := contextChild (2 * 2) 3 (c2rRow 3 (conj (forwardRoot 3)))
  transposeFwd := (turned (conj (forwardRoot 2))).2.1
  transposeInv := (turned (conj (forwardRoot 2))).2.2
  temp1 := ⟨2, 0⟩
  temp2 := ⟨3, 0⟩

theorem tileWide : 256 ≤ 256 := Nat.le_refl 256

noncomputable def genericForward : Raw2DR2CNode ℝ where
  n0 := 2
  n1 := 3
  elements := 256
  rowFft := contextChild (2 * 3) (2 * 3) (lift (dft 3 (forwardRoot 3)))
  colFft := (turned (forwardRoot 2)).1
  transposeFwd := (turned (forwardRoot 2)).2.1
  transposeInv := (turned (forwardRoot 2)).2.2
  rowFftBuf := ⟨4, 0⟩
  temp1 := ⟨2, 0⟩
  temp2 := ⟨3, 0⟩
  wide := tileWide

noncomputable def genericInverse : Raw2DC2RNode ℝ where
  n0 := 2
  n1 := 3
  elements := 256
  colFft := (turned (conj (forwardRoot 2))).1
  rowFft := contextChild (2 * 3) (2 * 3) (lift (dft 3 (conj (forwardRoot 3))))
  transposeFwd := (turned (conj (forwardRoot 2))).2.1
  transposeInv := (turned (conj (forwardRoot 2))).2.2
  temp1 := ⟨2, 0⟩
  temp2 := ⟨3, 0⟩
  temp3 := ⟨4, 0⟩
  wide := tileWide

theorem rowForwardOk : rowForward.Ok (fun _ => False) ⟨0, 0⟩ ⟨0, 0⟩ := by
  refine ⟨contextChildComputes, turnedOk, by decide, fun _ => not_false, fun _ => not_false, ?_, ?_⟩ <;>
    simp [Raw2DR2CRowNode.scratch, rowForward, Address.at]

theorem rowInverseOk : rowInverse.Ok (fun _ => False) ⟨0, 0⟩ ⟨0, 0⟩ := by
  refine ⟨contextChildComputes, turnedOk, by decide, fun _ => not_false, fun _ => not_false, ?_, ?_⟩ <;>
    simp [Raw2DC2RRowNode.scratch, rowInverse, Address.at]

theorem genericForwardOk : genericForward.Ok (fun _ => False) ⟨0, 0⟩ ⟨0, 0⟩ := by
  refine ⟨contextChildComputes, turnedOk, by decide, fun _ => not_false, fun _ => not_false, fun _ => not_false, ?_, ?_⟩ <;>
    simp [Raw2DR2CNode.scratch, genericForward, Address.at]

theorem genericInverseOk : genericInverse.Ok (fun _ => False) ⟨0, 0⟩ ⟨0, 0⟩ := by
  refine ⟨contextChildComputes, turnedOk, by decide, by decide, fun _ => not_false, fun _ => not_false,
    fun _ => not_false, ?_, ?_⟩ <;>
    simp [Raw2DC2RNode.scratch, genericInverse, Address.at]

theorem willingAnswers : Answers willing := ⟨fun _ => rfl, fun _ => rfl, rfl⟩

theorem squareLaunches {input output : Address} :
    (square.replayed 1).Launches input output willing (fresh fun _ => 0) :=
  ⟨rfl, rfl, rfl, rfl, rfl, rfl, rfl, .inl rfl⟩

/- Between two buffers, three batch elements and the call that builds the graph. -/
theorem twoDimComputesSmall :
    RowRun (runCall (square.replayed 3) (fresh fun _ => 0) ⟨0, 0⟩ ⟨1, 0⟩ willing)
      (Raw2DNode.scratch square fun _ => False) ⟨0, 0⟩ ⟨1, 0⟩ 4 4 3 (dft2 2 2 (-1) (-1)) ∧
    RowRun (runCall (line.replayed 3) (fresh fun _ => 0) ⟨0, 0⟩ ⟨1, 0⟩ willing)
      (Raw2DRCNode.scratch line fun _ => False) ⟨0, 0⟩ ⟨1, 0⟩ 3 3 3 (dft2 1 3 1 1) ∧
    RowRun (rowForward.execute 3 ⟨0, 0⟩ ⟨0, 0⟩) (rowForward.scratch fun _ => False) ⟨0, 0⟩ ⟨0, 0⟩ 6 8 3 (r2c2Row 2 3) ∧
    RowRun (rowInverse.execute 3 ⟨0, 0⟩ ⟨0, 0⟩) (rowInverse.scratch fun _ => False) ⟨0, 0⟩ ⟨0, 0⟩ 8 6 3 (c2r2Row 2 3) ∧
    RowRun (genericForward.execute 3 64 ascending ⟨0, 0⟩ ⟨0, 0⟩) (genericForward.scratch fun _ => False) ⟨0, 0⟩ ⟨0, 0⟩
      6 8 3 (r2c2Row 2 3) ∧
    RowRun (genericInverse.execute 3 64 ascending ⟨0, 0⟩ ⟨0, 0⟩) (genericInverse.scratch fun _ => False) ⟨0, 0⟩ ⟨0, 0⟩
      8 6 3 (c2r2Row 2 3) := by
  have apart := twoDimComputes (fun _ => False) ⟨0, 0⟩ ⟨1, 0⟩ 3
  have inPlace := twoDimComputes (fun _ => False) ⟨0, 0⟩ ⟨0, 0⟩ 3
  refine ⟨?_, ?_, ?_, ?_, ?_, ?_⟩
  · have both := apart.1 square (-1) (-1) (squareOk Nat.one_lt_two) (.inr (by decide)) (fresh fun _ => 0) willing
      Replayed.freshFaithful rfl willingAnswers
    exact both.2.mpr fun bad => absurd bad.2.1 (by decide)
  · have both := apart.2.1 line 1 1 lineOk (.inr (by decide)) (fresh fun _ => 0) willing Replayed.freshFaithful rfl
      willingAnswers
    exact both.2.mpr fun bad => absurd bad.2.1 (by decide)
  · exact (inPlace.2.2.1 rowForward (by decide) rowForwardOk).2
  · exact (inPlace.2.2.2.1 rowInverse rowInverseOk).2
  · exact (inPlace.2.2.2.2.1 genericForward 64 ascending (by decide) genericForwardOk).2
  · exact (inPlace.2.2.2.2.2 genericInverse 64 ascending genericInverseOk).2

def point : Memory ℂ := fun a => if a = ⟨0, 0⟩ then 1 else 0

/- In place an impulse ends as (4, 0, 0, 0) and not as (1, 1, 1, 1). -/
theorem squareTwiceInPlace : ∃ m, runCall (square.replayed 1) (fresh fun _ => 0) ⟨0, 0⟩ ⟨0, 0⟩ willing point = .ok m ∧
    m ⟨0, 0⟩ = 4 ∧ dft2 2 2 (-1) (-1) (fun j => point ((⟨0, 0⟩ : Address).row 4 0 j)) 0 = 1 := by
  have impulse : ∀ j, point ((⟨0, 0⟩ : Address).row 4 0 j) = if j = 0 then 1 else 0 := by
    intro j
    simp [point, Address.row, Address.at]
  have once : RowMap ((square.replayed 1).transform ⟨0, 0⟩ ⟨0, 0⟩) _ _ _ _ _ 1 _ :=
    Raw2DNode.transformMap (squareOk Nat.zero_lt_two)
  obtain ⟨run, returns, ran⟩ := twiceRunInPlace once Replayed.freshFaithful rfl willingAnswers squareLaunches
    fun _ _ same _ _ => dft2Congr same
  refine ⟨run point, returns point, ?_, dft2Impulse impulse Nat.two_pos Nat.two_pos 0⟩
  refine (ran.writes point 0 Nat.one_pos 0 (by decide)).trans ?_
  refine (dft2Flat fun j => dft2Impulse impulse Nat.two_pos Nat.two_pos j).trans ?_
  norm_num [square]

end Ideal

end FlagFft.TwoDim
