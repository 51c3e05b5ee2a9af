import FlagFft.ThreeDim.Passes

/-! Leaves whose store also permutes. The outer form keeps a block of `span` rows together and writes its
columns one after another; the inner form spreads each frequency over the whole batch. -/
namespace FlagFft.ThreeDim
open Library.Dft Library.RealDft Library.Indexing FlagFft.Real FlagFft.TwoDim

/- Element `e` of complex rows laid out by `place`, as scalars. -/
def scalarLayout (p : Address) (place : ℕ → ℕ → ℕ) : Layout := fun row i => p.at (2 * place row (i / 2) + i % 2)

/- Row `i0 * span + i1` has frequency `k` at `i0 * (n * span) + k * span + i1`. -/
def outerForm (n span row k : ℕ) : ℕ := row / span * (n * span) + k * span + row % span

/- The same row has frequency `k` at `k * nbatch + i1 * (nbatch / span) + i0`. -/
def innerForm (nbatch span row k : ℕ) : ℕ := k * nbatch + row % span * (nbatch / span) + row / span

/- Rows next to each other, or the columns of blocks of `span`. -/
inductive Reading where
  | contiguous
  | strided
  deriving DecidableEq, Repr

def Reading.form (reading : Reading) (n span row k : ℕ) : ℕ :=
  match reading with
  | .contiguous => row * n + k
  | .strided => outerForm n span row k

section Forms
variable {n span row row' k k' : ℕ}

theorem outerFormInj (positive : 0 < span) (hk : k < n) (hk' : k' < n)
    (same : outerForm n span row k = outerForm n span row' k') : row = row' ∧ k = k' := by
  unfold outerForm at same
  have slot := Nat.mod_lt row positive
  have slot' := Nat.mod_lt row' positive
  rw [Nat.add_assoc, Nat.add_assoc] at same
  obtain ⟨block, inside⟩ := mulAddInj (mulAddLt hk slot) (mulAddLt hk' slot') same
  obtain ⟨frequency, column⟩ := mulAddInj slot slot' inside
  refine ⟨?_, frequency⟩
  rw [← Nat.div_add_mod row span, block, column, Nat.div_add_mod]

theorem innerFormInj {blocks : ℕ} (positive : 0 < span) (hr : row < blocks * span) (hr' : row' < blocks * span)
    (same : innerForm (blocks * span) span row k = innerForm (blocks * span) span row' k') : row = row' ∧ k = k' := by
  unfold innerForm at same
  rw [Nat.mul_div_cancel blocks positive, Nat.add_assoc, Nat.add_assoc] at same
  have block : row / span < blocks := Nat.div_lt_of_lt_mul (by rwa [Nat.mul_comm] at hr)
  have block' : row' / span < blocks := Nat.div_lt_of_lt_mul (by rwa [Nat.mul_comm] at hr')
  have size : ∀ k, k * (blocks * span) = k * (span * blocks) := fun k => by ring
  rw [size, size] at same
  obtain ⟨frequency, inside⟩ := mulAddInj (mulAddLt (Nat.mod_lt row positive) block)
    (mulAddLt (Nat.mod_lt row' positive) block') same
  obtain ⟨column, outer⟩ := mulAddInj block block' inside
  refine ⟨?_, frequency⟩
  rw [← Nat.div_add_mod row span, column, outer, Nat.div_add_mod]

theorem scalarLayoutInjective {p : Address} {place : ℕ → ℕ → ℕ} {n rows : ℕ}
    (distinct : ∀ b < rows, ∀ b' < rows, ∀ k < n, ∀ k' < n, place b k = place b' k' → b = b' ∧ k = k') :
    (scalarLayout p place).Injective (2 * n) rows := by
  intro b hb b' hb' i hi i' hi' same
  have address := Address.atInj.mp same
  obtain ⟨row, element⟩ := distinct b hb b' hb' (i / 2) (by omega) (i' / 2) (by omega) (by omega)
  exact ⟨row, by omega⟩

end Forms

/- A leaf with the outer store, on whole blocks of rows. -/
def StoresOuter (child : ContextChild ℝ) (scratch : Address → Prop) (outputDistance nIn n span : ℕ)
    (row : (ℕ → ℝ) → ℕ → ℝ) : Prop :=
  ∀ src dst blocks, src.buffer ≠ dst.buffer → (∀ i, ¬ scratch (src.at i)) → (∀ i, ¬ scratch (dst.at i)) →
    LayoutRun (child src dst ⟨blocks * span, 0, outputDistance⟩) scratch (src.row nIn)
      (scalarLayout dst (outerForm n span)) (2 * n) (blocks * span) row

/- A leaf with the inner store, on whole blocks of rows. -/
def StoresInner (child : ContextChild ℝ) (scratch : Address → Prop) (n span : ℕ) (reading : Reading)
    (row : (ℕ → ℝ) → ℕ → ℝ) : Prop :=
  ∀ src dst blocks, src.buffer ≠ dst.buffer → (∀ i, ¬ scratch (src.at i)) → (∀ i, ¬ scratch (dst.at i)) →
    LayoutRun (child src dst ⟨blocks * span, 0, 0⟩) scratch (scalarLayout src (reading.form n span))
      (scalarLayout dst (innerForm (blocks * span) span)) (2 * n) (blocks * span) row

section Outer
variable {batch group n span : ℕ} {child scratch : Address → Prop} {src dst : Address}

/- The scalars of the columns of one block. -/
def outerGrouping (n span : ℕ) : Grouping span (2 * n) (2 * (n * span)) where
  place i e := 2 * (e / 2 * span + i) + e % 2
  short o := o / 2 % span
  element o := 2 * (o / 2 / span) + o % 2
  inside i hi e he := by
    have := mulAddLt (show e / 2 < n by omega) hi
    omega
  member o ho := by
    have positive : 0 < span := Nat.pos_of_mul_pos_left (show 0 < n * span by omega)
    have inside : o / 2 / span < n := Nat.div_lt_of_lt_mul (by rw [Nat.mul_comm]; omega)
    have whole : o / 2 / span * span + o / 2 % span = o / 2 := by rw [Nat.mul_comm]; exact Nat.div_add_mod _ _
    have even : (2 * (o / 2 / span) + o % 2) / 2 = o / 2 / span := by omega
    have odd : (2 * (o / 2 / span) + o % 2) % 2 = o % 2 := by omega
    refine ⟨Nat.mod_lt _ positive, by omega, ?_⟩
    rw [even, odd, whole, Nat.div_add_mod]

theorem scalarsInterleaved (x : ℕ → ℝ) : scalars (interleaved x) = x := by
  funext i
  unfold scalars interleaved Real.part
  by_cases even : i % 2 = 0
  · rw [if_pos even, show 2 * (i / 2) = i by omega]
  · rw [if_neg even, show 2 * (i / 2) + 1 = i by omega]

/- The real or the imaginary part. -/
def parts (z : ℂ) (e : ℕ) : ℝ := Real.part (z.re, z.im) e

theorem scalarsSplit (z : ℕ → ℂ) (o : ℕ) {e : ℕ} (he : e < 2) : scalars z (2 * o + e) = parts (z o) e := by
  rw [Nat.mul_comm]
  exact scalarsPart z o he

/- A scalar of a permuted block. -/
theorem liftPermute {order : AxisOrder} {d0 d1 d2 i0 i1 i2 e : ℕ} (x : ℕ → ℝ) (h0 : i0 < d0) (h1 : i1 < d1)
    (h2 : i2 < d2) (he : e < 2) :
    lift (permuteRow order d0 d1 d2) x (2 * order.place d0 d1 d2 i0 i1 i2 + e) = x (2 * cube d1 d2 i0 i1 i2 + e) := by
  unfold lift
  rw [scalarsSplit _ _ he, permuteAt order _ h0 h1 h2, ← scalarsSplit _ _ he, scalarsInterleaved]

/- The outer store is the store of whole rows followed by the permutation of the two inner axes. -/
theorem outerRun {op : Work ℝ} {nIn : ℕ} {row : (ℕ → ℝ) → ℕ → ℝ}
    (ok : LayoutRun op scratch (src.row nIn) (scalarLayout dst (outerForm n span)) (2 * n) (batch * group * span) row) :
    RowRun op scratch src dst (group * span * nIn) (2 * (group * span * n)) batch
      (fun x => lift (permuteRow .a021 group span n) (blockRows nIn (2 * n) row x)) := by
  have place : ∀ b, ∀ i < span, ∀ e, scalarLayout dst (outerForm n span) (b * span + i) e =
      dst.row (2 * (n * span)) b ((outerGrouping n span).place i e) := by
    intro b i hi e
    unfold scalarLayout outerForm
    rw [mulAddDiv hi, mulAddMod hi]
    refine congrArg dst.at ?_
    change _ = b * (2 * (n * span)) + (2 * (e / 2 * span + i) + e % 2)
    ring
  have blocks : RowRun op scratch src dst (span * nIn) (2 * (n * span)) (batch * group) _ :=
    ok.regroup (outerGrouping n span) (fun i j => i * nIn + j) (fun _ _ _ _ => Address.rowGroup) place
  have cubes := blockRowsRun blocks
  have sizeIn : group * (span * nIn) = group * span * nIn := by ring
  have sizeOut : group * (2 * (n * span)) = 2 * (group * span * n) := by ring
  rw [sizeIn, sizeOut] at cubes
  refine cubes.congr fun x i hi => ?_
  obtain ⟨i0, h0, k, hk, i1, h1, same⟩ := cubeOf (show i / 2 < group * n * span by
    have : group * span * n = group * n * span := by ring
    omega)
  have he : i % 2 < 2 := by omega
  have index : i = 2 * cube n span i0 k i1 + i % 2 := by omega
  have inner : 2 * (k * span + i1) + i % 2 < 2 * (n * span) := by
    have := mulAddLt hk h1
    omega
  have split : i = i0 * (2 * (n * span)) + (2 * (k * span + i1) + i % 2) := by
    rw [index]
    unfold cube
    rw [show (2 * ((i0 * n + k) * span + i1) + i % 2) % 2 = i % 2 by omega]
    ring
  have turned : lift (permuteRow .a021 group span n) (blockRows nIn (2 * n) row x) i =
      blockRows nIn (2 * n) row x (2 * cube span n i0 i1 k + i % 2) := by
    rw [index, show (2 * cube n span i0 k i1 + i % 2) % 2 = i % 2 by omega]
    exact liftPermute _ h0 h1 hk he
  have element : 2 * cube span n i0 i1 k + i % 2 = (i0 * span + i1) * (2 * n) + (2 * k + i % 2) := by
    unfold cube
    ring
  rw [turned, element]
  unfold blockRows
  rw [mulAddDiv (show 2 * k + i % 2 < 2 * n by omega), mulAddMod (show 2 * k + i % 2 < 2 * n by omega)]
  have quotient : i / (2 * (n * span)) = i0 := by
    rw [split]
    exact mulAddDiv inner
  have remainder : i % (2 * (n * span)) = 2 * (k * span + i1) + i % 2 := by
    conv_lhs => rw [split]
    exact mulAddMod inner
  rw [quotient, remainder]
  unfold Grouping.row outerGrouping
  have half : (2 * (k * span + i1) + i % 2) / 2 = k * span + i1 := by omega
  have odd : (2 * (k * span + i1) + i % 2) % 2 = i % 2 := by omega
  simp only [half, odd, mulAddDiv h1, mulAddMod h1]
  refine congrArg (row · _) (funext fun j => congrArg x ?_)
  ring

/- The outer store of complex rows. -/
theorem outerStage {fft : ContextChild ℝ} {w : ℂ} {rows : ℕ} (ok : StoresOuter fft child 0 (2 * n) n span (lift (dft n w)))
    (apart : src.buffer ≠ dst.buffer) (source : ∀ i, ¬ child (src.at i)) (target : ∀ i, ¬ child (dst.at i))
    (sub : ∀ a, child a → scratch a) (count : rows = batch * group * span) :
    Stage (fftPass fft rows src dst).work scratch src dst (group * span * n) (group * span * n) batch
      (fun x => permuteRow .a021 group span n (blockRows n n (dft n w) x)) := by
  subst count
  have run := outerRun ((ok src dst (batch * group) apart source target).mono sub)
  have size : group * span * (2 * n) = 2 * (group * span * n) := by ring
  rw [size] at run
  refine ⟨run.congr fun x i _ => ?_, rowLocalComp (blockRowsLocal fun _ _ same _ _ => dftCongr same) permuteLocal⟩
  rw [liftBlockRows, liftTwice]

end Outer

end FlagFft.ThreeDim
