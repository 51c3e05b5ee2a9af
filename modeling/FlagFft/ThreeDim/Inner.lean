import FlagFft.ThreeDim.Real

/-! The middle axis stored in the inner form. For one batch element it leaves what the permutation would;
for several it deals their rows out in turn, and the elements mix. -/
namespace FlagFft.ThreeDim
open Library.Dft Library.RealDft Library.Indexing FlagFft.Real FlagFft.TwoDim

/- Where element `i1` of row (i0, k2) of the middle axis is read. -/
def Reading.place (reading : Reading) (n1 d2 i0 k2 i1 : ℕ) : ℕ :=
  match reading with
  | .contiguous => cube d2 n1 i0 k2 i1
  | .strided => cube n1 d2 i0 i1 k2

/- The middle axis from where it is read; the result lies as (n1, d2, n0). -/
def readRow (reading : Reading) (n0 n1 d2 : ℕ) (w1 : ℂ) (x : ℕ → ℂ) (o : ℕ) : ℂ :=
  dft n1 w1 (fun j1 => x (reading.place n1 d2 (o % n0) (o / n0 % d2) j1)) (o / n0 / d2)

/- The two shapes in which the three-dimensional passes see one launch of the leaf. -/
def innerRows (batch n0 d2 : ℕ) : ℕ := batch * n0 * d2

section Cells
variable {reading : Reading} {batch n0 n1 d2 b i0 i1 k1 k2 e : ℕ} {p : Address}

theorem Reading.placeLt (reading : Reading) (h0 : i0 < n0) (h1 : i1 < n1) (h2 : k2 < d2) : reading.place n1 d2 i0 k2 i1 < n0 * n1 * d2 := by
  cases reading with
  | contiguous => exact (cubeLt h0 h2 h1).trans_eq (by ring)
  | strided => exact cubeLt h0 h1 h2

/- Row (b, i0, k2) is read from batch element `b`. -/
theorem readCell (reading : Reading) (n0 n1 b i0 : ℕ) (p : Address) (h2 : k2 < d2) (he : e < 2) (j : ℕ) :
    scalarLayout p (reading.form n1 d2) ((b * n0 + i0) * d2 + k2) (2 * j + e) =
      p.row (2 * (n0 * n1 * d2)) b (2 * reading.place n1 d2 i0 k2 j + e) := by
  unfold scalarLayout
  rw [show (2 * j + e) / 2 = j by omega, show (2 * j + e) % 2 = e by omega]
  refine congrArg p.at ?_
  cases reading with
  | contiguous =>
    unfold Reading.form Reading.place cube
    ring
  | strided =>
    unfold Reading.form Reading.place outerForm cube
    rw [mulAddDiv h2, mulAddMod h2]
    ring

/- Frequency `k1` of that row is written `batch` rows apart from the one before. -/
theorem storedCell (batch b n0 i0 k1 : ℕ) (p : Address) (h2 : k2 < d2) (he : e < 2) :
    scalarLayout p (innerForm (innerRows batch n0 d2) d2) ((b * n0 + i0) * d2 + k2) (2 * k1 + e) =
      p.at (2 * cube batch n0 (k1 * d2 + k2) b i0 + e) := by
  unfold scalarLayout innerForm innerRows
  rw [show (2 * k1 + e) / 2 = k1 by omega, show (2 * k1 + e) % 2 = e by omega, mulAddDiv h2, mulAddMod h2,
    Nat.mul_div_cancel (batch * n0) (Nat.zero_lt_of_lt h2)]
  refine congrArg p.at ?_
  unfold cube
  ring

/- With one batch element, or rows of one frequency, every cell lies where a permutation puts it. -/
theorem aloneCell (alone : batch ≤ 1 ∨ n1 * d2 = 1) (hb : b < batch) (h1 : k1 < n1) (h2 : k2 < d2) :
    2 * cube batch n0 (k1 * d2 + k2) b i0 + e = b * (2 * (n0 * n1 * d2)) + (2 * cube d2 n0 k1 k2 i0 + e) := by
  unfold cube
  rcases alone with one | points
  · obtain ⟨rfl, rfl⟩ : batch = 1 ∧ b = 0 := by omega
    ring
  · obtain ⟨rfl, rfl⟩ := mul_eq_one.mp points
    obtain ⟨rfl, rfl⟩ : k1 = 0 ∧ k2 = 0 := by omega
    ring

/- A scalar of a lifted row function, from the complex row it reads. -/
theorem liftSplit (f : (ℕ → ℂ) → ℕ → ℂ) {x : ℕ → ℝ} {z : ℕ → ℂ} (same : interleaved x = z) (k : ℕ) (he : e < 2) :
    lift f x (2 * k + e) = parts (f z k) e := by
  unfold lift
  rw [scalarsSplit _ _ he, same]

theorem readRowAt {w1 : ℂ} (x : ℕ → ℂ) (h0 : i0 < n0) (h2 : k2 < d2) :
    readRow reading n0 n1 d2 w1 x (cube d2 n0 k1 k2 i0) = dft n1 w1 (fun j1 => x (reading.place n1 d2 i0 k2 j1)) k1 := by
  unfold readRow
  rw [cubeMod h0, cubeDiv h0, mulAddDiv h2, mulAddMod h2]

theorem readRowLocal {w1 : ℂ} : RowLocal (n0 * n1 * d2) (n0 * n1 * d2) (readRow reading n0 n1 d2 w1) := by
  intro x y same o ho
  obtain ⟨k1, h1, k2, h2, i0, h0, rfl⟩ := cubeOf (ho.trans_eq (show n0 * n1 * d2 = n1 * d2 * n0 by ring))
  rw [readRowAt x h0 h2, readRowAt y h0 h2]
  exact dftCongr fun j1 hj1 => same _ (reading.placeLt h0 hj1 h2)

end Cells

section Alone
variable {reading : Reading} {batch n0 n1 d2 : ℕ} {w1 : ℂ} {op : Work ℝ} {scratch : Address → Prop} {src dst : Address}

/- One launch of the leaf, seen from its rows. -/
abbrev InnerRun (op : Work ℝ) (scratch : Address → Prop) (src dst : Address) (batch n0 n1 d2 : ℕ) (reading : Reading)
    (w1 : ℂ) : Prop :=
  LayoutRun op scratch (scalarLayout src (reading.form n1 d2)) (scalarLayout dst (innerForm (innerRows batch n0 d2) d2))
    (2 * n1) (innerRows batch n0 d2) (lift (dft n1 w1))

/- What the launch writes for frequency `k1` of row (b, i0, k2). -/
theorem innerWrites {run : Memory ℝ → Memory ℝ} {b i0 k1 k2 e : ℕ}
    (ok : LayoutMap run scratch (scalarLayout src (reading.form n1 d2))
      (scalarLayout dst (innerForm (innerRows batch n0 d2) d2)) (2 * n1) (innerRows batch n0 d2) (lift (dft n1 w1)))
    (m : Memory ℝ) (hb : b < batch) (h0 : i0 < n0) (h1 : k1 < n1) (h2 : k2 < d2) (he : e < 2) :
    run m (dst.at (2 * cube batch n0 (k1 * d2 + k2) b i0 + e)) =
      parts (dft n1 w1 (fun j1 => interleaved (fun j => m (src.row (2 * (n0 * n1 * d2)) b j))
        (reading.place n1 d2 i0 k2 j1)) k1) e := by
  rw [← storedCell batch b n0 i0 k1 dst h2 he, ok.writes m _ (mulAddLt (mulAddLt hb h0) h2) _ (show 2 * k1 + e < 2 * n1 by omega)]
  refine liftSplit _ (funext fun j1 => ?_) k1 he
  have even := readCell reading n0 n1 b i0 src h2 Nat.zero_lt_two j1
  have odd := readCell reading n0 n1 b i0 src h2 Nat.one_lt_two j1
  exact Complex.ext (congrArg m even) (congrArg m odd)

theorem innerStage (ok : InnerRun op scratch src dst batch n0 n1 d2 reading w1) (alone : batch ≤ 1 ∨ n1 * d2 = 1) :
    Stage op scratch src dst (n0 * n1 * d2) (n0 * n1 * d2) batch (readRow reading n0 n1 d2 w1) := by
  obtain ⟨run, returns, map⟩ := ok
  refine ⟨⟨run, returns, ⟨fun m b hb i hi => ?_, fun m a kept outside => map.frame m a kept fun r hr k hk same => ?_⟩⟩,
    readRowLocal⟩
  · obtain ⟨k1, h1, k2, h2, i0, h0, place⟩ := cubeOf (show i / 2 < n1 * d2 * n0 by
      have : n0 * n1 * d2 = n1 * d2 * n0 := by ring
      omega)
    have index : i = 2 * cube d2 n0 k1 k2 i0 + i % 2 := by omega
    have he : i % 2 < 2 := by omega
    have cell : dst.row (2 * (n0 * n1 * d2)) b i = dst.at (2 * cube batch n0 (k1 * d2 + k2) b i0 + i % 2) := by
      rw [aloneCell alone hb h1 h2, ← index]
      rfl
    rw [cell, innerWrites map m hb h0 h1 h2 he]
    have value := liftSplit (readRow reading n0 n1 d2 w1) (x := fun j => m (src.row (2 * (n0 * n1 * d2)) b j)) rfl
      (cube d2 n0 k1 k2 i0) he
    rw [readRowAt _ h0 h2, ← index] at value
    exact value.symm
  · obtain ⟨b, hb, i0, h0, k2, h2, rfl⟩ := cubeOf hr
    have h1 : k / 2 < n1 := by omega
    have cell := storedCell batch b n0 i0 (k / 2) dst h2 (show k % 2 < 2 by omega)
    rw [Nat.div_add_mod] at cell
    refine outside b hb (2 * cube d2 n0 (k / 2) k2 i0 + k % 2) ?_ (same.trans (cell.trans ?_))
    · have := cubeLt h1 h2 h0
      have : n1 * d2 * n0 = n0 * n1 * d2 := by ring
      omega
    · rw [aloneCell alone hb h1 h2]
      rfl

end Alone

section Mixed
variable {reading : Reading} {batch n0 n1 d2 nIn nOut : ℕ} {w1 : ℂ}

/- A row that the outer and middle axes read as a pulse. -/
def Pulses (row : (ℕ → ℝ) → ℕ → ℝ) (reading : Reading) (n0 n1 d2 : ℕ) (x u : ℕ → ℝ) : Prop :=
  ∀ i0 < n0, ∀ i1 < n1, ∀ k2 < d2,
    interleaved (row x) (reading.place n1 d2 i0 k2 i1) = if i0 = 0 then if i1 = 0 then (u k2 : ℂ) else 0 else 0

/- What comes after the outer axis shows any pulse that should not be there. -/
def Detects (row : (ℕ → ℝ) → ℕ → ℝ) (n0 points nOut : ℕ) : Prop :=
  ∀ y v : ℕ → ℝ, (∀ r < points, ∀ j0 < n0, interleaved y (r * n0 + j0) = if j0 = 0 then (v r : ℂ) else 0) →
    (∀ r, 0 ≤ v r) → (∃ r < points, v r ≠ 0) → ∃ o < nOut, row y o ≠ 0

/- Batch element 1 holds a row and everything else is zero. -/
def secondElement (src : Address) (nIn : ℕ) (x : ℕ → ℝ) : Memory ℝ := fun a =>
  if a.buffer = src.buffer ∧ src.offset + nIn ≤ a.offset ∧ a.offset < src.offset + 2 * nIn then
    x (a.offset - (src.offset + nIn))
  else 0

theorem secondElementAt {src : Address} {x : ℕ → ℝ} {b j : ℕ} (hj : j < nIn) :
    secondElement src nIn x (src.row nIn b j) = if b = 1 then x j else 0 := by
  simp only [secondElement, Address.row, Address.at]
  by_cases second : b = 1
  · subst second
    rw [if_pos ⟨trivial, by omega, by omega⟩, if_pos rfl]
    exact congrArg x (by omega)
  · rw [if_neg second]
    refine if_neg fun inside => ?_
    obtain ⟨_, low, high⟩ := inside
    have cases : b = 0 ∨ 2 ≤ b := by omega
    rcases cases with rfl | several
    · omega
    · have := Nat.mul_le_mul_right nIn several
      omega

/- Between a pass that makes a pulse and one that shows it, the inner form mixes two batch elements. -/
theorem mixes {head inner tail : Work ℝ} {scratch child wider whole : Address → Prop} {src A B dst : Address}
    {hrow trow spec : (ℕ → ℝ) → ℕ → ℝ} {x u : ℕ → ℝ}
    (first : RowRun head scratch src A nIn (2 * (n0 * n1 * d2)) batch hrow)
    (leaf : InnerRun inner child A B batch n0 n1 d2 reading w1)
    (last : RowRun tail wider B dst (2 * (n0 * n1 * d2)) nOut batch trow)
    (claimed : RowRun (fun m => (head m >>= inner) >>= tail) whole src dst nIn nOut batch spec)
    (headLocal : RowLocal nIn (2 * (n0 * n1 * d2)) hrow) (specLocal : RowLocal nIn nOut spec)
    (quiet : ∀ k < 2 * (n0 * n1 * d2), hrow (fun _ => 0) k = 0) (silent : ∀ k < nOut, spec (fun _ => 0) k = 0)
    (pulse : Pulses hrow reading n0 n1 d2 x u) (positive : ∀ k2, 0 ≤ u k2) (seen : u 0 ≠ 0)
    (detects : Detects trow n0 (n1 * d2) nOut) (several : 1 < batch) (points : 1 < n1 * d2) : False := by
  obtain ⟨run1, returns1, map1⟩ := first
  obtain ⟨run2, returns2, map2⟩ := leaf
  obtain ⟨run3, returns3, map3⟩ := last
  obtain ⟨runAll, returnsAll, mapAll⟩ := claimed
  let m := secondElement src nIn x
  let y : ℕ → ℝ := fun j => run2 (run1 m) (B.row (2 * (n0 * n1 * d2)) 0 j)
  have same : runAll m = run3 (run2 (run1 m)) := by
    have composed : Except.ok (runAll m) = (head m >>= inner) >>= tail := (returnsAll m).symm
    rw [returns1] at composed
    change Except.ok (runAll m) = inner (run1 m) >>= tail at composed
    rw [returns2] at composed
    exact Except.ok.inj (composed.trans (returns3 _))
  have input : ∀ b, ∀ k < 2 * (n0 * n1 * d2), hrow (fun j => m (src.row nIn b j)) k = if b = 1 then hrow x k else 0 := by
    intro b k hk
    by_cases second : b = 1
    · rw [if_pos second]
      exact headLocal _ _ (fun j hj => (secondElementAt hj).trans (if_pos second)) k hk
    · rw [if_neg second, ← quiet k hk]
      exact headLocal _ _ (fun j hj => (secondElementAt hj).trans (if_neg second)) k hk
  have between : ∀ b < batch, ∀ i0 < n0, ∀ i1 < n1, ∀ k2 < d2,
      interleaved (fun j => run1 m (A.row (2 * (n0 * n1 * d2)) b j)) (reading.place n1 d2 i0 k2 i1) =
        if i1 = 0 then if i0 = 0 then ((if b = 1 then u k2 else 0 : ℝ) : ℂ) else 0 else 0 := by
    intro b hb i0 h0 i1 h1 k2 h2
    have place := reading.placeLt h0 h1 h2
    have even := (map1.writes m b hb (2 * reading.place n1 d2 i0 k2 i1) (by omega)).trans (input b _ (by omega))
    have odd := (map1.writes m b hb (2 * reading.place n1 d2 i0 k2 i1 + 1) (by omega)).trans (input b _ (by omega))
    have whole : interleaved (fun j => run1 m (A.row (2 * (n0 * n1 * d2)) b j)) (reading.place n1 d2 i0 k2 i1) =
        if b = 1 then interleaved (hrow x) (reading.place n1 d2 i0 k2 i1) else 0 := by
      by_cases second : b = 1
      · rw [if_pos second] at even odd
        rw [if_pos second]
        exact Complex.ext even odd
      · rw [if_neg second] at even odd
        rw [if_neg second]
        exact Complex.ext even odd
    rw [whole, pulse i0 h0 i1 h1 k2 h2]
    by_cases second : b = 1
    · simp only [if_pos second]
      by_cases middle : i1 = 0 <;> by_cases outer : i0 = 0 <;> simp [middle, outer]
    · simp [second]
  have spread : ∀ r < n1 * d2, ∀ j0 < n0, interleaved y (r * n0 + j0) =
      if j0 = 0 then ((if r % batch = 1 then u (r / batch % d2) else 0 : ℝ) : ℂ) else 0 := by
    intro r hr j0 h0
    have inside : r / batch < n1 * d2 := (Nat.div_le_self r batch).trans_lt hr
    have h2 : 0 < d2 := Nat.pos_of_mul_pos_left (Nat.zero_lt_of_lt hr)
    have h1 : r / batch / d2 < n1 := Nat.div_lt_of_lt_mul (by rwa [Nat.mul_comm] at inside)
    have hk2 := Nat.mod_lt (r / batch) h2
    have hb := Nat.mod_lt r (Nat.zero_lt_of_lt several)
    have address : cube batch n0 (r / batch / d2 * d2 + r / batch % d2) (r % batch) j0 = r * n0 + j0 := by
      unfold cube
      rw [Nat.mul_comm (r / batch / d2), Nat.div_add_mod, Nat.mul_comm (r / batch), Nat.div_add_mod]
    have value : dft n1 w1 (fun j1 => interleaved (fun j => run1 m (A.row (2 * (n0 * n1 * d2)) (r % batch) j))
        (reading.place n1 d2 j0 (r / batch % d2) j1)) (r / batch / d2) =
        if j0 = 0 then ((if r % batch = 1 then u (r / batch % d2) else 0 : ℝ) : ℂ) else 0 :=
      (dftCongr fun j1 hj1 => between _ hb j0 h0 j1 hj1 _ hk2).trans (dftPulse (Nat.zero_lt_of_lt h1))
    have written : ∀ e < 2, y (2 * (r * n0 + j0) + e) =
        parts (if j0 = 0 then ((if r % batch = 1 then u (r / batch % d2) else 0 : ℝ) : ℂ) else 0) e := fun e he => by
      have cell := innerWrites map2 (run1 m) hb h0 h1 hk2 he
      have offset : B.row (2 * (n0 * n1 * d2)) 0 (2 * (r * n0 + j0) + e) = B.at (2 * (r * n0 + j0) + e) := by
        unfold Address.row
        rw [Nat.zero_mul, Nat.zero_add]
      rw [address, value] at cell
      exact (congrArg (run2 (run1 m)) offset).trans cell
    exact Complex.ext (written 0 Nat.zero_lt_two) (written 1 Nat.one_lt_two)
  obtain ⟨o, ho, shown⟩ := detects y _ spread (fun r => by split <;> simp [positive]) ⟨1, points, by
    rw [Nat.mod_eq_of_lt several, if_pos rfl, Nat.div_eq_of_lt several]
    simpa using seen⟩
  have correct := mapAll.writes m 0 (Nat.zero_lt_of_lt several) o ho
  rw [same, map3.writes _ 0 (Nat.zero_lt_of_lt several) o ho] at correct
  refine shown (correct.trans ((specLocal _ _ (fun j hj => ?_) o ho).trans (silent o ho)))
  exact (secondElementAt hj).trans (if_neg Nat.zero_ne_one)

end Mixed

section Detected
variable {n0 n1 n2 d2 : ℕ} {w0 c : ℂ}

/- One row of the outer axis over pulses. -/
theorem outerPulse {y v : ℕ → ℝ} {points k1 k2 : ℕ} (positive : 0 < n0) (size : points = n1 * d2)
    (spread : ∀ r < points, ∀ j0 < n0, interleaved y (r * n0 + j0) = if j0 = 0 then (v r : ℂ) else 0) (h1 : k1 < n1)
    (h2 : k2 < d2) : outerRow n0 n1 d2 w0 (interleaved y) (cube n1 d2 0 k1 k2) = (v (k1 * d2 + k2) : ℂ) := by
  subst size
  rw [outerAt _ h1 h2]
  exact (dftCongr fun j0 h0 => spread (k1 * d2 + k2) (mulAddLt h1 h2) j0 h0).trans (dftPulse positive)

theorem outerDetects (positive : 0 < n0) : Detects (lift (outerRow n0 n1 d2 w0)) n0 (n1 * d2) (2 * (n0 * n1 * d2)) := by
  intro y v spread _ found
  obtain ⟨r, hr, shown⟩ := found
  obtain ⟨k1, h1, k2, h2, place⟩ : ∃ k1 < n1, ∃ k2 < d2, r = k1 * d2 + k2 := by
    have h2 : 0 < d2 := Nat.pos_of_mul_pos_left (Nat.zero_lt_of_lt hr)
    refine ⟨r / d2, Nat.div_lt_of_lt_mul (by rwa [Nat.mul_comm] at hr), r % d2, Nat.mod_lt _ h2, ?_⟩
    rw [Nat.mul_comm, Nat.div_add_mod]
  refine ⟨2 * cube n1 d2 0 k1 k2 + 0, ?_, ?_⟩
  · have := cubeLt positive h1 h2
    omega
  · rw [liftSplit (outerRow n0 n1 d2 w0) rfl _ Nat.zero_lt_two, outerPulse positive rfl spread h1 h2, ← place]
    exact shown

/- The real inverse adds the bins of a row up, each with what mirrors it. -/
theorem c2rDetects (positive : 0 < n0) (length : 0 < n2) (middle : n2 % 2 = 0 → c ^ (n2 / 2) = -1) :
    Detects (fun y => blockRows (2 * (n2 / 2 + 1)) n2 (c2rRow n2 c) (lift (outerRow n0 n1 (n2 / 2 + 1) w0) y)) n0
      (n1 * (n2 / 2 + 1)) (n0 * n1 * n2) := by
  intro y v spread nonneg found
  obtain ⟨r, hr, shown⟩ := found
  obtain ⟨k1, h1, k2, h2, place⟩ : ∃ k1 < n1, ∃ k2 < n2 / 2 + 1, r = k1 * (n2 / 2 + 1) + k2 := by
    refine ⟨r / (n2 / 2 + 1), Nat.div_lt_of_lt_mul (by rwa [Nat.mul_comm] at hr), r % (n2 / 2 + 1),
      Nat.mod_lt _ (Nat.succ_pos _), ?_⟩
    rw [Nat.mul_comm, Nat.div_add_mod]
  refine ⟨cube n1 n2 0 k1 0, cubeLt positive h1 length, ?_⟩
  let bins : ℕ → ℂ := fun j => outerRow n0 n1 (n2 / 2 + 1) w0 (interleaved y) (k1 * (n2 / 2 + 1) + j)
  have bin : ∀ j < n2 / 2 + 1, bins j = (v (k1 * (n2 / 2 + 1) + j) : ℂ) := by
    intro j hj
    have pulse : outerRow n0 n1 (n2 / 2 + 1) w0 (interleaved y) _ = _ := outerPulse positive rfl spread h1 hj
    unfold cube at pulse
    rw [Nat.zero_mul, Nat.zero_add] at pulse
    exact pulse
  have row : blockRows (2 * (n2 / 2 + 1)) n2 (c2rRow n2 c) (lift (outerRow n0 n1 (n2 / 2 + 1) w0) y) (cube n1 n2 0 k1 0) =
      ∑ j ∈ Finset.range n2, (mirrored n2 bins j).re := by
    unfold blockRows c2rRow
    rw [cubeMod length, cubeDiv length, Nat.zero_mul, Nat.zero_add, interleavedShift, hermitianFullRe middle]
    unfold lift
    rw [interleavedScalars]
    unfold dft
    rw [Complex.re_sum]
    refine Finset.sum_congr rfl fun j _ => ?_
    rw [Nat.mul_zero, pow_zero, mul_one]
  have term : ∀ j < n2, (mirrored n2 bins j).re = v (k1 * (n2 / 2 + 1) + if j < n2 / 2 + 1 then j else n2 - j) := by
    intro j hj
    unfold mirrored
    by_cases low : j < n2 / 2 + 1
    · rw [if_pos low, if_pos low, bin j low, Complex.ofReal_re]
    · rw [if_neg low, if_neg low, bin (n2 - j) (by omega), Complex.conj_re, Complex.ofReal_re]
  have total : 0 < ∑ j ∈ Finset.range n2, (mirrored n2 bins j).re := by
    refine Finset.sum_pos' (fun j hj => ?_) ⟨k2, Finset.mem_range.mpr (by omega), ?_⟩
    · rw [term j (Finset.mem_range.mp hj)]
      exact nonneg _
    · rw [term k2 (by omega), if_pos h2, ← place]
      exact lt_of_le_of_ne (nonneg r) (Ne.symm shown)
  exact fun absent => total.ne' (row.symm.trans absent)

end Detected

end FlagFft.ThreeDim
