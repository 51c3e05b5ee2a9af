import FlagFft.Real.Kernels
import FlagFft.Library.RealDft

/-! Real transforms of even length through a half-length complex transform, against the full-length
path they fall back to. Rows of scalars are read as rows of complex elements. -/
namespace FlagFft.Real
open Library.Dft Library.RealDft Library.Indexing Library.Stores
open Complex (I)
open scoped ComplexConjugate

/- Unset distances are zero. -/
structure BatchContext where
  batch : ℕ
  inputDistance : ℕ
  outputDistance : ℕ
  deriving DecidableEq, Repr

section Nodes
variable {S : Type*} [Field S]

def chunkSpan (gridX rowsPerBlock blockLimit : ℕ) : ℕ :=
  max 1 (min 65535 (blockLimit / max 1 gridX)) * max 1 rowsPerBlock

/- launch_grid_y_chunks: the rows of one kernel over launches that fit the grid. -/
def TileKernel.launchChunks (kernel : TileKernel S) (inPtr outPtr : Address) (rows blockLimit : ℕ)
    (schedule : Schedule) : Memory S → Memory S :=
  chunkLoop (fun offset count => kernel.launch (inPtr.at (offset * kernel.inStride))
    (outPtr.at (offset * kernel.outStride)) count schedule) rows (chunkSpan kernel.gridX kernel.rowsPerBlock blockLimit)

/- The complex-to-real node of full length; elements is the tile width its kernels are generated for. -/
structure C2RNode (S : Type*) where
  length : ℕ
  elements : ℕ
  fft : Child S
  fullInput : Address
  fullOutput : Address
  wide : 256 ≤ elements

namespace C2RNode
variable (node : C2RNode S) (context : BatchContext) (input output : Address)

def inputDistance : ℕ := if 0 < context.inputDistance then context.inputDistance else node.length / 2 + 1

def outputDistance : ℕ :=
  if input = output then max context.outputDistance (2 * (node.length / 2 + 1))
  else if 0 < context.outputDistance then context.outputDistance else node.length

def execute (blockLimit : ℕ) (schedule : Schedule) (m : Memory S) : Except Failure (Memory S) :=
  let expand := (compactToHermitianFull node.length node.elements (node.inputDistance context)).launchChunks
    input node.fullInput context.batch blockLimit schedule
  let pack := (complexToReal node.length node.elements (node.outputDistance context input output)).launchChunks
    node.fullOutput output context.batch blockLimit schedule
  node.fft node.fullInput node.fullOutput context.batch (expand m) >>= fun m => .ok (pack m)

end C2RNode

structure PackedC2RNode (S : Type*) where
  length : ℕ
  twiddle : ℕ → S × S
  fft : Child S
  packedInput : Address
  layoutFallback : C2RNode S

namespace PackedC2RNode
variable (node : PackedC2RNode S) (context : BatchContext) (input output : Address)

def inputDistance : ℕ := if 0 < context.inputDistance then context.inputDistance else node.length / 2 + 1

/- Reinterpreting complex pairs as real rows needs dense output rows. -/
def fallsBack : Prop :=
  1 < context.batch ∧ (input = output ∨ 0 < context.outputDistance ∧ context.outputDistance ≠ node.length)

instance : Decidable (node.fallsBack context input output) :=
  inferInstanceAs (Decidable (_ ∧ (_ ∨ _ ∧ _)))

def execute (blockLimit : ℕ) (schedule : Schedule) (m : Memory S) : Except Failure (Memory S) :=
  if node.fallsBack context input output then node.layoutFallback.execute context input output blockLimit schedule m
  else
    let preprocess := (c2rPackedPreprocess node.length node.twiddle (node.inputDistance context)).launch
      input node.packedInput context.batch schedule
    node.fft node.packedInput output context.batch (preprocess m)

end PackedC2RNode

structure PackedR2CNode (S : Type*) where
  length : ℕ
  twiddle : ℕ → S × S
  fft : Child S
  packedOutput : Address
  layoutFallback : BatchContext → Address → Address → Memory S → Except Failure (Memory S)

namespace PackedR2CNode
variable (node : PackedR2CNode S) (context : BatchContext) (input output : Address)

def outputDistance : ℕ := if 0 < context.outputDistance then context.outputDistance else node.length / 2 + 1

def fallsBack : Prop :=
  1 < context.batch ∧ (input = output ∨ 0 < context.inputDistance ∧ context.inputDistance ≠ node.length)

instance : Decidable (node.fallsBack context input output) :=
  inferInstanceAs (Decidable (_ ∧ (_ ∨ _ ∧ _)))

def execute (schedule : Schedule) (m : Memory S) : Except Failure (Memory S) :=
  if node.fallsBack context input output then node.layoutFallback context input output m
  else node.fft input node.packedOutput context.batch m >>= fun m =>
    .ok ((r2cPackedPostprocess node.length node.twiddle (node.outputDistance context)).launch
      node.packedOutput output context.batch schedule m)

end PackedR2CNode
end Nodes

section Table

/- exp(-2 pi i / n) -/
noncomputable def forwardRoot (n : ℕ) : ℂ := Complex.exp ((-(2 : ℕ) * Real.pi / n : ℝ) * I)

noncomputable def buildRawPackedRealTwiddle (n k : ℕ) : ℝ × ℝ :=
  if k < n / 2 + 1 then (Real.cos (-(2 : ℕ) * Real.pi * k / n), Real.sin (-(2 : ℕ) * Real.pi * k / n)) else (0, 0)

theorem forwardRootPow (n k : ℕ) : forwardRoot n ^ k = Complex.exp ((-(2 : ℕ) * Real.pi * k / n : ℝ) * I) := by
  unfold forwardRoot
  rw [← Complex.exp_nat_mul]
  congr 1
  push_cast
  ring

theorem buildRawPackedRealTwiddleAt {n k : ℕ} (hk : k < n / 2 + 1) :
    buildRawPackedRealTwiddle n k = ((forwardRoot n ^ k).re, (forwardRoot n ^ k).im) := by
  unfold buildRawPackedRealTwiddle
  rw [if_pos hk, forwardRootPow, Complex.exp_ofReal_mul_I_re, Complex.exp_ofReal_mul_I_im]

theorem forwardRootUnit {n : ℕ} (positive : 0 < n) : UnitRoot n (forwardRoot n) where
  root := by
    have cast : (n : ℂ) ≠ 0 := Nat.cast_ne_zero.mpr positive.ne'
    rw [forwardRootPow, show ((-(2 : ℕ) * Real.pi * n / n : ℝ) : ℂ) * I = ((-1 : ℤ) : ℂ) * (2 * Real.pi * I) by
      push_cast
      field_simp]
    exact Complex.exp_int_mul_two_pi_mul_I (-1)
  unit := by
    rw [Complex.mul_conj, Complex.normSq_eq_norm_sq, forwardRoot, Complex.norm_exp_ofReal_mul_I]
    norm_num

theorem forwardRootMiddle {P : ℕ} (positive : 0 < P) : forwardRoot (2 * P) ^ P = -1 := by
  have cast : (P : ℂ) ≠ 0 := Nat.cast_ne_zero.mpr positive.ne'
  rw [forwardRootPow, show ((-(2 : ℕ) * Real.pi * P / (2 * P : ℕ) : ℝ) : ℂ) * I = -(Real.pi * I) by
    push_cast
    field_simp]
  rw [Complex.exp_neg, Complex.exp_pi_mul_I]
  norm_num

theorem UnitRoot.conj {n : ℕ} {w : ℂ} (ok : UnitRoot n w) : UnitRoot n (conj w) where
  root := by rw [← map_pow, ok.root, map_one]
  unit := by rw [Complex.conj_conj, mul_comm, ok.unit]

end Table

section Rows

/- Complex elements back to scalars. -/
def scalars (z : ℕ → ℂ) (i : ℕ) : ℝ := part ((z (i / 2)).re, (z (i / 2)).im) (i % 2)

/- A function of complex rows on rows of scalars. -/
def lift (f : (ℕ → ℂ) → ℕ → ℂ) (x : ℕ → ℝ) : ℕ → ℝ := scalars (f (interleaved x))

theorem interleavedScalars (z : ℕ → ℂ) : interleaved (scalars z) = z := by
  funext k
  have even : (2 * k) % 2 = 0 := by omega
  have odd : (2 * k + 1) % 2 = 1 := by omega
  have half : (2 * k + 1) / 2 = k := by omega
  apply Complex.ext <;> simp [interleaved, scalars, part, odd, half]

theorem scalarsPart (z : ℕ → ℂ) (k : ℕ) {index : ℕ} (h : index < 2) :
    scalars z (k * 2 + index) = part ((z k).re, (z k).im) index := by
  unfold scalars
  rw [mulAddDiv h, mulAddMod h]

/- Locality of a complex row function is locality of its lift. -/
theorem liftLocal {N K : ℕ} {f : (ℕ → ℂ) → ℕ → ℂ} (rowLocal : ∀ y z : ℕ → ℂ, (∀ j < N, y j = z j) → ∀ k < K, f y k = f z k) :
    RowLocal (2 * N) (2 * K) (lift f) := by
  intro x y same i hi
  have pairs : ∀ j < N, interleaved x j = interleaved y j := by
    intro j hj
    unfold interleaved
    rw [same _ (by omega), same _ (by omega)]
  unfold lift scalars
  rw [rowLocal _ _ pairs _ (by omega)]

noncomputable def postprocess (P : ℕ) (w : ℂ) (z : ℕ → ℂ) (k : ℕ) : ℂ :=
  let a := z (k % P)
  let b := conj (z ((P - k) % P))
  1 / (2 : ℕ) * (a + b - I * ((a - b) * w ^ k))

theorem postprocessComputes {n d : ℕ} (fits : n / 2 + 1 ≤ d) :
    (r2cPackedPostprocess n (buildRawPackedRealTwiddle n) d).Computes (2 * (n / 2 + 1))
      (lift (postprocess (n / 2) (forwardRoot n))) where
  wide := le_rfl
  total := Nat.mul_comm _ _
  fits := Nat.mul_le_mul_left 2 fits
  value x k hk index h := by
    unfold lift r2cPackedPostprocess
    rw [scalarsPart _ _ h]
    simp only [buildRawPackedRealTwiddleAt hk]
    congr 1
    refine Prod.ext ?_ ?_
    · simp [postprocess, interleaved, pair]
      ring
    · simp [postprocess, interleaved, pair]

theorem preprocessComputes {n d : ℕ} :
    (c2rPackedPreprocess n (buildRawPackedRealTwiddle n) d).Computes (2 * (n / 2))
      (lift (packedSpectrum (n / 2) (conj (forwardRoot n)))) where
  wide := le_rfl
  total := Nat.mul_comm _ _
  fits := le_rfl
  value x k hk index h := by
    have inside : k < n / 2 + 1 := Nat.lt_succ_of_lt hk
    unfold lift c2rPackedPreprocess
    rw [scalarsPart _ _ h]
    simp only [buildRawPackedRealTwiddleAt inside]
    congr 1
    refine Prod.ext ?_ ?_
    · simp [packedSpectrum, interleaved, pair, ← map_pow]
      ring
    · simp [packedSpectrum, interleaved, pair, ← map_pow]

theorem hermitianComputes {n elements d : ℕ} (wide : 256 ≤ elements) :
    (compactToHermitianFull n elements d).Computes (2 * n) (lift (hermitianFull n)) where
  wide := wide
  total := Nat.mul_comm _ _
  fits := le_rfl
  value x k _ _ h := (scalarsPart (hermitianFull n (interleaved x)) k h).symm

/- The real parts of a row of complex elements. -/
def realParts (x : ℕ → ℝ) (t : ℕ) : ℝ := (interleaved x t).re

theorem complexToRealComputes {n elements d : ℕ} (wide : 256 ≤ elements) (fits : n ≤ d) :
    (complexToReal n elements d).Computes n realParts where
  wide := wide
  total := Nat.mul_one n
  fits := fits
  value x k _ index h := by
    rw [Nat.lt_one_iff.mp h]
    simp only [complexToReal, realParts, interleaved, pair, Nat.mul_one, Nat.add_zero]

end Rows

section Chunks
variable {S : Type*} {kernel : TileKernel S} (inPtr outPtr : Address)

theorem TileKernel.Computes.launchChunksMap {nIn nOut : ℕ} {row : (ℕ → S) → ℕ → S} (ok : kernel.Computes nOut row)
    (rowLocal : RowLocal nIn nOut row) (apart : inPtr.buffer ≠ outPtr.buffer) (rows blockLimit : ℕ)
    (schedule : Schedule) (scratch : Address → Prop) :
    LayoutMap (kernel.launchChunks inPtr outPtr rows blockLimit schedule) scratch (inPtr.row kernel.inStride)
      (outPtr.row kernel.outStride) nOut rows row := by
  have span : 0 < chunkSpan kernel.gridX kernel.rowsPerBlock blockLimit :=
    Nat.mul_pos (Nat.lt_of_lt_of_le Nat.one_pos (le_max_left _ _)) (Nat.lt_of_lt_of_le Nat.one_pos (le_max_left _ _))
  have chunks : LayoutMap (kernel.launchChunks inPtr outPtr rows blockLimit schedule) (fun _ => False)
      (inPtr.row kernel.inStride) (outPtr.row kernel.outStride) nOut rows row := by
    refine chunkedMap (fun _ => span) rowLocal (Address.strideInjective ok.fits)
      (fun b _ b' _ _ j _ k _ => Address.atApart apart _ _) (fun _ _ _ _ => not_false) (fun _ _ _ _ => not_false) ?_
    intro offset count _
    rw [← Address.rowFrom, ← Address.rowFrom]
    exact ok.launchMap (inPtr.at (offset * kernel.inStride)) (outPtr.at (offset * kernel.outStride)) apart count
      schedule (fun _ => False)
  exact chunks.mono fun _ absurd => absurd.elim

end Chunks

section Full

/- Real part of the inverse transform of the expanded spectrum. -/
noncomputable def c2rRow (n : ℕ) (c : ℂ) (x : ℕ → ℝ) (t : ℕ) : ℝ := (dft n c (hermitianFull n (interleaved x)) t).re

def C2RNode.scratch (node : C2RNode ℝ) (child : Address → Prop) (a : Address) : Prop :=
  a.buffer = node.fullInput.buffer ∨ a.buffer = node.fullOutput.buffer ∨ child a

structure C2RNode.Ok (node : C2RNode ℝ) (child : Address → Prop) (input output : Address) : Prop where
  computes : node.fft.Computes child (2 * node.length) (lift (dft node.length (conj (forwardRoot node.length))))
  buffers : Compatible node.fullInput node.fullOutput
  fullInput : ∀ i, ¬ child (node.fullInput.at i)
  fullOutput : ∀ i, ¬ child (node.fullOutput.at i)
  input : ∀ i, ¬ node.scratch child (input.at i)
  output : ∀ i, ¬ node.scratch child (output.at i)

theorem hermitianLocal {n : ℕ} : RowLocal (2 * (n / 2 + 1)) (2 * n) (lift (hermitianFull n)) := by
  refine liftLocal fun y z same k hk => ?_
  have source : (if k < n / 2 + 1 then k else n - k) < n / 2 + 1 := by split <;> omega
  unfold hermitianFull
  simp only [same _ source]

theorem dftLocal {n : ℕ} {c : ℂ} : RowLocal (2 * n) (2 * n) (lift (dft n c)) :=
  liftLocal fun _ _ same _ _ => dftCongr same

theorem realPartsLocal {n : ℕ} : RowLocal (2 * n) n realParts := fun _ _ same k hk => same (2 * k) (by omega)

variable {node : C2RNode ℝ} {child : Address → Prop} {context : BatchContext} {input output : Address}

theorem C2RNode.executeRun (ok : node.Ok child input output)
    (fits : context.outputDistance = 0 ∨ node.length ≤ context.outputDistance) (blockLimit : ℕ) (schedule : Schedule) :
    LayoutRun (node.execute context input output blockLimit schedule) (node.scratch child)
      (input.row (2 * node.inputDistance context)) (output.row (node.outputDistance context input output))
      node.length context.batch (c2rRow node.length (conj (forwardRoot node.length))) := by
  have inputApart : input.buffer ≠ node.fullInput.buffer := fun same => ok.input 0 (.inl same)
  have outputApart : node.fullOutput.buffer ≠ output.buffer := fun same => ok.output 0 (.inr (.inl same.symm))
  have distance : node.length ≤ node.outputDistance context input output := by
    unfold C2RNode.outputDistance
    split <;> [skip; split] <;> omega
  have expand := (hermitianComputes (n := node.length) (d := node.inputDistance context) node.wide).launchChunksMap
    input node.fullInput hermitianLocal inputApart context.batch blockLimit schedule (node.scratch child)
  have fft := (ok.computes node.fullInput node.fullOutput context.batch ok.buffers ok.fullInput ok.fullOutput).mono
    (fun _ inner => (.inr (.inr inner) : node.scratch child _))
  have pack := (complexToRealComputes node.wide distance).launchChunksMap node.fullOutput output realPartsLocal
    outputApart context.batch blockLimit schedule (node.scratch child)
  have all := (expand.run.comp fft dftLocal fun _ _ _ _ => .inl rfl).comp pack.run realPartsLocal
    fun _ _ _ _ => .inr (.inl rfl)
  refine all.congr fun x t _ => ?_
  unfold realParts lift c2rRow
  rw [interleavedScalars, interleavedScalars]

end Full

section Packed

/- Interleaved result of the half-length inverse transform of the packed spectrum. -/
def packedRow (P : ℕ) (c : ℂ) (x : ℕ → ℝ) : ℕ → ℝ := scalars (dft P (c ^ 2) (packedSpectrum P c (interleaved x)))

def PackedC2RNode.scratch (node : PackedC2RNode ℝ) (child : Address → Prop) (a : Address) : Prop :=
  a.buffer = node.packedInput.buffer ∨ child a

structure PackedC2RNode.Ok (node : PackedC2RNode ℝ) (child : Address → Prop) (input output : Address) : Prop where
  twiddle : node.twiddle = buildRawPackedRealTwiddle node.length
  computes : node.fft.Computes child (2 * (node.length / 2))
    (lift (dft (node.length / 2) (conj (forwardRoot node.length) ^ 2)))
  fallbackLength : node.layoutFallback.length = node.length
  packedInput : ∀ i, ¬ child (node.packedInput.at i)
  input : ∀ i, ¬ node.scratch child (input.at i)
  output : ∀ i, ¬ node.scratch child (output.at i)

theorem packedSpectrumLocal {P : ℕ} {c : ℂ} : RowLocal (2 * (P + 1)) (2 * P) (lift (packedSpectrum P c)) := by
  refine liftLocal fun y z same k hk => ?_
  unfold packedSpectrum
  rw [same k (by omega), same (P - k) (by omega)]

variable {node : PackedC2RNode ℝ} {child : Address → Prop} {context : BatchContext} {input output : Address}

theorem PackedC2RNode.executeRun (ok : node.Ok child input output) (direct : ¬ node.fallsBack context input output)
    (blockLimit : ℕ) (schedule : Schedule) :
    LayoutRun (node.execute context input output blockLimit schedule) (node.scratch child)
      (input.row (2 * node.inputDistance context)) (output.row (2 * (node.length / 2)))
      (2 * (node.length / 2)) context.batch (packedRow (node.length / 2) (conj (forwardRoot node.length))) := by
  have inputApart : input.buffer ≠ node.packedInput.buffer := fun same => ok.input 0 (.inl same)
  have outputApart : node.packedInput.buffer ≠ output.buffer := fun same => ok.output 0 (.inl same.symm)
  have preprocess := (preprocessComputes (n := node.length) (d := node.inputDistance context)).launchMap input node.packedInput inputApart
    context.batch schedule (node.scratch child)
  have fft := (ok.computes node.packedInput output context.batch (.inr outputApart) ok.packedInput
    (fun i inner => ok.output i (.inr inner))).mono (fun _ inner => (.inr inner : node.scratch child _))
  unfold PackedC2RNode.execute
  simp only [if_neg direct, ok.twiddle]
  refine (preprocess.run.comp fft dftLocal fun _ _ _ _ => .inl rfl).congr fun x t _ => ?_
  unfold packedRow lift
  rw [interleavedScalars]

/- Without a fallback the rows of the two paths lie at the same place. -/
theorem PackedC2RNode.sameRows (ok : node.Ok child input output) (even : node.length = 2 * (node.length / 2))
    (direct : ¬ node.fallsBack context input output) {b t : ℕ} (hb : b < context.batch) :
    output.row (2 * (node.length / 2)) b t =
      output.row (node.layoutFallback.outputDistance context input output) b t := by
  unfold PackedC2RNode.fallsBack at direct
  unfold C2RNode.outputDistance Address.row
  rw [ok.fallbackLength, ← even]
  by_cases single : context.batch ≤ 1
  · rw [show b = 0 by omega, Nat.zero_mul, Nat.zero_mul]
  · have several : 1 < context.batch := by omega
    have dense : ¬ (0 < context.outputDistance ∧ context.outputDistance ≠ node.length) :=
      fun strided => direct ⟨several, .inr strided⟩
    rw [if_neg fun same => direct ⟨several, .inl same⟩]
    split
    · rw [show context.outputDistance = node.length by omega]
    · rfl

/- Packed against full on one row: they agree when the two real bins are real, and only then. -/
theorem packedRowAgrees {P : ℕ} (positive : 0 < P) (x : ℕ → ℝ) :
    (∀ t < 2 * P, packedRow P (conj (forwardRoot (2 * P))) x t = c2rRow (2 * P) (conj (forwardRoot (2 * P))) x t) ↔
      (interleaved x 0).im = 0 ∧ (interleaved x P).im = 0 := by
  have unit : UnitRoot (2 * P) (conj (forwardRoot (2 * P))) :=
    UnitRoot.conj (forwardRootUnit (Nat.mul_pos Nat.two_pos positive))
  have middle : conj (forwardRoot (2 * P)) ^ P = -1 := by rw [← map_pow, forwardRootMiddle positive, map_neg, map_one]
  have row := packedInverse positive unit middle (interleaved x)
  have even : ∀ j, packedRow P (conj (forwardRoot (2 * P))) x (2 * j) = _ := fun j =>
    (congrArg Complex.re (congrFun (interleavedScalars _) j)).trans (row j).1
  have odd : ∀ j, packedRow P (conj (forwardRoot (2 * P))) x (2 * j + 1) = _ := fun j =>
    (congrArg Complex.im (congrFun (interleavedScalars _) j)).trans (row j).2
  unfold c2rRow
  constructor
  · intro agree
    have first := (even 0).symm.trans (agree _ (by omega))
    have second := (odd 0).symm.trans (agree _ (by omega))
    constructor <;> linarith
  · intro ⟨dc, nyquist⟩ t _
    rw [dc, nyquist] at even odd
    rcases Nat.even_or_odd' t with ⟨j, rfl | rfl⟩
    · rw [even]
      ring
    · rw [odd]
      ring

end Packed

section Agreement
variable {node : PackedC2RNode ℝ} {child full : Address → Prop} (context : BatchContext) (input output : Address)

/- Both paths return, and their output rows agree exactly when the packed node falls back or no row
carries an imaginary part in its two real bins. -/
theorem PackedC2RNode.agreesWithFallback {P : ℕ} (positive : 0 < P) (length : node.length = 2 * P)
    (ok : node.Ok child input output) (fallback : node.layoutFallback.Ok full input output)
    (fits : context.outputDistance = 0 ∨ 2 * P ≤ context.outputDistance) (blockLimit : ℕ) (schedule : Schedule)
    (m : Memory ℝ) :
    ∃ packed expanded, node.execute context input output blockLimit schedule m = .ok packed ∧
      node.layoutFallback.execute context input output blockLimit schedule m = .ok expanded ∧
      ((∀ b < context.batch, ∀ t < 2 * P,
          packed (output.row (node.layoutFallback.outputDistance context input output) b t) =
            expanded (output.row (node.layoutFallback.outputDistance context input output) b t)) ↔
        node.fallsBack context input output ∨ ∀ b < context.batch,
          (interleaved (fun j => m (input.row (2 * node.inputDistance context) b j)) 0).im = 0 ∧
          (interleaved (fun j => m (input.row (2 * node.inputDistance context) b j)) P).im = 0) := by
  have halfLength : node.length / 2 = P := by omega
  have even : node.length = 2 * (node.length / 2) := by omega
  have sameInput : node.layoutFallback.inputDistance context = node.inputDistance context := by
    unfold C2RNode.inputDistance PackedC2RNode.inputDistance
    rw [ok.fallbackLength]
  obtain ⟨runFull, returnsFull, mapFull⟩ := C2RNode.executeRun fallback
    (by rw [ok.fallbackLength, length]; exact fits) blockLimit schedule
  by_cases taken : node.fallsBack context input output
  · refine ⟨runFull m, runFull m, ?_, returnsFull m, fun _ => .inl taken, fun _ _ _ _ _ => rfl⟩
    unfold PackedC2RNode.execute
    rw [if_pos taken]
    exact returnsFull m
  · obtain ⟨run, returns, map⟩ := PackedC2RNode.executeRun ok taken blockLimit schedule
    have packedValue : ∀ b < context.batch, ∀ t < 2 * P,
        run m (output.row (node.layoutFallback.outputDistance context input output) b t) =
          packedRow P (conj (forwardRoot (2 * P))) (fun j => m (input.row (2 * node.inputDistance context) b j)) t := by
      intro b hb t ht
      have here := map.writes m b hb t (by omega)
      rw [PackedC2RNode.sameRows ok even taken hb, halfLength, length] at here
      exact here
    have fullValue : ∀ b < context.batch, ∀ t < 2 * P,
        runFull m (output.row (node.layoutFallback.outputDistance context input output) b t) =
          c2rRow (2 * P) (conj (forwardRoot (2 * P))) (fun j => m (input.row (2 * node.inputDistance context) b j)) t := by
      intro b hb t ht
      have here := mapFull.writes m b hb t (by rw [ok.fallbackLength]; omega)
      rw [sameInput, ok.fallbackLength, length] at here
      exact here
    refine ⟨run m, runFull m, returns m, returnsFull m, ?_⟩
    rw [or_iff_right taken]
    refine forall_congr' fun b => forall_congr' fun hb => ?_
    rw [← packedRowAgrees positive]
    refine forall_congr' fun t => forall_congr' fun ht => ?_
    rw [packedValue b hb t ht, fullValue b hb t ht]

end Agreement

section Forward

/- The first half of the transform of a real row, as scalars. -/
noncomputable def r2cRow (n : ℕ) (x : ℕ → ℝ) : ℕ → ℝ := scalars (dft n (forwardRoot n) fun j => (x j : ℂ))

def PackedR2CNode.scratch (node : PackedR2CNode ℝ) (child : Address → Prop) (a : Address) : Prop :=
  a.buffer = node.packedOutput.buffer ∨ child a

structure PackedR2CNode.Ok (node : PackedR2CNode ℝ) (child : Address → Prop) (input output : Address) : Prop where
  twiddle : node.twiddle = buildRawPackedRealTwiddle node.length
  computes : node.fft.Computes child (2 * (node.length / 2)) (lift (dft (node.length / 2) (forwardRoot node.length ^ 2)))
  packedOutput : ∀ i, ¬ child (node.packedOutput.at i)
  input : ∀ i, ¬ node.scratch child (input.at i)
  output : ∀ i, ¬ node.scratch child (output.at i)

theorem postprocessLocal {P : ℕ} {w : ℂ} (positive : 0 < P) : RowLocal (2 * P) (2 * (P + 1)) (lift (postprocess P w)) := by
  refine liftLocal fun y z same k _ => ?_
  unfold postprocess
  rw [same _ (Nat.mod_lt _ positive), same _ (Nat.mod_lt _ positive)]

theorem PackedR2CNode.executeRun {node : PackedR2CNode ℝ} {child : Address → Prop} {context : BatchContext}
    {input output : Address} {P : ℕ} (positive : 0 < P) (length : node.length = 2 * P) (ok : node.Ok child input output)
    (direct : ¬ node.fallsBack context input output)
    (fits : context.outputDistance = 0 ∨ P + 1 ≤ context.outputDistance) (schedule : Schedule) :
    LayoutRun (node.execute context input output schedule) (node.scratch child) (input.row (2 * P))
      (output.row (2 * node.outputDistance context)) (2 * (P + 1)) context.batch (r2cRow (2 * P)) := by
  have halfLength : node.length / 2 = P := by omega
  have inputApart : input.buffer ≠ node.packedOutput.buffer := fun same => ok.input 0 (.inl same)
  have outputApart : node.packedOutput.buffer ≠ output.buffer := fun same => ok.output 0 (.inl same.symm)
  have distance : node.length / 2 + 1 ≤ node.outputDistance context := by
    unfold PackedR2CNode.outputDistance
    split <;> omega
  have fft := (ok.computes input node.packedOutput context.batch (.inr inputApart)
    (fun i inner => ok.input i (.inr inner)) ok.packedOutput).mono (fun _ inner => (.inr inner : node.scratch child _))
  have post := (postprocessComputes distance).launchMap node.packedOutput output outputApart context.batch schedule
    (node.scratch child)
  rw [halfLength, length] at fft
  rw [halfLength, length] at post
  unfold PackedR2CNode.execute
  simp only [if_neg direct, ok.twiddle, length]
  have stride : (r2cPackedPostprocess (2 * P) (buildRawPackedRealTwiddle (2 * P)) (node.outputDistance context)).inStride =
      2 * P := congrArg (2 * ·) (by omega)
  rw [stride] at post
  refine (fft.comp post.run (postprocessLocal positive) fun _ _ _ _ => .inl rfl).congr fun x i hi => ?_
  unfold lift r2cRow scalars
  rw [show interleaved (fun i => part ((dft P (forwardRoot (2 * P) ^ 2) (interleaved x) (i / 2)).re,
    (dft P (forwardRoot (2 * P) ^ 2) (interleaved x) (i / 2)).im) (i % 2)) =
      dft P (forwardRoot (2 * P) ^ 2) (interleaved x) from interleavedScalars _]
  have forward := packedForward (forwardRootUnit (Nat.mul_pos Nat.two_pos positive)) x (k := i / 2) (by omega)
  rw [← forward]
  rfl

end Forward

/- Forward, the packed path is the transform. Inverse, it matches the full path exactly when it falls
back to it or every row is real in its DC and Nyquist bins: the preprocess kernel does not drop the
imaginary parts that the expanding kernel drops. -/
theorem packedMatchesFull {P : ℕ} (positive : 0 < P) (context : BatchContext) (input output : Address)
    (schedule : Schedule) :
    (∀ (node : PackedR2CNode ℝ) (child : Address → Prop), node.length = 2 * P → node.Ok child input output →
      ¬ node.fallsBack context input output → (context.outputDistance = 0 ∨ P + 1 ≤ context.outputDistance) →
      LayoutRun (node.execute context input output schedule) (node.scratch child) (input.row (2 * P))
        (output.row (2 * node.outputDistance context)) (2 * (P + 1)) context.batch (r2cRow (2 * P))) ∧
    ∀ (node : PackedC2RNode ℝ) (child full : Address → Prop) (blockLimit : ℕ), node.length = 2 * P →
      node.Ok child input output → node.layoutFallback.Ok full input output →
      (context.outputDistance = 0 ∨ 2 * P ≤ context.outputDistance) → ∀ m : Memory ℝ,
      ∃ packed expanded, node.execute context input output blockLimit schedule m = .ok packed ∧
        node.layoutFallback.execute context input output blockLimit schedule m = .ok expanded ∧
        ((∀ b < context.batch, ∀ t < 2 * P,
            packed (output.row (node.layoutFallback.outputDistance context input output) b t) =
              expanded (output.row (node.layoutFallback.outputDistance context input output) b t)) ↔
          node.fallsBack context input output ∨ ∀ b < context.batch,
            (interleaved (fun j => m (input.row (2 * node.inputDistance context) b j)) 0).im = 0 ∧
            (interleaved (fun j => m (input.row (2 * node.inputDistance context) b j)) P).im = 0) :=
  ⟨fun _ _ length ok direct fits => PackedR2CNode.executeRun positive length ok direct fits schedule,
    fun _ _ _ blockLimit length ok fallback fits m =>
      PackedC2RNode.agreesWithFallback context input output positive length ok fallback fits blockLimit schedule m⟩

noncomputable def fullOfTwo : C2RNode ℝ where
  length := 2
  elements := 256
  fft := rowChild 4 (lift (dft 2 (conj (forwardRoot 2))))
  fullInput := ⟨3, 0⟩
  fullOutput := ⟨4, 0⟩
  wide := le_rfl

noncomputable def packedOfTwo : PackedC2RNode ℝ where
  length := 2
  twiddle := buildRawPackedRealTwiddle 2
  fft := rowChild 2 (lift (dft 1 (conj (forwardRoot 2) ^ 2)))
  packedInput := ⟨2, 0⟩
  layoutFallback := fullOfTwo

noncomputable def forwardOfTwo : PackedR2CNode ℝ where
  length := 2
  twiddle := buildRawPackedRealTwiddle 2
  fft := rowChild 2 (lift (dft 1 (forwardRoot 2 ^ 2)))
  packedOutput := ⟨2, 0⟩
  layoutFallback _ _ _ := .ok

theorem fullOfTwoOk : fullOfTwo.Ok (fun _ => False) ⟨0, 0⟩ ⟨1, 0⟩ := by
  refine ⟨rowChildComputes, .inr (by decide), fun _ => not_false, fun _ => not_false, ?_, ?_⟩ <;>
    simp [C2RNode.scratch, fullOfTwo, Address.at]

theorem packedOfTwoOk : packedOfTwo.Ok (fun _ => False) ⟨0, 0⟩ ⟨1, 0⟩ := by
  refine ⟨rfl, rowChildComputes, rfl, fun _ => not_false, ?_, ?_⟩ <;>
    simp [PackedC2RNode.scratch, packedOfTwo, Address.at]

theorem forwardOfTwoOk : forwardOfTwo.Ok (fun _ => False) ⟨0, 0⟩ ⟨1, 0⟩ := by
  refine ⟨rfl, rowChildComputes, fun _ => not_false, ?_, ?_⟩ <;>
    simp [PackedR2CNode.scratch, forwardOfTwo, Address.at]

/- A spectrum of two bins, (i, 0). -/
noncomputable def imaginaryDc : Memory ℝ := fun a => if a = ⟨0, 1⟩ then 1 else 0

theorem packedDiffersOnImaginaryDc : ∃ packed expanded,
    packedOfTwo.execute ⟨1, 0, 0⟩ ⟨0, 0⟩ ⟨1, 0⟩ 1 ascending imaginaryDc = .ok packed ∧
    fullOfTwo.execute ⟨1, 0, 0⟩ ⟨0, 0⟩ ⟨1, 0⟩ 1 ascending imaginaryDc = .ok expanded ∧
    ¬ ∀ t < 2, packed ⟨1, t⟩ = expanded ⟨1, t⟩ := by
  obtain ⟨packed, expanded, first, second, agree⟩ := PackedC2RNode.agreesWithFallback (P := 1) ⟨1, 0, 0⟩ ⟨0, 0⟩ ⟨1, 0⟩
    Nat.one_pos rfl packedOfTwoOk fullOfTwoOk (.inl rfl) 1 ascending imaginaryDc
  refine ⟨packed, expanded, first, second, fun same => ?_⟩
  have real := (agree.mp fun b hb t ht => by
    rw [Nat.lt_one_iff.mp hb]
    simpa [Address.row, Address.at] using same t ht).resolve_left (fun taken => absurd taken.1 (by decide))
  have imaginary := (real 0 Nat.one_pos).1
  simp [interleaved, imaginaryDc, Address.row, Address.at] at imaginary

theorem packedMatchesFullOfTwo :
    LayoutRun (forwardOfTwo.execute ⟨3, 0, 0⟩ ⟨0, 0⟩ ⟨1, 0⟩ ascending) (forwardOfTwo.scratch fun _ => False)
      ((⟨0, 0⟩ : Address).row 2) ((⟨1, 0⟩ : Address).row 4) 4 3 (r2cRow 2) ∧
    ∃ packed expanded, packedOfTwo.execute ⟨3, 0, 0⟩ ⟨0, 0⟩ ⟨1, 0⟩ 1 ascending (fun _ => 0) = .ok packed ∧
      fullOfTwo.execute ⟨3, 0, 0⟩ ⟨0, 0⟩ ⟨1, 0⟩ 1 ascending (fun _ => 0) = .ok expanded ∧
      ∀ b < 3, ∀ t < 2, packed ((⟨1, 0⟩ : Address).row 2 b t) = expanded ((⟨1, 0⟩ : Address).row 2 b t) := by
  have both := packedMatchesFull Nat.one_pos ⟨3, 0, 0⟩ ⟨0, 0⟩ ⟨1, 0⟩ ascending
  constructor
  · exact both.1 forwardOfTwo _ rfl forwardOfTwoOk (by decide) (.inl rfl)
  · obtain ⟨packed, expanded, first, second, agree⟩ := both.2 packedOfTwo _ _ 1 rfl packedOfTwoOk fullOfTwoOk (.inl rfl)
      fun _ => 0
    exact ⟨packed, expanded, first, second, agree.mpr (.inr fun _ _ => ⟨rfl, rfl⟩)⟩

end FlagFft.Real
