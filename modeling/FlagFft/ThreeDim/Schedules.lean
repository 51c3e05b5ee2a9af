import FlagFft.ThreeDim.Fused

/-! What a fused schedule does: three axes one after another, of which only an inner store in the middle
depends on how many batch elements there are. -/
namespace FlagFft.ThreeDim
open Library.Dft Library.RealDft Library.Indexing FlagFft.Real FlagFft.TwoDim
open scoped ComplexConjugate

section Buffers
variable {temp1 temp2 input output : Address} {child : Address → Prop}

def cubeScratch (temp1 temp2 : Address) (child : Address → Prop) (a : Address) : Prop :=
  a.buffer = temp1.buffer ∨ a.buffer = temp2.buffer ∨ child a

/- Two temporary buffers, apart from each other and from what the caller and the children use. -/
structure Buffers (temp1 temp2 input output : Address) (child : Address → Prop) : Prop where
  apart : temp1.buffer ≠ temp2.buffer
  firstKept : ∀ i, ¬ child (temp1.at i)
  secondKept : ∀ i, ¬ child (temp2.at i)
  inputFree : ∀ i, ¬ cubeScratch temp1 temp2 child (input.at i)
  outputFree : ∀ i, ¬ cubeScratch temp1 temp2 child (output.at i)

variable (ok : Buffers temp1 temp2 input output child)
include ok

theorem Buffers.input1 : input.buffer ≠ temp1.buffer := fun same => ok.inputFree 0 (.inl same)

theorem Buffers.input2 : input.buffer ≠ temp2.buffer := fun same => ok.inputFree 0 (.inr (.inl same))

theorem Buffers.output1 : temp1.buffer ≠ output.buffer := fun same => ok.outputFree 0 (.inl same.symm)

theorem Buffers.output2 : temp2.buffer ≠ output.buffer := fun same => ok.outputFree 0 (.inr (.inl same.symm))

theorem Buffers.inputKept (i : ℕ) : ¬ child (input.at i) := fun inner => ok.inputFree i (.inr (.inr inner))

theorem Buffers.outputKept (i : ℕ) : ¬ child (output.at i) := fun inner => ok.outputFree i (.inr (.inr inner))

end Buffers

theorem cubeScratchChild {temp1 temp2 a : Address} {child : Address → Prop} (inner : child a) :
    cubeScratch temp1 temp2 child a := .inr (.inr inner)

section Axes
variable {context : Context3d} {scratch child : Address → Prop} {source via target : Address} {n0 n1 d2 rows : ℕ}
  {fft : ContextChild ℝ} {kernel : Option (Perm3dKernel ℝ)} {w : ℂ}

theorem Stage.congr {work : Work ℝ} {src dst : Address} {a b batch : ℕ} {f g : (ℕ → ℂ) → ℕ → ℂ}
    (ok : Stage work scratch src dst a b batch f) (same : ∀ x, ∀ o < b, f x o = g x o) :
    Stage work scratch src dst a b batch g := by
  refine ⟨ok.rows same, fun x y agree o ho => ?_⟩
  rw [← same x o ho, ← same y o ho]
  exact ok.rowLocal x y agree o ho

theorem Stage.append {first second : List (Pass (Work ℝ))} {src mid dst : Address} {a b c batch : ℕ}
    {f g : (ℕ → ℂ) → ℕ → ℂ} (one : Stage (runPasses first) scratch src mid a b batch f)
    (middle : ∀ i, scratch (mid.at i)) (two : Stage (runPasses second) scratch mid dst b c batch g) :
    Stage (runPasses (first ++ second)) scratch src dst a c batch fun x => g (f x) := by
  refine ⟨?_, rowLocalComp one.rowLocal two.rowLocal⟩
  rw [runPassesAppend]
  refine (one.run.comp two.run (liftLocal two.rowLocal) fun _ _ _ _ => middle _).congr fun x i _ => ?_
  rw [liftTwice]

/- Where an axis leaves its result. -/
def leaves (kernel : Option (Perm3dKernel ℝ)) (via target : Address) : Address := if kernel.isSome then target else via

/- The contiguous axis, then the two inner axes exchanged, by a kernel or by the store. -/
theorem innermostStage
    (computes : ∀ k, kernel = some k → fft.Computes child 0 0 (2 * d2) (2 * d2) (lift (dft d2 w)) ∧
      k.Permutes .a021 n0 n1 d2)
    (stores : kernel = none → StoresOuter fft child 0 (2 * d2) d2 n1 (lift (dft d2 w)))
    (entry : source.buffer ≠ via.buffer) (leave : via.buffer ≠ target.buffer) (sourceKept : ∀ i, ¬ child (source.at i))
    (viaKept : ∀ i, ¬ child (via.at i)) (sub : ∀ a, child a → scratch a) (middle : ∀ i, scratch (via.at i))
    (count : rows = context.batch * n0 * n1) :
    Stage (runPasses (fftPass fft rows source via :: turnPasses kernel (n0 * n1 * d2) context via target)) scratch source
      (leaves kernel via target) (n0 * n1 * d2) (n0 * n1 * d2) context.batch
      (fun x => permuteRow .a021 n0 n1 d2 (blockRows d2 d2 (dft d2 w) x)) := by
  cases kernel with
  | none => exact (outerStage (stores rfl) entry sourceKept viaKept sub count).single
  | some k =>
    obtain ⟨contiguous, permutes⟩ := computes k rfl
    have axis := axisStage contiguous (.inr entry) sourceKept viaKept sub
      (count.trans (Nat.mul_assoc _ _ _))
    exact axis.cons middle (kernelStage context scratch permutes leave).single

/- The middle axis with a kernel behind it. -/
theorem middleStage {k : Perm3dKernel ℝ} (computes : fft.Computes child 0 0 (2 * n1) (2 * n1) (lift (dft n1 w)))
    (permutes : k.Permutes .a210 n0 d2 n1) (entry : source.buffer ≠ via.buffer) (leave : via.buffer ≠ target.buffer)
    (sourceKept : ∀ i, ¬ child (source.at i)) (viaKept : ∀ i, ¬ child (via.at i)) (sub : ∀ a, child a → scratch a)
    (middle : ∀ i, scratch (via.at i)) (count : rows = context.batch * n0 * d2) :
    Stage (runPasses [fftPass fft rows source via, permuteKernelPass k (n0 * n1 * d2) context via target]) scratch source
      target (n0 * n1 * d2) (n0 * n1 * d2) context.batch (readRow .contiguous n0 n1 d2 w) := by
  have size : n0 * d2 * n1 = n0 * n1 * d2 := by ring
  have axis := (axisStage computes (.inr entry) sourceKept viaKept sub
    (count.trans (Nat.mul_assoc _ _ _))).resize size size
  have turn := (kernelStage context scratch permutes leave).resize size size
  rw [size] at turn
  exact (axis.cons middle turn.single).congr fun x o ho => middleTurned x ho

/- The outer axis, then natural order, by a kernel or by the store. -/
theorem outermostStage
    (computes : ∀ k, kernel = some k → fft.Computes child 0 0 (2 * n0) (2 * n0) (lift (dft n0 w)) ∧
      k.Permutes .a201 n1 d2 n0)
    (stores : kernel = none → StoresOuter fft child 0 (2 * n0) n0 (n1 * d2) (lift (dft n0 w)))
    (entry : source.buffer ≠ via.buffer) (leave : ∀ k, kernel = some k → via.buffer ≠ target.buffer)
    (sourceKept : ∀ i, ¬ child (source.at i)) (viaKept : ∀ i, ¬ child (via.at i)) (sub : ∀ a, child a → scratch a)
    (middle : ∀ k, kernel = some k → ∀ i, scratch (via.at i)) (count : rows = context.batch * n1 * d2) :
    Stage (runPasses (fftPass fft rows source via :: turnPasses kernel (n0 * n1 * d2) context via target)) scratch source
      (leaves kernel via target) (n0 * n1 * d2) (n0 * n1 * d2) context.batch (outerRow n0 n1 d2 w) := by
  cases kernel with
  | none =>
    have whole : 1 * (n1 * d2) * n0 = n0 * n1 * d2 := by ring
    have stored := (outerStage (stores rfl) entry sourceKept viaKept sub
      (count.trans (show context.batch * n1 * d2 = context.batch * 1 * (n1 * d2) by ring))).resize whole whole
    exact (stored.congr fun x o ho => outerStored x ho).single
  | some k =>
    obtain ⟨contiguous, permutes⟩ := computes k rfl
    have size : n1 * d2 * n0 = n0 * n1 * d2 := by ring
    have axis := (axisStage contiguous (.inr entry) sourceKept viaKept sub
      (count.trans (Nat.mul_assoc _ _ _))).resize size size
    have turn := (kernelStage context scratch permutes (leave k rfl)).resize size size
    rw [size] at turn
    exact (axis.cons (middle k rfl) turn.single).congr fun x o ho => outerTurned x ho

end Axes

section Fused
variable {reading : Reading} {batch n0 n1 d2 nIn nOut : ℕ} {w1 : ℂ} {scratch : Address → Prop} {src A B dst : Address}
  {head middle tail : Work ℝ} {turned : Bool} {hrow trow spec : (ℕ → ℝ) → ℕ → ℝ} {x u : ℕ → ℝ}

/- A pass that reads the user's input directly. -/
theorem inputRun : RowRun (fun m : Memory ℝ => .ok m) scratch src src nIn nIn batch fun x : ℕ → ℝ => x :=
  ⟨fun m => m, fun _ => rfl, ⟨fun _ _ _ _ _ => rfl, fun _ _ _ _ => rfl⟩⟩

/- Three axes: right for every batch when a kernel turns the middle one, and otherwise for one element or
for rows of one frequency. -/
theorem fusedIff (first : RowRun head scratch src A nIn (2 * (n0 * n1 * d2)) batch hrow)
    (joined : Stage middle scratch A B (n0 * n1 * d2) (n0 * n1 * d2) batch (readRow reading n0 n1 d2 w1) →
      RowRun (fun m => head m >>= middle) scratch src B nIn (2 * (n0 * n1 * d2)) batch
        fun x => lift (readRow reading n0 n1 d2 w1) (hrow x))
    (turns : turned = true →
      Stage middle scratch A B (n0 * n1 * d2) (n0 * n1 * d2) batch (readRow reading n0 n1 d2 w1))
    (leaf : turned = false → InnerRun middle scratch A B batch n0 n1 d2 reading w1)
    (last : RowRun tail scratch B dst (2 * (n0 * n1 * d2)) nOut batch trow) (between : ∀ i, scratch (B.at i))
    (headLocal : RowLocal nIn (2 * (n0 * n1 * d2)) hrow) (lastLocal : RowLocal (2 * (n0 * n1 * d2)) nOut trow)
    (value : ∀ x, ∀ k < nOut, trow (lift (readRow reading n0 n1 d2 w1) (hrow x)) k = spec x k)
    (quiet : ∀ k < 2 * (n0 * n1 * d2), hrow (fun _ => 0) k = 0) (silent : ∀ k < nOut, spec (fun _ => 0) k = 0)
    (pulse : Pulses hrow reading n0 n1 d2 x u) (positive : ∀ k2, 0 ≤ u k2) (seen : u 0 ≠ 0)
    (detects : Detects trow n0 (n1 * d2) nOut) (middles : 0 < n1) (inners : 0 < d2) :
    RowRun (fun m => (head m >>= middle) >>= tail) scratch src dst nIn nOut batch spec ↔
      (turned = false → batch ≤ 1 ∨ n1 * d2 = 1) := by
  have right (stage : Stage middle scratch A B (n0 * n1 * d2) (n0 * n1 * d2) batch (readRow reading n0 n1 d2 w1)) :
      RowRun (fun m => (head m >>= middle) >>= tail) scratch src dst nIn nOut batch spec :=
    ((joined stage).comp last lastLocal fun _ _ _ _ => between _).congr value
  have specLocal : RowLocal nIn nOut spec := by
    intro x y same k hk
    rw [← value x k hk, ← value y k hk]
    exact lastLocal _ _ (fun j hj => liftLocal readRowLocal _ _ (headLocal x y same) j hj) k hk
  cases turned with
  | true => exact ⟨fun _ absurd => Bool.noConfusion absurd, fun _ => right (turns rfl)⟩
  | false =>
    constructor
    · intro claimed _
      by_contra bad
      have points : 1 < n1 * d2 := by
        have := Nat.mul_pos middles inners
        omega
      exact mixes first (leaf rfl) last claimed headLocal specLocal quiet silent pulse positive seen detects (by omega)
        points
    · intro alone
      exact right (innerStage (leaf rfl) (alone rfl))

/- The middle axis as the nodes build it: a kernel turns plain rows, or the leaf stores in the inner form. -/
structure MiddleOk (fft : ContextChild ℝ) (kernel : Option (Perm3dKernel ℝ)) (reading : Reading) (child : Address → Prop)
    (n0 n1 d2 : ℕ) (w1 : ℂ) : Prop where
  computes : ∀ k, kernel = some k → fft.Computes child 0 0 (2 * n1) (2 * n1) (lift (dft n1 w1)) ∧
    k.Permutes .a210 n0 d2 n1 ∧ reading = .contiguous
  stores : kernel = none → StoresInner fft child n1 d2 reading (lift (dft n1 w1))

/- The outer axis likewise, its store in the outer form. -/
structure OuterOk (fft : ContextChild ℝ) (kernel : Option (Perm3dKernel ℝ)) (child : Address → Prop) (n0 n1 d2 : ℕ)
    (w0 : ℂ) : Prop where
  computes : ∀ k, kernel = some k → fft.Computes child 0 0 (2 * n0) (2 * n0) (lift (dft n0 w0)) ∧
    k.Permutes .a201 n1 d2 n0
  stores : kernel = none → StoresOuter fft child 0 (2 * n0) n0 (n1 * d2) (lift (dft n0 w0))

section Turned
variable {context : Context3d} {child : Address → Prop} {rows : ℕ} {fft : ContextChild ℝ}
  {kernel : Option (Perm3dKernel ℝ)} {w0 : ℂ} (via target : Address)

def axisPasses (fft : ContextChild ℝ) (kernel : Option (Perm3dKernel ℝ)) (rows total : ℕ) (context : Context3d)
    (source via target : Address) : List (Pass (Work ℝ)) :=
  fftPass fft rows source via :: turnPasses kernel total context via target

theorem middleTurns (ok : MiddleOk fft kernel reading child n0 n1 d2 w1) (turned : kernel.isSome = true)
    (entry : src.buffer ≠ via.buffer) (leave : via.buffer ≠ target.buffer) (sourceKept : ∀ i, ¬ child (src.at i))
    (viaKept : ∀ i, ¬ child (via.at i)) (sub : ∀ a, child a → scratch a) (middle : ∀ i, scratch (via.at i))
    (count : rows = context.batch * n0 * d2) :
    Stage (runPasses (axisPasses fft kernel rows (n0 * n1 * d2) context src via target)) scratch src
      (leaves kernel via target) (n0 * n1 * d2) (n0 * n1 * d2) context.batch (readRow reading n0 n1 d2 w1) := by
  cases kernel with
  | none => cases turned
  | some k =>
    obtain ⟨contiguous, permutes, rfl⟩ := ok.computes k rfl
    exact middleStage contiguous permutes entry leave sourceKept viaKept sub middle count

theorem middleStores (ok : MiddleOk fft kernel reading child n0 n1 d2 w1) (turned : kernel.isSome = false)
    (entry : src.buffer ≠ via.buffer) (sourceKept : ∀ i, ¬ child (src.at i)) (viaKept : ∀ i, ¬ child (via.at i))
    (sub : ∀ a, child a → scratch a) (count : rows = context.batch * n0 * d2) :
    InnerRun (runPasses (axisPasses fft kernel rows (n0 * n1 * d2) context src via target)) scratch src
      (leaves kernel via target) context.batch n0 n1 d2 reading w1 := by
  subst count
  cases kernel with
  | some k => cases turned
  | none =>
    unfold axisPasses turnPasses
    rw [runPassesSingle]
    exact (ok.stores rfl src via (context.batch * n0) entry sourceKept viaKept).mono sub

theorem outerTurns (ok : OuterOk fft kernel child n0 n1 d2 w0) (entry : src.buffer ≠ via.buffer)
    (leave : ∀ k, kernel = some k → via.buffer ≠ target.buffer) (sourceKept : ∀ i, ¬ child (src.at i))
    (viaKept : ∀ i, ¬ child (via.at i)) (sub : ∀ a, child a → scratch a)
    (middle : ∀ k, kernel = some k → ∀ i, scratch (via.at i)) (count : rows = context.batch * n1 * d2) :
    Stage (runPasses (axisPasses fft kernel rows (n0 * n1 * d2) context src via target)) scratch src
      (leaves kernel via target) (n0 * n1 * d2) (n0 * n1 * d2) context.batch (outerRow n0 n1 d2 w0) :=
  outermostStage ok.computes ok.stores entry leave sourceKept viaKept sub middle count

end Turned

end Fused

end FlagFft.ThreeDim
