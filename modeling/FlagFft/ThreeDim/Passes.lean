import FlagFft.TwoDim.Real

/-! The passes of a three-dimensional schedule: transforms along the contiguous axis and named axis
permutations, one batch element at a time. A complex element is two scalars. -/
namespace FlagFft.ThreeDim
open Library.Dft Library.RealDft Library.Indexing FlagFft.Real FlagFft.TwoDim

/- The axes of the result, named by their place in the source. -/
inductive AxisOrder where
  | a021
  | a210
  | a201
  | a120
  deriving DecidableEq, Repr

/- Where element (i0, i1, i2) of a (d0, d1, d2) block lies in the result. -/
def AxisOrder.place (order : AxisOrder) (d0 d1 d2 i0 i1 i2 : ℕ) : ℕ :=
  match order with
  | .a021 => cube d2 d1 i0 i2 i1
  | .a210 => cube d1 d0 i2 i1 i0
  | .a201 => cube d0 d1 i2 i0 i1
  | .a120 => cube d2 d0 i1 i2 i0

/- Which element of a (d0, d1, d2) block element `o` of the result is. -/
def AxisOrder.source (order : AxisOrder) (d0 d1 d2 o : ℕ) : ℕ :=
  match order with
  | .a021 => cube d1 d2 (o / d1 / d2) (o % d1) (o / d1 % d2)
  | .a210 => cube d1 d2 (o % d0) (o / d0 % d1) (o / d0 / d1)
  | .a201 => cube d1 d2 (o / d1 % d0) (o % d1) (o / d1 / d0)
  | .a120 => cube d1 d2 (o % d0) (o / d0 / d2) (o / d0 % d2)

def permuteRow {R : Type*} (order : AxisOrder) (d0 d1 d2 : ℕ) (x : ℕ → R) (o : ℕ) : R := x (order.source d0 d1 d2 o)

section Rows
variable {R : Type*} {order : AxisOrder} {d0 d1 d2 i0 i1 i2 : ℕ}

theorem permuteAt (order : AxisOrder) (x : ℕ → R) (h0 : i0 < d0) (h1 : i1 < d1) (h2 : i2 < d2) :
    permuteRow order d0 d1 d2 x (order.place d0 d1 d2 i0 i1 i2) = x (cube d1 d2 i0 i1 i2) := by
  unfold permuteRow AxisOrder.source AxisOrder.place
  cases order <;> simp only [cubeMod, cubeDiv, mulAddDiv, mulAddMod, h0, h1, h2]

theorem AxisOrder.placeLt (h0 : i0 < d0) (h1 : i1 < d1) (h2 : i2 < d2) : order.place d0 d1 d2 i0 i1 i2 < d0 * d1 * d2 := by
  unfold AxisOrder.place
  cases order with
  | a021 => exact (cubeLt h0 h2 h1).trans_eq (by ring)
  | a210 => exact (cubeLt h2 h1 h0).trans_eq (by ring)
  | a201 => exact (cubeLt h2 h0 h1).trans_eq (by ring)
  | a120 => exact (cubeLt h1 h2 h0).trans_eq (by ring)

theorem AxisOrder.placeOf (order : AxisOrder) {o : ℕ} (ho : o < d0 * d1 * d2) :
    ∃ i0 < d0, ∃ i1 < d1, ∃ i2 < d2, o = order.place d0 d1 d2 i0 i1 i2 := by
  cases order with
  | a021 =>
    obtain ⟨i0, h0, i2, h2, i1, h1, same⟩ := cubeOf (ho.trans_eq (show d0 * d1 * d2 = d0 * d2 * d1 by ring))
    exact ⟨i0, h0, i1, h1, i2, h2, same⟩
  | a210 =>
    obtain ⟨i2, h2, i1, h1, i0, h0, same⟩ := cubeOf (ho.trans_eq (show d0 * d1 * d2 = d2 * d1 * d0 by ring))
    exact ⟨i0, h0, i1, h1, i2, h2, same⟩
  | a201 =>
    obtain ⟨i2, h2, i0, h0, i1, h1, same⟩ := cubeOf (ho.trans_eq (show d0 * d1 * d2 = d2 * d0 * d1 by ring))
    exact ⟨i0, h0, i1, h1, i2, h2, same⟩
  | a120 =>
    obtain ⟨i1, h1, i2, h2, i0, h0, same⟩ := cubeOf (ho.trans_eq (show d0 * d1 * d2 = d1 * d2 * d0 by ring))
    exact ⟨i0, h0, i1, h1, i2, h2, same⟩

theorem permuteLocal : RowLocal (d0 * d1 * d2) (d0 * d1 * d2) (permuteRow (R := R) order d0 d1 d2) := by
  intro x y same o ho
  obtain ⟨i0, h0, i1, h1, i2, h2, rfl⟩ := order.placeOf ho
  rw [permuteAt order x h0 h1 h2, permuteAt order y h0 h1 h2]
  exact same _ (cubeLt h0 h1 h2)

/- Rows of the contiguous axis. -/
theorem blockRowsAt {f : (ℕ → R) → ℕ → R} (x : ℕ → R) (h2 : i2 < d2) :
    blockRows d2 d2 f x (cube d1 d2 i0 i1 i2) = f (fun j => x (cube d1 d2 i0 i1 j)) i2 := by
  unfold blockRows
  rw [cubeMod h2, cubeDiv h2]
  rfl

end Rows

section Chains

/- A pass between rows of complex elements, and what it makes of each row. -/
structure Stage (work : Work ℝ) (scratch : Address → Prop) (src dst : Address) (nIn nOut batch : ℕ)
    (row : (ℕ → ℂ) → ℕ → ℂ) : Prop where
  run : RowRun work scratch src dst (2 * nIn) (2 * nOut) batch (lift row)
  rowLocal : RowLocal nIn nOut row

theorem rowLocalComp {R : Type*} {nIn nMid nOut : ℕ} {f g : (ℕ → R) → ℕ → R} (one : RowLocal nIn nMid f)
    (two : RowLocal nMid nOut g) : RowLocal nIn nOut fun x => g (f x) :=
  fun x y same => two (f x) (f y) (one x y same)

variable {scratch : Address → Prop} {src mid dst : Address} {nIn nMid nOut batch : ℕ} {f g : (ℕ → ℂ) → ℕ → ℂ}
  {pass : Pass (Work ℝ)} {rest : List (Pass (Work ℝ))}

theorem Stage.single (ok : Stage pass.work scratch src dst nIn nOut batch f) :
    Stage (runPasses [pass]) scratch src dst nIn nOut batch f := by
  rw [runPassesSingle]
  exact ok

/- The first pass leaves its rows in scratch and the others go on from there. -/
theorem Stage.cons (one : Stage pass.work scratch src mid nIn nMid batch f) (middle : ∀ i, scratch (mid.at i))
    (two : Stage (runPasses rest) scratch mid dst nMid nOut batch g) :
    Stage (runPasses (pass :: rest)) scratch src dst nIn nOut batch fun x => g (f x) := by
  refine ⟨?_, rowLocalComp one.rowLocal two.rowLocal⟩
  rw [runPassesCons]
  refine (one.run.comp two.run (liftLocal two.rowLocal) fun _ _ _ _ => middle _).congr fun x i _ => ?_
  rw [liftTwice]

/- Stages between blocks of one size, however its product is written. -/
theorem Stage.resize {work : Work ℝ} {scratch : Address → Prop} {src dst : Address} {a b a' b' batch : ℕ}
    {row : (ℕ → ℂ) → ℕ → ℂ} (ok : Stage work scratch src dst a b batch row) (first : a = a') (second : b = b') :
    Stage work scratch src dst a' b' batch row := by
  subst first second
  exact ok

theorem Stage.rows {work : Work ℝ} {scratch : Address → Prop} {src dst : Address} {a b batch : ℕ}
    {f g : (ℕ → ℂ) → ℕ → ℂ} (ok : Stage work scratch src dst a b batch f) (same : ∀ x, ∀ o < b, f x o = g x o) :
    RowRun work scratch src dst (2 * a) (2 * b) batch (lift g) :=
  ok.run.congr fun x i hi => liftCongr (same (interleaved x) (i / 2) (by omega))

end Chains

section Kernels
variable {S : Type*}

/- A kernel for blocks of one size, launched on `count` of them. -/
structure Perm3dKernel (S : Type*) where
  gridXOverride : ℕ
  run : Address → Address → ℕ → Memory S → Memory S

/- What every pass of one execution shares. -/
structure Context3d where
  batch : ℕ
  inverse : Bool
  elementBytes : ℕ
  blockLimit : ℕ

def perm3dBlock : ℕ := 1024

def launchPerm3d (kernel : Perm3dKernel S) (elementsPerBatch : ℕ) (context : Context3d) (input output : Address) :
    Memory S → Memory S :=
  let gridX := if 0 < kernel.gridXOverride then kernel.gridXOverride else ceilDiv elementsPerBatch perm3dBlock
  let batchChunk := max 1 (context.blockLimit / max 1 gridX)
  chunkLoop (fun offset count => kernel.run (input.at (offset * (2 * elementsPerBatch)))
    (output.at (offset * (2 * elementsPerBatch))) count) context.batch batchChunk

/- The vendor's transpose: one operation for every size and order, whose launch may be refused. -/
structure NativeTranspose (S : Type*) where
  tables : ℕ
  refusal : ℕ → ℕ → ℕ → AxisOrder → ℕ → Option Failure
  run : ℕ → ℕ → ℕ → AxisOrder → Address → Address → ℕ → Memory S → Memory S

def int32Max : ℕ := 2147483647

def launchPerm3dWithOptionalNpuNative (kernel : Perm3dKernel S) (native : Option (NativeTranspose S)) (d0 d1 d2 : ℕ)
    (order : AxisOrder) (context : Context3d) (input output : Address) (m : Memory S) : Except Failure (Memory S) :=
  match native with
  | some transpose =>
    if transpose.tables ≠ 24 ∨ context.elementBytes ≠ 8 ∨ int32Max < d0 ∨ int32Max < d1 ∨ int32Max < d2 ∨
        int32Max < context.batch then .error .invalidSize
    else
      let perBatchTiles := (d0 + 15) / 16 * ((d1 + 15) / 16) * ((d2 + 15) / 16)
      let batchChunk := max 1 (context.blockLimit / max 1 perBatchTiles)
      let elements := 2 * (d0 * d1 * d2)
      (batchChunks context.batch batchChunk).foldlM (fun m (offset, count) =>
        match transpose.refusal d0 d1 d2 order count with
        | some failure => .error failure
        | none =>
          .ok (transpose.run d0 d1 d2 order (input.at (offset * elements)) (output.at (offset * elements)) count m)) m
  | none => .ok (launchPerm3d kernel (d0 * d1 * d2) context input output m)

def permutePass (kernel : Perm3dKernel S) (native : Option (NativeTranspose S)) (d0 d1 d2 : ℕ) (order : AxisOrder)
    (context : Context3d) : Address → Address → Pass (Work S) :=
  .between fun src dst => launchPerm3dWithOptionalNpuNative kernel native d0 d1 d2 order context src dst

def permuteKernelPass (kernel : Perm3dKernel S) (elementsPerBatch : ℕ) (context : Context3d) :
    Address → Address → Pass (Work S) :=
  .between fun src dst m => .ok (launchPerm3d kernel elementsPerBatch context src dst m)

def fftPass (child : ContextChild S) (rows : ℕ) : Address → Address → Pass (Work S) :=
  .between fun src dst => child src dst ⟨rows, 0, 0⟩

end Kernels

section Kinds
variable {batch d0 d1 d2 : ℕ} {order : AxisOrder} {context : Context3d} {scratch child : Address → Prop}
  {src dst : Address}

/- A kernel is the named permutation of (d0, d1, d2) blocks. -/
def Perm3dKernel.Permutes (kernel : Perm3dKernel ℝ) (order : AxisOrder) (d0 d1 d2 : ℕ) : Prop :=
  ∀ src dst count, src.buffer ≠ dst.buffer →
    RowMap (kernel.run src dst count) (fun _ => False) src dst (2 * (d0 * d1 * d2)) (2 * (d0 * d1 * d2)) count
      (lift (permuteRow order d0 d1 d2))

/- The vendor's transpose takes the launch and is the named permutation. -/
structure NativeTranspose.Permutes (transpose : NativeTranspose ℝ) (context : Context3d) (order : AxisOrder)
    (d0 d1 d2 : ℕ) : Prop where
  tables : transpose.tables = 24
  single : context.elementBytes = 8
  small : d0 ≤ int32Max ∧ d1 ≤ int32Max ∧ d2 ≤ int32Max ∧ context.batch ≤ int32Max
  accepts : ∀ count, transpose.refusal d0 d1 d2 order count = none
  run : (Perm3dKernel.mk 0 (transpose.run d0 d1 d2 order)).Permutes order d0 d1 d2

/- Either way the permutation is the named one. -/
def Permutes (kernel : Perm3dKernel ℝ) (native : Option (NativeTranspose ℝ)) (context : Context3d) (order : AxisOrder)
    (d0 d1 d2 : ℕ) : Prop :=
  match native with
  | some transpose => transpose.Permutes context order d0 d1 d2
  | none => kernel.Permutes order d0 d1 d2

theorem chunkedPermutes {kernel : Perm3dKernel ℝ} (ok : kernel.Permutes order d0 d1 d2) (apart : src.buffer ≠ dst.buffer)
    {chunk : ℕ} (positive : 0 < chunk) :
    RowMap (chunkLoop (fun offset count => kernel.run (src.at (offset * (2 * (d0 * d1 * d2))))
        (dst.at (offset * (2 * (d0 * d1 * d2)))) count) batch chunk)
      (fun _ => False) src dst (2 * (d0 * d1 * d2)) (2 * (d0 * d1 * d2)) batch (lift (permuteRow order d0 d1 d2)) :=
  chunkedRowMap (fun _ => positive) (liftLocal permuteLocal) (.inr apart) (fun _ => not_false) (fun _ => not_false)
    fun _ count _ => ok _ _ count apart

theorem kernelStage (context : Context3d) (scratch : Address → Prop) {kernel : Perm3dKernel ℝ} (ok : kernel.Permutes order d0 d1 d2) (apart : src.buffer ≠ dst.buffer) :
    Stage (permuteKernelPass kernel (d0 * d1 * d2) context src dst).work scratch src dst (d0 * d1 * d2) (d0 * d1 * d2)
      context.batch (permuteRow order d0 d1 d2) where
  run := ((chunkedPermutes ok apart (Nat.lt_of_lt_of_le Nat.zero_lt_one (le_max_left _ _))).mono
    fun a absurd => (absurd.elim : scratch a)).run
  rowLocal := permuteLocal

theorem foldlAccepted {S α : Type*} {refusal : α → Option Failure} {run : α → Memory S → Memory S}
    (ok : ∀ c, refusal c = none) (chunks : List α) (m : Memory S) :
    chunks.foldlM (fun m c => match refusal c with | some failure => .error failure | none => .ok (run c m)) m =
      (.ok (chunks.foldl (fun m c => run c m) m) : Except Failure (Memory S)) := by
  induction chunks generalizing m with
  | nil => rfl
  | cons c rest ih =>
    rw [List.foldlM_cons, ok c]
    exact ih (run c m)

theorem permuteStage (scratch : Address → Prop) {kernel : Perm3dKernel ℝ} {native : Option (NativeTranspose ℝ)}
    (ok : Permutes kernel native context order d0 d1 d2) (apart : src.buffer ≠ dst.buffer) :
    Stage (permutePass kernel native d0 d1 d2 order context src dst).work scratch src dst (d0 * d1 * d2) (d0 * d1 * d2)
      context.batch (permuteRow order d0 d1 d2) := by
  cases native with
  | none => exact kernelStage context scratch ok apart
  | some transpose =>
    refine ⟨⟨_, fun m => ?_, (chunkedPermutes ok.run apart (Nat.lt_of_lt_of_le Nat.zero_lt_one (le_max_left 1
      (context.blockLimit / max 1 ((d0 + 15) / 16 * ((d1 + 15) / 16) * ((d2 + 15) / 16)))))).mono
      fun a absurd => (absurd.elim : scratch a)⟩, permuteLocal⟩
    unfold permutePass Pass.between launchPerm3dWithOptionalNpuNative
    have accepted : ¬ (transpose.tables ≠ 24 ∨ context.elementBytes ≠ 8 ∨ int32Max < d0 ∨ int32Max < d1 ∨
        int32Max < d2 ∨ int32Max < context.batch) := by
      have := ok.tables
      have := ok.single
      have := ok.small
      omega
    simp only [if_neg accepted]
    exact foldlAccepted (fun c : ℕ × ℕ => ok.accepts c.2) _ m

/- The contiguous axis of a block, row by row. -/
theorem axisStage {fft : ContextChild ℝ} {w : ℂ} {rows : ℕ} (ok : fft.Computes child 0 0 (2 * d2) (2 * d2) (lift (dft d2 w)))
    (compatible : Disjoint src dst (2 * d2) (2 * d2)) (source : ∀ i, ¬ child (src.at i)) (target : ∀ i, ¬ child (dst.at i))
    (sub : ∀ a, child a → scratch a) (count : rows = batch * (d0 * d1)) :
    Stage (fftPass fft rows src dst).work scratch src dst (d0 * d1 * d2) (d0 * d1 * d2) batch
      (blockRows d2 d2 (dft d2 w)) := by
  subst count
  have run := blockRowsRun ((ok src dst (batch * (d0 * d1)) compatible source target).mono sub)
  have size : d0 * d1 * (2 * d2) = 2 * (d0 * d1 * d2) := by ring
  rw [size] at run
  refine ⟨run.congr fun x i _ => ?_, blockRowsLocal fun _ _ same _ _ => dftCongr same⟩
  rw [liftBlockRows]

end Kinds

end FlagFft.ThreeDim
