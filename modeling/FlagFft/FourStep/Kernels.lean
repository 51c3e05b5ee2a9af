import FlagFft.Kernel
import FlagFft.Library.Dft

/-! The kernels of the four-step transform: packed row and column leaves, the reshape packs, and the
predicate that moves the twiddle product into the row kernel. -/
namespace FlagFft.FourStep
open Library.Indexing Library.Stores Library.Dft

/- What kernel generation knows of its backend and element type. -/
structure Target where
  nonNvidiaBackend : Bool
  portableLeafBackend : Bool
  isDouble : Bool
  deriving DecidableEq, Repr

def tleFusedTwiddleMinLength : ℕ := 2 ^ 18

def tleFusedTwiddleMaxLeaf : ℕ := 1024

def useTleFusedTwiddle (target : Target) (n1 n2 : ℕ) : Bool :=
  if target.nonNvidiaBackend then false
  else !target.isDouble && n1 * n2 ≥ tleFusedTwiddleMinLength && n1 ≤ tleFusedTwiddleMaxLeaf &&
    n2 ≤ tleFusedTwiddleMaxLeaf

def useFourStepRowFusedTwiddle (target : Target) (n1 n2 : ℕ) : Bool :=
  if target.portableLeafBackend then false
  else useTleFusedTwiddle target n1 n2 || (target.isDouble && n1 * n2 ≥ tleFusedTwiddleMinLength)

inductive IoMode where
  | fourStepRow
  | fourStepRowStrided
  | fourStepCol
  | fourStepColStrided
  deriving DecidableEq, Repr

def IoMode.strided : IoMode → Bool
  | .fourStepRowStrided | .fourStepColStrided => true
  | .fourStepRow | .fourStepCol => false

/- The flag the generator evaluates for its own kernel. -/
def fuseTwiddleIntoRow (target : Target) (mode : IoMode) (n1 n2 : ℕ) : Bool :=
  if mode.strided then false else useFourStepRowFusedTwiddle target n1 n2

/- The flag written to the kernel's metadata, which the host reads back. -/
def tleFusedTwiddle (target : Target) (kernelType : IoMode) (n1 n2 : ℕ) : Bool :=
  !kernelType.strided && useFourStepRowFusedTwiddle target n1 n2

inductive Param where
  | inPtr
  | twiddlePtr
  | outPtr
  deriving DecidableEq, Repr

def includeFourStepTwiddle (target : Target) (mode : IoMode) (n1 n2 : ℕ) : Bool :=
  if fuseTwiddleIntoRow target mode n1 n2 then mode = .fourStepRow
  else mode = .fourStepCol ∨ mode = .fourStepColStrided

/- The pointers a kernel takes, before its leaf tables and nbatch. -/
def leafKernelParams (includeTwiddle : Bool) : List Param :=
  .inPtr :: (if includeTwiddle then [.twiddlePtr] else []) ++ [.outPtr]

/- A device pointer is a buffer or a read-only table. -/
inductive Pointer (R : Type*) where
  | buffer (p : Address)
  | table (values : ℕ → R)

structure LeafPointers (R : Type*) where
  inPtr : Address
  twiddlePtr : ℕ → R
  outPtr : Address

/- Arguments meet parameters by position; a launch whose lists differ has no meaning. -/
def bindArgs {R : Type*} [Zero R] : List Param → List (Pointer R) → Option (LeafPointers R)
  | [.inPtr, .outPtr], [.buffer i, .buffer o] => some ⟨i, fun _ => 0, o⟩
  | [.inPtr, .twiddlePtr, .outPtr], [.buffer i, .table t, .buffer o] => some ⟨i, t, o⟩
  | _, _ => none

section Table
variable {R : Type*} [CommRing R]

/- for row < n2, for col < n1: interleaved[row * n1 + col] = w ^ (row * col) -/
def buildRawFourStepTwiddle (w : R) (n1 n2 : ℕ) : ℕ → R :=
  commitAll (fun _ => 0) ((List.range n2).flatMap fun row =>
    (List.range n1).map fun col => ⟨row * n1 + col, w ^ (row * col)⟩)

theorem buildRawFourStepTwiddleAt {w : R} {n1 n2 row col : ℕ} (hr : row < n2) (hc : col < n1) :
    buildRawFourStepTwiddle w n1 n2 (row * n1 + col) = w ^ (row * col) := by
  unfold buildRawFourStepTwiddle
  apply commitAllWritten
  · exact ⟨⟨_, _⟩, List.mem_flatMap.mpr ⟨row, List.mem_range.mpr hr, List.mem_map.mpr
      ⟨col, List.mem_range.mpr hc, rfl⟩⟩, rfl⟩
  · intro s hs same
    obtain ⟨row', _, hs⟩ := List.mem_flatMap.mp hs
    obtain ⟨col', hc', rfl⟩ := List.mem_map.mp hs
    obtain ⟨rfl, rfl⟩ := mulAddInj (List.mem_range.mp hc') hc same
    rfl

end Table

/- A leaf kernel whose programs transform `pack` neighbouring inner positions; `keep` is the store
mask beyond the lane mask, and `index` the position of an output in the row. -/
structure PackedLeaf (R : Type*) where
  inners : ℕ
  outs : ℕ
  pack : ℕ
  nbatch : ℕ
  keep : ℕ → ℕ → Bool
  index : ℕ → ℕ → ℕ
  value : Memory R → ℕ → ℕ → ℕ → R

section Packed
variable {R : Type*} (leaf : PackedLeaf R)

/- four_step_inner = program_id(0) * pack + slot -/
def PackedLeaf.inner (x : ℕ) (t : ℕ × ℕ) : ℕ := x * leaf.pack + t.1

def PackedLeaf.kernel : RowKernel R (ℕ × ℕ) where
  gridX := ceilDiv leaf.inners leaf.pack
  threads batch x :=
    if batch < leaf.nbatch then
      ((List.range leaf.pack).product (List.range leaf.outs)).filter fun t =>
        leaf.inner x t < leaf.inners && leaf.keep (leaf.inner x t) t.2
    else []
  index x t := leaf.index (leaf.inner x t) t.2
  value m batch x t := leaf.value m batch (leaf.inner x t) t.2

variable {leaf}

theorem PackedLeaf.memThreads {batch x : ℕ} {t : ℕ × ℕ} (inBatch : batch < leaf.nbatch) :
    t ∈ leaf.kernel.threads batch x ↔ t.1 < leaf.pack ∧ t.2 < leaf.outs ∧ leaf.inner x t < leaf.inners ∧
      leaf.keep (leaf.inner x t) t.2 := by
  obtain ⟨slot, out⟩ := t
  unfold PackedLeaf.kernel
  simp only [if_pos inBatch, List.mem_filter, List.pair_mem_product, List.mem_range, Bool.and_eq_true,
    decide_eq_true_eq]
  tauto

/- The packs tile the inner positions, the last one partially. -/
theorem PackedLeaf.covers (leaf : PackedLeaf R) {nOut : ℕ} (innerOf outOf : ℕ → ℕ) (positive : 0 < leaf.pack)
    (inside : ∀ inner < leaf.inners, ∀ out < leaf.outs, leaf.keep inner out →
      leaf.index inner out < nOut ∧ innerOf (leaf.index inner out) = inner ∧ outOf (leaf.index inner out) = out)
    (back : ∀ k < nOut, innerOf k < leaf.inners ∧ outOf k < leaf.outs ∧ leaf.keep (innerOf k) (outOf k) ∧
      leaf.index (innerOf k) (outOf k) = k) :
    leaf.kernel.Covers nOut leaf.nbatch
      (fun k => (innerOf k / leaf.pack, (innerOf k % leaf.pack, outOf k))) := by
  constructor
  · intro b hb x _
    unfold PackedLeaf.kernel
    simp only [if_pos hb]
    exact (List.nodup_range.product List.nodup_range).filter _
  · intro b hb x _ t ht
    obtain ⟨slot, out, inner, keep⟩ := (memThreads hb).mp ht
    obtain ⟨low, hInner, hOut⟩ := inside _ inner _ out keep
    refine ⟨low, ?_⟩
    change (innerOf (leaf.index (leaf.inner x t) t.2) / leaf.pack,
      (innerOf (leaf.index (leaf.inner x t) t.2) % leaf.pack, outOf (leaf.index (leaf.inner x t) t.2))) = (x, t)
    rw [hInner, hOut, PackedLeaf.inner, mulAddDiv slot, mulAddMod slot]
  · intro b hb k hk
    obtain ⟨inner, out, keep, here⟩ := back k hk
    have split : leaf.inner (innerOf k / leaf.pack) (innerOf k % leaf.pack, outOf k) = innerOf k := by
      unfold PackedLeaf.inner
      rw [Nat.mul_comm]
      exact Nat.div_add_mod _ _
    have slot := Nat.mod_lt (innerOf k) positive
    refine ⟨?_, ?_, ?_⟩
    · change innerOf k / leaf.pack < ceilDiv leaf.inners leaf.pack
      rw [ltCeilDiv positive]
      exact (Nat.div_mul_le_self _ _).trans_lt inner
    · rw [memThreads hb, split]
      exact ⟨slot, out, inner, keep⟩
    · change leaf.index (leaf.inner _ _) _ = k
      rw [split, here]

end Packed

/- A transform of `n` elements along the index it is given. -/
def ComputesDft {R : Type*} [CommRing R] (n : ℕ) (w : R) (fft : (ℕ → R) → ℕ → R) : Prop :=
  ∀ x, ∀ k < n, fft x k = dft n w x k

theorem ComputesDft.rowLocal {R : Type*} [CommRing R] {n : ℕ} {w : R} {fft : (ℕ → R) → ℕ → R}
    (ok : ComputesDft n w fft) : RowLocal n n fft := by
  intro x y same k hk
  rw [ok x k hk, ok y k hk]
  exact dftCongr same

section Leaves
variable {R : Type*} [CommRing R] (target : Target) (n1 n2 pack nbatch : ℕ) (fft : (ℕ → R) → ℕ → R) (w : R)
  (pointers : LeafPointers R)

def rowLeaf : PackedLeaf R where
  inners := n2
  outs := n1
  pack := pack
  nbatch := nbatch
  keep _ _ := true
  index inner out := inner * n1 + out
  value m batch inner out :=
    let value := fft (fun j => m (pointers.inPtr.at (batch * (n1 * n2) + (j * n2 + inner)))) out
    if fuseTwiddleIntoRow target .fourStepRow n1 n2 then
      -- FP64 reads the table, FP32 computes the angle inner * out in place
      value * (if target.isDouble then pointers.twiddlePtr (inner * n1 + out) else w ^ (inner * out))
    else value

def colLeaf : PackedLeaf R where
  inners := n1
  outs := n2
  pack := pack
  nbatch := nbatch
  keep _ _ := true
  index inner out := out * n1 + inner
  value m batch inner out :=
    fft (fun j =>
      let value := m (pointers.inPtr.at (batch * (n1 * n2) + (j * n1 + inner)))
      if fuseTwiddleIntoRow target .fourStepCol n1 n2 then value
      else value * pointers.twiddlePtr (j * n1 + inner)) out

/- What the row kernel makes of one row of the batch. -/
def rowPass (x : ℕ → R) (k : ℕ) : R :=
  let value := fft (fun j => x (j * n2 + k / n1)) (k % n1)
  if fuseTwiddleIntoRow target .fourStepRow n1 n2 then value * w ^ (k / n1 * (k % n1)) else value

def colPass (x : ℕ → R) (k : ℕ) : R :=
  fft (fun j =>
    if fuseTwiddleIntoRow target .fourStepCol n1 n2 then x (j * n1 + k % n1)
    else x (j * n1 + k % n1) * w ^ (j * (k % n1))) (k / n1)

variable {target n1 n2 pack nbatch fft w pointers} {w' : R}

theorem divLtOfLtMul {k a b : ℕ} (hk : k < a * b) : k / a < b := Nat.div_lt_of_lt_mul hk

theorem rowLeafCovers (positive : 0 < pack) :
    (rowLeaf target n1 n2 pack nbatch fft w pointers).kernel.Covers (n1 * n2) nbatch
      (fun k => (k / n1 / pack, (k / n1 % pack, k % n1))) := by
  refine PackedLeaf.covers (rowLeaf target n1 n2 pack nbatch fft w pointers) (fun k => k / n1)
    (fun k => k % n1) positive ?_ ?_
  · intro inner hInner out hOut _
    refine ⟨?_, mulAddDiv hOut, mulAddMod hOut⟩
    rw [Nat.mul_comm n1]
    exact mulAddLt hInner hOut
  · intro k hk
    refine ⟨divLtOfLtMul hk, Nat.mod_lt _ (Nat.pos_of_mul_pos_right (Nat.zero_lt_of_lt hk)), rfl, ?_⟩
    change k / n1 * n1 + k % n1 = k
    rw [Nat.mul_comm]
    exact Nat.div_add_mod k n1

theorem colLeafCovers (positive : 0 < pack) :
    (colLeaf target n1 n2 pack nbatch fft pointers).kernel.Covers (n1 * n2) nbatch
      (fun k => (k % n1 / pack, (k % n1 % pack, k / n1))) := by
  refine PackedLeaf.covers (colLeaf target n1 n2 pack nbatch fft pointers) (fun k => k % n1)
    (fun k => k / n1) positive ?_ ?_
  · intro inner hInner out hOut _
    refine ⟨?_, mulAddMod hInner, mulAddDiv hInner⟩
    rw [Nat.mul_comm n1]
    exact mulAddLt hOut hInner
  · intro k hk
    refine ⟨Nat.mod_lt _ (Nat.pos_of_mul_pos_right (Nat.zero_lt_of_lt hk)), divLtOfLtMul hk, rfl, ?_⟩
    change k / n1 * n1 + k % n1 = k
    rw [Nat.mul_comm]
    exact Nat.div_add_mod k n1

/- The table is only read when it is bound, and then it is the four-step twiddle. -/
def TableBound (target : Target) (mode : IoMode) (n1 n2 : ℕ) (w : R) (pointers : LeafPointers R) : Prop :=
  includeFourStepTwiddle target mode n1 n2 → pointers.twiddlePtr = buildRawFourStepTwiddle w n1 n2

theorem rowLeafValue (pack nbatch : ℕ) (bound : TableBound target .fourStepRow n1 n2 w pointers) {m : Memory R} {b inner out : ℕ}
    (hInner : inner < n2) (hOut : out < n1) :
    (rowLeaf target n1 n2 pack nbatch fft w pointers).value m b inner out =
      rowPass target n1 n2 fft w (fun j => m (pointers.inPtr.row (n1 * n2) b j)) (inner * n1 + out) := by
  unfold rowPass rowLeaf
  simp only [mulAddDiv hOut, mulAddMod hOut]
  cases fused : fuseTwiddleIntoRow target .fourStepRow n1 n2 with
  | false => rfl
  | true =>
      have table := bound (by unfold includeFourStepTwiddle; simp [fused])
      simp only [if_true, table]
      cases target.isDouble with
      | false => rfl
      | true =>
          simp only [if_true, buildRawFourStepTwiddleAt hInner hOut]
          rfl

theorem colLeafValue (pack nbatch : ℕ) (bound : TableBound target .fourStepCol n1 n2 w pointers) (leaf : ComputesDft n2 w' fft)
    {m : Memory R} {b inner out : ℕ} (hInner : inner < n1) (hOut : out < n2) :
    (colLeaf target n1 n2 pack nbatch fft pointers).value m b inner out =
      colPass target n1 n2 fft w (fun j => m (pointers.inPtr.row (n1 * n2) b j)) (out * n1 + inner) := by
  unfold colPass colLeaf
  simp only [mulAddDiv hInner, mulAddMod hInner]
  refine leaf.rowLocal _ _ (fun j hj => ?_) out hOut
  cases fused : fuseTwiddleIntoRow target .fourStepCol n1 n2 with
  | true => rfl
  | false =>
      have table := bound (by unfold includeFourStepTwiddle; simp [fused])
      simp only [table, buildRawFourStepTwiddleAt hj hInner]
      rfl

theorem rowLeafWrites (positive : 0 < pack) (bound : TableBound target .fourStepRow n1 n2 w pointers) :
    ((rowLeaf target n1 n2 pack nbatch fft w pointers).kernel.element (pointers.outPtr.row (n1 * n2))).Writes
      (ceilDiv n2 pack * nbatch) (pointers.inPtr.row (n1 * n2)) (pointers.outPtr.row (n1 * n2)) (n1 * n2) nbatch
      (rowPass target n1 n2 fft w)
      (fun b k => (b * ceilDiv n2 pack + k / n1 / pack, (k / n1 % pack, k % n1))) := by
  refine (rowLeafCovers positive).writes fun b hb x _ t ht m => ?_
  obtain ⟨_, out, inner, _⟩ := (PackedLeaf.memThreads hb).mp ht
  exact rowLeafValue pack nbatch bound inner out

theorem colLeafWrites (positive : 0 < pack) (bound : TableBound target .fourStepCol n1 n2 w pointers)
    (leaf : ComputesDft n2 w' fft) :
    ((colLeaf target n1 n2 pack nbatch fft pointers).kernel.element (pointers.outPtr.row (n1 * n2))).Writes
      (ceilDiv n1 pack * nbatch) (pointers.inPtr.row (n1 * n2)) (pointers.outPtr.row (n1 * n2)) (n1 * n2) nbatch
      (colPass target n1 n2 fft w)
      (fun b k => (b * ceilDiv n1 pack + k % n1 / pack, (k % n1 % pack, k / n1))) := by
  refine (colLeafCovers positive).writes fun b hb x _ t ht m => ?_
  obtain ⟨_, out, inner, _⟩ := (PackedLeaf.memThreads hb).mp ht
  exact colLeafValue pack nbatch bound leaf inner out

/- Row pass, then column pass: wherever the twiddle went, the four-step identity. -/
theorem passesComputeDft {rowFft colFft : (ℕ → R) → ℕ → R} (root : w ^ (n1 * n2) = 1)
    (row : ComputesDft n1 (w ^ n2) rowFft) (col : ComputesDft n2 (w ^ n1) colFft) (x : ℕ → R) {k : ℕ}
    (hk : k < n1 * n2) :
    colPass target n1 n2 colFft w (rowPass target n1 n2 rowFft w x) k = dft (n1 * n2) w x k := by
  have hInner : k % n1 < n1 := Nat.mod_lt _ (Nat.pos_of_mul_pos_right (Nat.zero_lt_of_lt hk))
  have value : ∀ j < n2, (if fuseTwiddleIntoRow target .fourStepCol n1 n2 then
        rowPass target n1 n2 rowFft w x (j * n1 + k % n1)
      else rowPass target n1 n2 rowFft w x (j * n1 + k % n1) * w ^ (j * (k % n1))) =
      dft n1 (w ^ n2) (fun u => x (u * n2 + j)) (k % n1) * w ^ (k % n1 * j) := by
    intro j _
    unfold rowPass
    simp only [mulAddDiv hInner, mulAddMod hInner, row _ _ hInner, Nat.mul_comm j (k % n1)]
    -- both kernels evaluate the same predicate
    unfold fuseTwiddleIntoRow IoMode.strided
    cases useFourStepRowFusedTwiddle target n1 n2 with
    | true => rfl
    | false => rfl
  calc colPass target n1 n2 colFft w (rowPass target n1 n2 rowFft w x) k
      = dft n2 (w ^ n1) (fun j => dft n1 (w ^ n2) (fun u => x (u * n2 + j)) (k % n1) * w ^ (k % n1 * j))
          (k / n1) := by
        unfold colPass
        rw [col _ _ (divLtOfLtMul hk)]
        exact dftCongr value
    _ = dft (n1 * n2) w x (k % n1 + n1 * (k / n1)) := dftSplit root x (k % n1) (k / n1)
    _ = dft (n1 * n2) w x k := by rw [Nat.mod_add_div]

end Leaves

section Reshape
variable {R : Type*} (n1 n2 : ℕ)

/- r = offsets // C, c = offsets - r * C, dst_off = c * R + r, with R = n1 and C = n2 -/
def reshapeIndex (offset : ℕ) : ℕ :=
  let r := offset / n2
  let c := offset - r * n2
  c * n1 + r

def packKernel (value : Memory R → ℕ → ℕ → R) : RowKernel R ℕ where
  gridX := ceilDiv (n1 * n2) 256
  threads _ x := blockThreads 256 (n1 * n2) x
  index x t := reshapeIndex n1 n2 (x * 256 + t)
  value m batch x t := value m batch (x * 256 + t)

def reshapePackKernel (inPtr : Address) : RowKernel R ℕ :=
  packKernel n1 n2 fun m batch offset => m (inPtr.at (batch * (n1 * n2) + offset))

def twiddleReshapePackKernel [Mul R] (inPtr : Address) (twiddle : ℕ → R) : RowKernel R ℕ :=
  packKernel n1 n2 fun m batch offset => m (inPtr.at (batch * (n1 * n2) + offset)) * twiddle offset

/- The transposed row. -/
def reshapeRow (x : ℕ → R) (k : ℕ) : R := x (k % n1 * n2 + k / n1)

def twiddleReshapeRow [Mul R] (twiddle : ℕ → R) (x : ℕ → R) (k : ℕ) : R :=
  x (k % n1 * n2 + k / n1) * twiddle (k % n1 * n2 + k / n1)

variable {n1 n2}

theorem reshapeIndexOf {r c : ℕ} (hc : c < n2) : reshapeIndex n1 n2 (r * n2 + c) = c * n1 + r := by
  unfold reshapeIndex
  simp only [mulAddDiv hc, Nat.add_sub_cancel_left]

/- Offsets of the source block and positions of the transposed block. -/
theorem reshapeInverse {o : ℕ} (ho : o < n1 * n2) : reshapeIndex n1 n2 o < n1 * n2 ∧
    reshapeIndex n1 n2 o % n1 * n2 + reshapeIndex n1 n2 o / n1 = o := by
  have hr : o / n2 < n1 := Nat.div_lt_of_lt_mul (by rwa [Nat.mul_comm] at ho)
  have hc : o % n2 < n2 := Nat.mod_lt _ (Nat.pos_of_mul_pos_left (Nat.zero_lt_of_lt ho))
  have split : o / n2 * n2 + o % n2 = o := by
    rw [Nat.mul_comm]
    exact Nat.div_add_mod o n2
  have index : reshapeIndex n1 n2 (o / n2 * n2 + o % n2) = o % n2 * n1 + o / n2 := reshapeIndexOf hc
  rw [split] at index
  rw [index, mulAddMod hr, mulAddDiv hr, split, Nat.mul_comm n1]
  exact ⟨mulAddLt hc hr, rfl⟩

theorem reshapeBack {k : ℕ} (hk : k < n1 * n2) :
    k % n1 * n2 + k / n1 < n1 * n2 ∧ reshapeIndex n1 n2 (k % n1 * n2 + k / n1) = k := by
  have hr : k % n1 < n1 := Nat.mod_lt _ (Nat.pos_of_mul_pos_right (Nat.zero_lt_of_lt hk))
  have hc : k / n1 < n2 := Nat.div_lt_of_lt_mul hk
  refine ⟨mulAddLt hr hc, ?_⟩
  rw [reshapeIndexOf hc, Nat.mul_comm]
  exact Nat.div_add_mod k n1

theorem reshapeRowLocal : RowLocal (R := R) (n1 * n2) (n1 * n2) (reshapeRow n1 n2) := by
  intro x y same k hk
  exact same _ (reshapeBack hk).1

theorem twiddleReshapeRowLocal [Mul R] {twiddle : ℕ → R} :
    RowLocal (n1 * n2) (n1 * n2) (twiddleReshapeRow n1 n2 twiddle) := by
  intro x y same k hk
  unfold twiddleReshapeRow
  rw [same _ (reshapeBack hk).1]

theorem packWrites {value : Memory R → ℕ → ℕ → R} {src dst : Address} {batch : ℕ} {row : (ℕ → R) → ℕ → R}
    (each : ∀ m b o, o < n1 * n2 →
      value m b o = row (fun j => m (src.row (n1 * n2) b j)) (reshapeIndex n1 n2 o)) :
    ((packKernel n1 n2 value).element (dst.row (n1 * n2))).Writes (ceilDiv (n1 * n2) 256 * batch)
      (src.row (n1 * n2)) (dst.row (n1 * n2)) (n1 * n2) batch row (fun b k => (b * ceilDiv (n1 * n2) 256 + (k % n1 * n2 + k / n1) / 256,
        (k % n1 * n2 + k / n1) % 256)) :=
  ((packKernel n1 n2 value).blockCovers (fun k => k % n1 * n2 + k / n1) (by decide) rfl
    (fun _ _ => rfl) (fun _ _ => rfl) (fun _ ho => reshapeInverse ho) (fun _ hk => reshapeBack hk)).writes
    fun b _ x _ t ht m => each m b _ (memBlockThreads.mp ht).2

theorem reshapePackWrites {src dst : Address} {batch : ℕ} :
    ((reshapePackKernel (R := R) n1 n2 src).element (dst.row (n1 * n2))).Writes (ceilDiv (n1 * n2) 256 * batch)
      (src.row (n1 * n2)) (dst.row (n1 * n2)) (n1 * n2) batch (reshapeRow n1 n2) (fun b k => (b * ceilDiv (n1 * n2) 256 +
        (k % n1 * n2 + k / n1) / 256, (k % n1 * n2 + k / n1) % 256)) := by
  refine packWrites fun m b o ho => ?_
  unfold reshapeRow
  rw [(reshapeInverse ho).2]
  rfl

theorem twiddleReshapePackWrites [Mul R] {src dst : Address} {batch : ℕ} {twiddle : ℕ → R} :
    ((twiddleReshapePackKernel n1 n2 src twiddle).element (dst.row (n1 * n2))).Writes
      (ceilDiv (n1 * n2) 256 * batch) (src.row (n1 * n2)) (dst.row (n1 * n2)) (n1 * n2) batch (twiddleReshapeRow n1 n2 twiddle) (fun b k =>
        (b * ceilDiv (n1 * n2) 256 + (k % n1 * n2 + k / n1) / 256, (k % n1 * n2 + k / n1) % 256)) := by
  refine packWrites fun m b o ho => ?_
  unfold twiddleReshapeRow
  rw [(reshapeInverse ho).2]
  rfl

end Reshape

end FlagFft.FourStep
